import Mathlib
import TwinModule.Proofs.Conversion.Tailor
import TwinModule.Proofs.Directive.Attached
import TwinModule.Proofs.Tree.Tidy
/-!
When a converted tree has a statement in every block that is written. A clause that keeps its comments and loses its
statements is written with nothing in it, and that is the only way in which a conversion goes wrong.
-/
set_option autoImplicit false

namespace TwinModule

/-- A statement in every body and in every other clause that is written at all, which the last clause of a `try`
without handlers always is. -/
def Rule.valid : Rule where
  stmt _ _ _ := True
  comment _ := True
  block _ owner slot ss :=
    match owner, slot with
    | .file, _ => True
    | .item _ _, .body => ss.any Stmt.isReal = true
    | .item _ _, .orelse => ss ≠ [] → ss.any Stmt.isReal = true
    | .item _ isBare, .finalbody => isBare = true ∨ ss ≠ [] → ss.any Stmt.isReal = true

/-- A clause with a comment has a statement that is not for the variant. -/
def clauseKeeps (v : Variant) (ss : List Stmt) : Prop :=
  ss.any Stmt.isComment = true → ss.any (fun s => s.isReal && !s.isFor v) = true

mutual

/-- Whether the clauses in a statement keep a statement beside their comments when the statements for a variant are
taken out. The last clause of a `try` without handlers is filled if it does not. -/
def Stmt.Keeps (v : Variant) : Stmt → Prop
  | .simple .. => True
  | .comment _ => True
  | .block info _ body => info.tags.any (Tag.names v) = false → stmtsKeep v body
  | .branch info _ body orelse =>
    info.tags.any (Tag.names v) = false → stmtsKeep v body ∧ clauseKeeps v orelse ∧ stmtsKeep v orelse
  | .attempt info isGroup body handlers orelse finalbody =>
    info.tags.any (Tag.names v) = false →
      stmtsKeep v body ∧ handlersKeep v handlers ∧ (clauseKeeps v orelse ∧ stmtsKeep v orelse) ∧
        ((!isGroup && handlers.isEmpty) = false → clauseKeeps v finalbody) ∧ stmtsKeep v finalbody
  | .select info _ cases => info.tags.any (Tag.names v) = false → casesKeep v cases

def stmtsKeep (v : Variant) : List Stmt → Prop
  | [] => True
  | s :: ss => s.Keeps v ∧ stmtsKeep v ss

def handlersKeep (v : Variant) : List Handler → Prop
  | [] => True
  | .comment _ :: hs => handlersKeep v hs
  | .handler _ _ _ body :: hs => stmtsKeep v body ∧ handlersKeep v hs

def casesKeep (v : Variant) : List Case → Prop
  | [] => True
  | .comment _ :: cs => casesKeep v cs
  | .case _ _ _ body :: cs => stmtsKeep v body ∧ casesKeep v cs

end

theorem stmtsKeep_of_not_inline {v : Variant} {ss : List Stmt} (h : isInline ss = false) : stmtsKeep v ss := by
  induction ss with
  | nil => trivial
  | cons s ss ih =>
    rw [isInline, List.any_cons, Bool.or_eq_false_iff] at h
    cases s with
    | comment c => exact ⟨trivial, ih h.2⟩
    | _ => simp [Stmt.isReal, Stmt.isComment] at h

namespace Conversion

theorem coarse_valid : Rule.valid.Coarse := by
  intro inner owner slot ss us hk
  have hr := any_isReal_of_kind hk
  have hn : us = [] ↔ ss = [] := by
    rw [← List.map_eq_nil_iff (f := Stmt.kind), hk, List.map_eq_nil_iff]
  cases owner with
  | file => exact Iff.rfl
  | item span isBare => cases slot <;> simp only [Rule.valid, hr, ne_eq, hn]

/-- The rule for a tree that is going to be tidied. -/
abbrev untidy : Rule := (Rule.valid.before .pad).before .dropErased

theorem untidy_body (inner : Bool) (span : Span) (isBare : Bool) (ss : List Stmt) :
    untidy.block inner (.item span isBare) .body ss := by
  simp only [Rule.before, pad_body]
  exact any_orPass span _

/-- What stays of a list of statements: those that are not for the variant. -/
def Stays (v : Variant) (ss out : List Stmt) : Prop :=
  (out.filter fun s => !s.isErased).map Stmt.kind = (ss.filter fun s => !s.isFor v).map Stmt.kind

theorem Stays.append {v : Variant} {ss us out out' : List Stmt} (h : Stays v ss out) (h' : Stays v us out') :
    Stays v (ss ++ us) (out ++ out') := by
  simp only [Stays, List.filter_append, List.map_append] at h h' ⊢
  rw [h, h']

theorem Stays.clause_iff {v : Variant} {ss out : List Stmt} (h : Stays v ss out) :
    ((out.filter fun s => !s.isErased) ≠ [] → (out.filter fun s => !s.isErased).any Stmt.isReal = true) ↔
      clauseKeeps v ss := by
  have hr := any_isReal_of_kind h
  have hn : (out.filter fun s => !s.isErased) = [] ↔ (ss.filter fun s => !s.isFor v) = [] := by
    rw [← List.map_eq_nil_iff (f := Stmt.kind), h, List.map_eq_nil_iff]
  have hany : (ss.filter fun s => !s.isFor v).any Stmt.isReal = ss.any fun s => s.isReal && !s.isFor v := by
    rw [List.any_filter]
    exact congrArg ss.any (funext fun s => Bool.and_comm ..)
  rw [hr, hany, Ne, hn, clauseKeeps]
  constructor
  · intro hkeep hc
    obtain ⟨s, hs, hsc⟩ := List.any_eq_true.1 hc
    refine hkeep fun he => ?_
    have hf : s.isFor v = false := by
      cases s with
      | comment c => rfl
      | _ => cases hsc
    exact List.filter_eq_nil_iff.1 he s hs (by simp [hf])
  · intro hkeep he
    obtain ⟨s, hs⟩ := List.exists_mem_of_ne_nil _ he
    obtain ⟨hs, hf⟩ := List.mem_filter.1 hs
    cases hsc : s.isComment with
    | true => exact hkeep (List.any_eq_true.2 ⟨s, hs, hsc⟩)
    | false => exact List.any_eq_true.2 ⟨s, hs, by simp [Stmt.isReal, hsc] at hf ⊢; exact hf⟩

theorem untidy_orelse_iff {v : Variant} {inner : Bool} {span : Span} {isBare : Bool} {ss out : List Stmt}
    (h : Stays v ss out) : untidy.block inner (.item span isBare) .orelse out ↔ clauseKeeps v ss := by
  rw [← h.clause_iff]
  simp only [Rule.before, pad_orelse]
  exact Iff.rfl

theorem untidy_finalbody_iff {v : Variant} {inner : Bool} {span : Span} {isBare : Bool} {ss out : List Stmt}
    (h : Stays v ss out) :
    untidy.block inner (.item span isBare) .finalbody out ↔ (isBare = false → clauseKeeps v ss) := by
  rw [← h.clause_iff]
  simp only [Rule.before, pad_finalbody]
  cases isBare with
  | true =>
    refine ⟨fun _ hb => ?_, fun _ _ => any_orPass span _⟩
    cases hb
  | false => exact ⟨fun h _ hn => h (.inr hn), fun h hn => h rfl (hn.resolve_left (by simp))⟩

/-- A property of all files that have been read according to some notes. -/
def ReadKeep (p : FilePath → Prop) (ns : List Note) : Prop := ∀ names path, Note.resolved names path ∈ ns → p path

theorem readKeep_append {p : FilePath → Prop} {ms ns : List Note} :
    ReadKeep p (ms ++ ns) ↔ ReadKeep p ms ∧ ReadKeep p ns := by
  simp only [ReadKeep, List.mem_append]
  constructor
  · intro h
    exact ⟨fun names path hm => h names path (.inl hm), fun names path hn => h names path (.inr hn)⟩
  · rintro ⟨hm, hn⟩ names path (h | h)
    · exact hm names path h
    · exact hn names path h

theorem readKeep_nil (p : FilePath → Prop) : ReadKeep p [] := by
  simp [ReadKeep]

theorem readKeep_resolved {p : FilePath → Prop} {names : List String} {path : FilePath} {ns : List Note} :
    ReadKeep p (.resolved names path :: ns) ↔ p path ∧ ReadKeep p ns := by
  simp only [ReadKeep, List.mem_cons]
  constructor
  · intro h
    exact ⟨h names path (.inl rfl), fun names path hn => h names path (.inr hn)⟩
  · rintro ⟨hp, hn⟩ names' path' (h | h)
    · cases h
      exact hp
    · exact hn names' path' h

/-- What tailoring statements gives, and that it is right if they and all files read on the way keep what they need. -/
def Accounts (v : Variant) (p : FilePath → Prop) (outer : Bool) (ss : List Stmt) (ns : List Note) (out : List Stmt) :
    Prop :=
  (stmtsObey untidy outer out ↔ stmtsKeep v ss ∧ ReadKeep p ns) ∧ Stays v ss out

variable {v : Variant} {p : FilePath → Prop} {outer : Bool}

theorem Accounts.cons {s : Stmt} {ss first rest : List Stmt} {ms ns : List Note} (h : Accounts v p outer [s] ms first)
    (h' : Accounts v p outer ss ns rest) : Accounts v p outer (s :: ss) (ms ++ ns) (first ++ rest) := by
  obtain ⟨hs, hk⟩ := h
  obtain ⟨hs', hk'⟩ := h'
  refine ⟨?_, hk.append hk'⟩
  simp only [stmtsKeep, and_true] at hs ⊢
  rw [stmtsObey_append, hs, hs', readKeep_append]
  constructor
  · rintro ⟨⟨h1, h2⟩, h3, h4⟩
    exact ⟨⟨h1, h3⟩, h2, h4⟩
  · rintro ⟨⟨h1, h3⟩, h2, h4⟩
    exact ⟨⟨h1, h2⟩, h3, h4⟩

/-- A statement of the variant stays as one statement. -/
theorem Accounts.own {s t : Stmt} {ns : List Note} (hf : s.isFor v = false) (he : t.isErased = false)
    (hk : t.kind = s.kind) (h : t.Obeys untidy outer ↔ s.Keeps v ∧ ReadKeep p ns) : Accounts v p outer [s] ns [t] := by
  constructor
  · simpa [stmtsKeep] using h
  · simp [Stays, he, hf, hk]

theorem keeps_of_isFor {s : Stmt} (h : s.isFor v = true) : s.Keeps v := by
  have hne : ∀ tags : List Tag, tags.any (Tag.names v) = true → tags.any (Tag.names v) ≠ false := by
    intro tags ht hf
    rw [ht] at hf
    cases hf
  cases s with
  | simple info what => trivial
  | comment k => trivial
  | _ => exact fun hf => absurd hf (hne _ h)

variable {c : Conversion} {load : Loader}

/-- A statement for the other variant leaves nothing that needs anything. -/
theorem accounts_other {around : Surroundings} {s : Stmt} {ns : List Note} {out : List Stmt}
    (h : (c.tailor load around s).Yields ns out) (hf : s.isFor c.variant.other = true) :
    Accounts c.variant.other p outer [s] ns out := by
  rw [tailor_of_other hf] at h
  cases h
  have hn : ReadKeep p [Note.dropping s.kindName s.span.line c.variant] := by
    simp [ReadKeep]
  constructor
  · refine ⟨fun _ => ⟨⟨keeps_of_isFor hf, trivial⟩, hn⟩, fun _ => ?_⟩
    split
    · trivial
    · exact ⟨trivial, trivial⟩
  · simp only [Stays, hf, List.filter_cons, List.filter_nil]
    split <;> rfl

/-- What a loader gives is right if the files read for it keep what they need. -/
def Loader.Exact (p : FilePath → Prop) (load : Loader) : Prop :=
  ∀ around name explicit line ns body, (load around name explicit line).Yields ns body →
    (stmtsObey untidy true body ↔ ReadKeep p ns)

variable {around : Surroundings} {ns : List Note}

theorem accounts_tailor_block (hl : Loader.Exact p load) {info : Info} {head : BlockHead} {body out : List Stmt}
    (hi : Rule.attached.stmt outer head.role info.tags)
    (ih : ∀ (around : Surroundings) (ms : List Note) (body' : List Stmt),
      (c.tailorStmts load around body).Yields ms body' → Accounts c.variant.other p head.isModule body ms body')
    (h : (c.tailor load around (.block info head body)).Yields ns out) :
    Accounts c.variant.other p outer [.block info head body] ns out := by
  cases hf : info.tags.any (Tag.names c.variant.other) with
  | true => exact accounts_other h hf
  | false =>
    have hkeeps : (Stmt.block info head body).Keeps c.variant.other ↔ stmtsKeep c.variant.other body :=
      ⟨fun hk => hk hf, fun hk _ => hk⟩
    have hblock : ∀ (info' : Info) (body' : List Stmt),
        (Stmt.block info' head body').Obeys untidy outer ↔ stmtsObey untidy head.isModule body' :=
      fun info' body' => ⟨fun ho => ho.2.2, fun ho => ⟨trivial, untidy_body .., ho⟩⟩
    cases hm : head.role with
    | erased => exact absurd hm hi.1
    | ordinary =>
      rw [tailor_block hf hm] at h
      obtain ⟨body', hbody, rfl⟩ := Traced.bind_pure_yields_iff.1 h
      exact .own hf rfl rfl (by rw [hblock, hkeeps, (ih around ns body' hbody).1])
    | module_ =>
      cases head with
      | module_ name =>
        obtain ⟨explicit, body', rfl, hbody⟩ := exists_tailored_module hf h
        rcases hbody with ⟨-, hbody⟩ | ⟨hinline, hbody⟩
        · exact .own hf rfl rfl (by rw [hblock, hkeeps, (ih _ ns body' hbody).1])
        · -- A declared module has nothing but comments here, so that all depends on its file.
          have hempty : stmtsKeep c.variant.other body := stmtsKeep_of_not_inline hinline
          refine .own hf rfl rfl ?_
          rw [hblock, hkeeps]
          exact (hl _ _ _ _ _ _ hbody).trans ⟨fun hr => ⟨hempty, hr⟩, fun hr => hr.2⟩
      | _ => cases hm

mutual

theorem accounts_tailor (hl : Loader.Exact p load) {outer : Bool} {around : Surroundings} {ns : List Note}
    {out : List Stmt} : (s : Stmt) → s.Obeys .attached outer → (c.tailor load around s).Yields ns out →
    Accounts c.variant.other p outer [s] ns out
  | .comment k, _, h => by
    obtain ⟨rfl, rfl⟩ := Traced.pure_yields_iff.1 h
    exact .own rfl rfl rfl ⟨fun _ => ⟨trivial, readKeep_nil p⟩, fun _ => trivial⟩
  | .simple info what, hs, h => by
    cases hf : info.tags.any (Tag.names c.variant.other) with
    | true => exact accounts_other h hf
    | false =>
      rw [tailor_simple hf] at h
      obtain ⟨rfl, rfl⟩ := Traced.pure_yields_iff.1 h
      have he : (Stmt.simple (c.untagged info) (c.retarget what)).isErased = false := by
        rw [Stmt.isErased_eq_false_iff]
        simp only [Stmt.role, role_retarget]
        exact hs.1
      have he' : (Stmt.simple info what).isErased = false := Stmt.isErased_eq_false_iff.2 hs.1
      exact .own hf he (congrArg (true, ·) (he.trans he'.symm)) ⟨fun _ => ⟨trivial, readKeep_nil p⟩, fun _ => trivial⟩
  | .block info head body, ⟨hi, _, hb⟩, h =>
    accounts_tailor_block hl hi (fun _ _ _ hbody => accounts_tailorStmts hl body hb hbody) h
  | .branch info head body orelse, ⟨_, ⟨_, hb⟩, _, ho⟩, h => by
    cases hf : info.tags.any (Tag.names c.variant.other) with
    | true => exact accounts_other h hf
    | false =>
      rw [tailor_branch hf] at h
      obtain ⟨ms, body', ks, orelse', hbody, horelse, rfl, rfl⟩ := Traced.bind_bind_pure_yields_iff.1 h
      obtain ⟨hbi, -⟩ := accounts_tailorStmts hl body hb hbody
      obtain ⟨hoi, hos⟩ := accounts_tailorStmts hl orelse ho horelse
      refine .own hf rfl rfl ?_
      simp only [Stmt.Obeys, Stmt.Keeps, hf, untidy_orelse_iff hos, hbi, hoi, readKeep_append]
      constructor
      · rintro ⟨-, ⟨-, hkb, hrb⟩, hco, hko, hro⟩
        exact ⟨fun _ => ⟨hkb, hco, hko⟩, hrb, hro⟩
      · rintro ⟨hk, hrb, hro⟩
        obtain ⟨hkb, hco, hko⟩ := hk trivial
        exact ⟨trivial, ⟨untidy_body .., hkb, hrb⟩, hco, hko, hro⟩
  | .attempt info isGroup body handlers orelse finalbody, ⟨_, ⟨_, hb⟩, hh, ⟨_, ho⟩, _, hfb⟩, h => by
    cases hf : info.tags.any (Tag.names c.variant.other) with
    | true => exact accounts_other h hf
    | false =>
      obtain ⟨mb, body', mh, handlers', mo, orelse', mf, finalbody', hbody, hhandlers, horelse, hfinal, rfl, rfl⟩ :=
        exists_tailored_attempt hf h
      obtain ⟨hbi, -⟩ := accounts_tailorStmts hl body hb hbody
      obtain ⟨hhi, hempty⟩ := accounts_tailorHandlers hl handlers hh hhandlers
      obtain ⟨hoi, hos⟩ := accounts_tailorStmts hl orelse ho horelse
      obtain ⟨hfi, hfs⟩ := accounts_tailorStmts hl finalbody hfb hfinal
      refine .own hf rfl (by cases isGroup <;> rfl) ?_
      simp only [Stmt.Obeys, Stmt.Keeps, hf, hempty, untidy_orelse_iff hos, untidy_finalbody_iff hfs, hbi, hhi, hoi,
        hfi, readKeep_append]
      constructor
      · rintro ⟨-, ⟨-, hkb, hrb⟩, ⟨hkh, hrh⟩, ⟨hco, hko, hro⟩, hcf, hkf, hrf⟩
        exact ⟨fun _ => ⟨hkb, hkh, ⟨hco, hko⟩, hcf, hkf⟩, hrb, hrh, hro, hrf⟩
      · rintro ⟨hk, hrb, hrh, hro, hrf⟩
        obtain ⟨hkb, hkh, ⟨hco, hko⟩, hcf, hkf⟩ := hk trivial
        exact ⟨trivial, ⟨untidy_body .., hkb, hrb⟩, ⟨hkh, hrh⟩, ⟨hco, hko, hro⟩, hcf, hkf, hrf⟩
  | .select info subject cases, ⟨_, hc⟩, h => by
    cases hf : info.tags.any (Tag.names c.variant.other) with
    | true => exact accounts_other h hf
    | false =>
      rw [tailor_select hf] at h
      obtain ⟨cases', hcases, rfl⟩ := Traced.bind_pure_yields_iff.1 h
      refine .own hf rfl rfl ?_
      simp only [Stmt.Obeys, Stmt.Keeps, hf, accounts_tailorCases hl cases hc hcases]
      exact ⟨fun ho => ⟨fun _ => ho.2.1, ho.2.2⟩, fun hk => ⟨trivial, hk.1 trivial, hk.2⟩⟩
termination_by structural s => s

theorem accounts_tailorStmts (hl : Loader.Exact p load) {outer : Bool} {around : Surroundings} {ns : List Note}
    {out : List Stmt} : (ss : List Stmt) → stmtsObey .attached outer ss →
    (c.tailorStmts load around ss).Yields ns out → Accounts c.variant.other p outer ss ns out
  | [], _, h => by
    obtain ⟨rfl, rfl⟩ := Traced.pure_yields_iff.1 h
    exact ⟨⟨fun _ => ⟨trivial, readKeep_nil p⟩, fun _ => trivial⟩, rfl⟩
  | s :: ss, ⟨hs, hss⟩, h => by
    obtain ⟨ms, first, ks, rest, hfirst, hrest, rfl, rfl⟩ := Traced.bind_bind_pure_yields_iff.1 h
    exact (accounts_tailor hl s hs hfirst).cons (accounts_tailorStmts hl ss hss hrest)
termination_by structural ss => ss

theorem accounts_tailorHandlers (hl : Loader.Exact p load) {around : Surroundings} {ns : List Note}
    {out : List Handler} : (hs : List Handler) → handlersObey .attached hs →
    (c.tailorHandlers load around hs).Yields ns out →
    (handlersObey untidy out ↔ handlersKeep c.variant.other hs ∧ ReadKeep p ns) ∧ out.isEmpty = hs.isEmpty
  | [], _, h => by
    obtain ⟨rfl, rfl⟩ := Traced.pure_yields_iff.1 h
    exact ⟨⟨fun _ => ⟨trivial, readKeep_nil p⟩, fun _ => trivial⟩, rfl⟩
  | .comment k :: hs, ⟨_, hhs⟩, h => by
    obtain ⟨rest, hrest, rfl⟩ := Traced.bind_pure_yields_iff.1 h
    have hi := (accounts_tailorHandlers hl hs hhs hrest).1
    exact ⟨⟨fun ho => hi.1 ho.2, fun hk => ⟨trivial, hi.2 hk⟩⟩, rfl⟩
  | .handler span type name body :: hs, ⟨⟨_, hb⟩, hhs⟩, h => by
    obtain ⟨ms, body', ks, rest, hbody, hrest, rfl, rfl⟩ := Traced.bind_bind_pure_yields_iff.1 h
    obtain ⟨hbi, -⟩ := accounts_tailorStmts hl body hb hbody
    obtain ⟨hhi, -⟩ := accounts_tailorHandlers hl hs hhs hrest
    refine ⟨?_, rfl⟩
    simp only [handlersObey, handlersKeep, hbi, hhi, readKeep_append]
    constructor
    · rintro ⟨⟨-, hkb, hrb⟩, hkh, hrh⟩
      exact ⟨⟨hkb, hkh⟩, hrb, hrh⟩
    · rintro ⟨⟨hkb, hkh⟩, hrb, hrh⟩
      exact ⟨⟨untidy_body .., hkb, hrb⟩, hkh, hrh⟩
termination_by structural hs => hs

theorem accounts_tailorCases (hl : Loader.Exact p load) {around : Surroundings} {ns : List Note}
    {out : List Case} : (cs : List Case) → casesObey .attached cs →
    (c.tailorCases load around cs).Yields ns out →
    (casesObey untidy out ↔ casesKeep c.variant.other cs ∧ ReadKeep p ns)
  | [], _, h => by
    obtain ⟨rfl, rfl⟩ := Traced.pure_yields_iff.1 h
    exact ⟨fun _ => ⟨trivial, readKeep_nil p⟩, fun _ => trivial⟩
  | .comment k :: cs, ⟨_, hcs⟩, h => by
    obtain ⟨rest, hrest, rfl⟩ := Traced.bind_pure_yields_iff.1 h
    have hi := accounts_tailorCases hl cs hcs hrest
    exact ⟨fun ho => hi.1 ho.2, fun hk => ⟨trivial, hi.2 hk⟩⟩
  | .case lines pattern guard body :: cs, ⟨⟨_, hb⟩, hcs⟩, h => by
    obtain ⟨ms, body', ks, rest, hbody, hrest, rfl, rfl⟩ := Traced.bind_bind_pure_yields_iff.1 h
    obtain ⟨hbi, -⟩ := accounts_tailorStmts hl body hb hbody
    have hci := accounts_tailorCases hl cs hcs hrest
    simp only [casesObey, casesKeep, hbi, hci, readKeep_append]
    constructor
    · rintro ⟨⟨-, hkb, hrb⟩, hkc, hrc⟩
      exact ⟨⟨hkb, hkc⟩, hrb, hrc⟩
    · rintro ⟨⟨hkb, hkc⟩, hrb, hrc⟩
      exact ⟨⟨untidy_body .., hkb, hrb⟩, hkc, hrc⟩
termination_by structural cs => cs

end

/-- The file at the path keeps what it needs, if it can be read. -/
def FileKeeps (v : Variant) (lib : Option Library) (path : FilePath) : Prop :=
  ∀ l ∈ lib, ∀ name body, Library.load l.store path name = .ok body → stmtsKeep v body

/-- The name of a module only matters to a complaint about its file. -/
theorem load_of_load {store : Store} {path : FilePath} {name : String} {body : List Stmt}
    (h : Library.load store path name = .ok body) (name' : String) : Library.load store path name' = .ok body := by
  unfold Library.load at h ⊢
  split at h
  · cases h
  · exact h

/-- What a file gives is the same whatever it is read for. -/
theorem forall_loaded_iff {q : List Stmt → Prop} {lib : Library} {path : FilePath} {name : String} {body : List Stmt}
    (h : Library.load lib.store path name = .ok body) :
    (∀ l ∈ some lib, ∀ name body, Library.load l.store path name = .ok body → q body) ↔ q body := by
  constructor
  · intro hq
    exact hq lib rfl name body h
  · intro hq l hl name' body' hload
    cases hl
    rw [load_of_load h name'] at hload
    cases hload
    exact hq

theorem fileKeeps_iff {lib : Library} {path : FilePath} {name : String} {body : List Stmt}
    (h : Library.load lib.store path name = .ok body) : FileKeeps v (some lib) path ↔ stmtsKeep v body :=
  forall_loaded_iff h

/-- However deep files are read in files, all of them are accounted for. -/
theorem exact_fromLibrary (c : Conversion) (lib : Library) (depth : Nat) :
    Loader.Exact (FileKeeps c.variant.other (some lib)) (c.fromLibrary lib depth) := by
  induction depth with
  | zero =>
    intro around name explicit line ns body h
    exact absurd h (Traced.not_fail_yields _)
  | succ depth ih =>
    intro around name explicit line ns body h
    obtain ⟨path, chain, loaded, ks, hload, htailor, rfl⟩ := exists_loaded_of_fromLibrary h
    rw [(accounts_tailorStmts ih loaded (Library.load_obeys hload) htailor).1, readKeep_resolved, fileKeeps_iff hload]

theorem exact_loader (c : Conversion) (lib : Option Library) :
    Loader.Exact (FileKeeps c.variant.other lib) (c.loader lib) := by
  cases lib with
  | none =>
    intro around name explicit line ns body h
    exact absurd h (Traced.not_fail_yields _)
  | some lib => exact exact_fromLibrary c lib (maxDepth lib)

/-- A conversion gives a tree without empty clauses exactly if, in the tree and in every file that is read for it, each
clause with a comment keeps a statement. -/
theorem convert_valid_iff (c : Conversion) (lib : Option Library) (origin : Option FilePath) (file source : String)
    (t t' : Tree) (hread : readSource file source = .ok t.body) (h : (c.convert lib origin t).result = .ok t') :
    t'.Obeys .valid ↔
      stmtsKeep c.variant.other t.body ∧
        ∀ names path, Note.resolved names path ∈ (c.convert lib origin t).notes →
          FileKeeps c.variant.other lib path := by
  obtain ⟨around, body, hbody, rfl⟩ := exists_tailored_of_convert (Traced.yields_of_result h)
  have hstmts := (accounts_tailorStmts (exact_loader c lib) t.body (readSource_obeys hread) hbody).1
  rw [Tree.finalize_obeys_iff coarse_valid (fun _ _ => trivial) (fun _ => trivial)]
  refine Iff.trans ?_ hstmts
  cases t with
  | file ss => exact ⟨fun ho => ho.2, fun ho => ⟨trivial, ho⟩⟩
  | module_ info name ss => exact ⟨fun ho => ho.2, fun ho => ⟨untidy_body .., ho⟩⟩

def noteInElse : String := "if a:\n pass\nelse:\n # b\n # amphi: blocking\n pass\n"

def noteInElseBody : List Stmt :=
  [.branch ⟨⟨some 1, some 0, some 6, some 5⟩, []⟩ (.if_ (.name "a" .load))
    [.pass ⟨some 2, some 1, some 2, some 5⟩]
    [.comment ⟨"# b", false, ⟨some 4, some 1, some 4, some 4⟩⟩,
     .simple ⟨⟨some 6, some 1, some 6, some 5⟩, [⟨"amphi", "blocking", 5⟩]⟩ .pass]]

/-- The `else` is still written, with nothing but a comment in it. -/
def noteInElseLeft : List Stmt :=
  [.branch ⟨⟨some 1, some 0, some 6, some 5⟩, []⟩ (.if_ (.name "a" .load))
    [.pass ⟨some 2, some 1, some 2, some 5⟩]
    [.comment ⟨"# b", false, ⟨some 4, some 1, some 4, some 4⟩⟩]]

/-- The text before its comments are put in. -/
def noteInElseParsed : List Stmt :=
  [.branch ⟨⟨some 1, some 0, some 6, some 5⟩, []⟩ (.if_ (.name "a" .load))
    [.pass ⟨some 2, some 1, some 2, some 5⟩] [.pass ⟨some 6, some 1, some 6, some 5⟩]]

def noteInElseRemarks : List Comment :=
  [⟨"# b", false, ⟨some 4, some 1, some 4, some 4⟩⟩, ⟨"# amphi: blocking", false, ⟨some 5, some 1, some 5, some 18⟩⟩]

/-- The text before its directive takes effect. -/
def noteInElseRead : List Stmt :=
  [.branch ⟨⟨some 1, some 0, some 6, some 5⟩, []⟩ (.if_ (.name "a" .load))
    [.pass ⟨some 2, some 1, some 2, some 5⟩]
    (noteInElseRemarks.map .comment ++ [.pass ⟨some 6, some 1, some 6, some 5⟩])]

set_option maxRecDepth 4096 in
theorem readSource_noteInElse : readSource "a.py" noteInElse = .ok noteInElseBody := by
  have hparse : Grammar.parse noteInElse.toList = some noteInElseParsed := by decide +kernel
  have hscan : Comments.scan noteInElse.toList = .ok noteInElseRemarks := by decide +kernel
  have hattach : Comments.attach noteInElse.toList noteInElseRemarks noteInElseParsed = .ok noteInElseRead := by cbv
  exact readSource_of_readAnnotated (readAnnotated_of_parse _ (by decide) hparse hscan hattach) (by decide +kernel)

theorem convert_noteInElse :
    ((⟨.asynchronous, "a", none⟩ : Conversion).convert none none (.file noteInElseBody)).result =
      .ok (.file noteInElseLeft) := rfl

theorem convert_valid_iff_noteInElse :
    readSource "a.py" noteInElse = .ok (Tree.file noteInElseBody).body ∧
    ((⟨.asynchronous, "a", none⟩ : Conversion).convert none none (.file noteInElseBody)).result =
      .ok (.file noteInElseLeft) ∧
    ¬ (Tree.file noteInElseLeft).Obeys .valid := by
  refine ⟨readSource_noteInElse, convert_noteInElse, fun hvalid => ?_⟩
  obtain ⟨hkeep, -⟩ := (convert_valid_iff ⟨.asynchronous, "a", none⟩ none none "a.py" noteInElse
    (.file noteInElseBody) (.file noteInElseLeft) readSource_noteInElse convert_noteInElse).1 hvalid
  obtain ⟨hbranch, -⟩ := hkeep
  obtain ⟨-, helse, -⟩ := hbranch rfl
  exact absurd (helse rfl) (by decide)

/-- Converted trees may have clauses without a statement. -/
theorem exists_convert_not_valid :
    ¬ ∀ (c : Conversion) (lib : Option Library) (origin : Option FilePath) (file source : String) (t t' : Tree),
      readSource file source = .ok t.body → (c.convert lib origin t).result = .ok t' → t'.Obeys .valid := by
  intro h
  have hvalid : (Tree.file noteInElseLeft).Obeys .valid :=
    h ⟨.asynchronous, "a", none⟩ none none "a.py" noteInElse (.file noteInElseBody) (.file noteInElseLeft)
      readSource_noteInElse convert_noteInElse
  obtain ⟨-, ⟨-, -, helse, -⟩, -⟩ := hvalid
  exact absurd (helse (by simp)) (by decide)

end Conversion

end TwinModule
