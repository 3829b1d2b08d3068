import TwinModule.Conversion
import TwinModule.Proofs.Tree.Rule
/-!
What tailoring does to a single statement: which tags stay, what is left of a statement for the other variant, and
what a sequence of steps gives.
-/
set_option autoImplicit false

namespace TwinModule

namespace Traced

variable {α β : Type} {x : Traced α} {f : α → Traced β} {a : α} {b : β} {ns : List Note}

def Yields (x : Traced α) (ns : List Note) (a : α) : Prop := x = ⟨ns, .ok a⟩

theorem yields_of_result (h : x.result = .ok a) : x.Yields x.notes a := by
  cases x
  cases h
  rfl

theorem Yields.result (h : x.Yields ns a) : x.result = .ok a := by
  rw [h]

theorem Yields.notes (h : x.Yields ns a) : x.notes = ns := by
  rw [h]

theorem pure_yields_iff {a' : α} : (pure a : Traced α).Yields ns a' ↔ ns = [] ∧ a' = a := by
  constructor
  · intro h
    cases h
    exact ⟨rfl, rfl⟩
  · rintro ⟨rfl, rfl⟩
    rfl

theorem not_fail_yields (e : Failure) : ¬ (fail e : Traced α).Yields ns a := by
  intro h
  cases h

theorem ofExcept_yields_iff {r : Except Failure α} : (ofExcept r).Yields ns a ↔ ns = [] ∧ r = .ok a := by
  constructor
  · intro h
    cases h
    exact ⟨rfl, rfl⟩
  · rintro ⟨rfl, rfl⟩
    rfl

theorem note_yields_iff {n : Note} {u : Unit} : (note n).Yields ns u ↔ ns = [n] := by
  constructor
  · intro h
    cases h
    rfl
  · rintro rfl
    rfl

/-- A sequence yields something if its first part does and then the rest. The notes come one after the other. -/
theorem bind_yields_iff :
    (x >>= f).Yields ns b ↔ ∃ ms a, x.Yields ms a ∧ ∃ ks, (f a).Yields ks b ∧ ns = ms ++ ks := by
  obtain ⟨ms, r⟩ := x
  cases r with
  | error e =>
    constructor
    · intro h
      cases h
    · rintro ⟨ms, a, h, -⟩
      cases h
  | ok a =>
    constructor
    · intro h
      rw [bind_ok] at h
      cases h' : f a with
      | mk ks r =>
        rw [h'] at h
        cases h
        exact ⟨ms, a, rfl, ks, h', rfl⟩
    · rintro ⟨ms', a', h, ks, hf, rfl⟩
      cases h
      rw [bind_ok, hf]
      rfl

theorem bind_pure_yields_iff {g : α → β} : (x >>= fun a => pure (g a)).Yields ns b ↔ ∃ a, x.Yields ns a ∧ b = g a := by
  rw [bind_yields_iff]
  constructor
  · rintro ⟨ms, a, h, ks, hg, rfl⟩
    obtain ⟨rfl, rfl⟩ := pure_yields_iff.1 hg
    rw [List.append_nil]
    exact ⟨a, h, rfl⟩
  · rintro ⟨a, h, rfl⟩
    exact ⟨ns, a, h, [], rfl, (List.append_nil ns).symm⟩

theorem bind_bind_pure_yields_iff {γ : Type} {y : Traced β} {g : α → β → γ} {d : γ} :
    (x >>= fun a => y >>= fun b => pure (g a b)).Yields ns d ↔
      ∃ ms a ks b, x.Yields ms a ∧ y.Yields ks b ∧ ns = ms ++ ks ∧ d = g a b := by
  constructor
  · intro h
    obtain ⟨ms, a, ha, ks, hrest, hn⟩ := bind_yields_iff.1 h
    obtain ⟨b, hb, hd⟩ := bind_pure_yields_iff.1 hrest
    exact ⟨ms, a, ks, b, ha, hb, hn, hd⟩
  · rintro ⟨ms, a, ks, b, ha, hb, hn, hd⟩
    exact bind_yields_iff.2 ⟨ms, a, ha, ks, bind_pure_yields_iff.2 ⟨b, hb, hd⟩, hn⟩

theorem bind_ofExcept_yields_iff {r : Except Failure α} :
    (ofExcept r >>= f).Yields ns b ↔ ∃ a, r = .ok a ∧ (f a).Yields ns b := by
  rw [bind_yields_iff]
  constructor
  · rintro ⟨ms, a, h, ks, hf, rfl⟩
    obtain ⟨rfl, rfl⟩ := ofExcept_yields_iff.1 h
    exact ⟨a, rfl, hf⟩
  · rintro ⟨a, rfl, hf⟩
    exact ⟨[], a, rfl, ns, hf, rfl⟩

theorem bind_note_yields_iff {n : Note} {g : Unit → Traced β} :
    (note n >>= g).Yields ns b ↔ ∃ ks, (g ()).Yields ks b ∧ ns = n :: ks := by
  rw [bind_yields_iff]
  constructor
  · rintro ⟨ms, u, h, ks, hg, rfl⟩
    obtain rfl := note_yields_iff.1 h
    exact ⟨ks, hg, rfl⟩
  · rintro ⟨ks, hg, rfl⟩
    exact ⟨[n], (), rfl, ks, hg, rfl⟩

theorem mapFailure_yields_iff {g : Failure → Failure} : (x.mapFailure g).Yields ns a ↔ x.Yields ns a := by
  obtain ⟨ms, r⟩ := x
  cases r with
  | error e =>
    constructor
    · intro h
      cases h
    · intro h
      cases h
  | ok b =>
    constructor
    · intro h
      cases h
      rfl
    · intro h
      cases h
      rfl

end Traced

namespace Tag

theorem not_names_both {v : Variant} {t : Tag} (h : t.names v = true) : t.names v.other = false := by
  simp only [names, Bool.and_eq_true, beq_iff_eq] at h
  cases hn : t.names v.other with
  | false => rfl
  | true =>
    simp only [names, Bool.and_eq_true, beq_iff_eq] at hn
    exact absurd (Variant.name_inj (hn.2.symm.trans h.2)) v.other_ne

theorem mem_take {family : String} {t : Tag} {ts : List Tag} (h : t ∈ (take family ts).2) : t ∈ ts := by
  induction ts with
  | nil => simp [take] at h
  | cons u ts ih =>
    by_cases hu : u.family = family
    · rw [take, if_pos hu] at h
      exact List.mem_cons_of_mem u h
    · rw [take, if_neg hu] at h
      rcases List.mem_cons.1 h with rfl | h
      · exact List.mem_cons_self ..
      · exact List.mem_cons_of_mem u (ih h)

theorem take_eq_self {family : String} {ts : List Tag} (h : ∀ t ∈ ts, t.family ≠ family) :
    take family ts = (none, ts) := by
  induction ts with
  | nil => rfl
  | cons t ts ih =>
    rw [take, if_neg (h t (List.mem_cons_self ..)), ih fun u hu => h u (List.mem_cons_of_mem t hu)]

/-- Taking a tag of a family does not mind tags of other families. -/
theorem take_filter {family : String} {p : Tag → Bool} {ts : List Tag} (h : ∀ t ∈ ts, t.family = family → p t = true) :
    (take family (ts.filter p)).1 = (take family ts).1 := by
  induction ts with
  | nil => rfl
  | cons t ts ih =>
    have hts := ih fun u hu => h u (List.mem_cons_of_mem t hu)
    by_cases hf : t.family = family
    · rw [List.filter_cons_of_pos (h t (List.mem_cons_self ..) hf)]
      simp [take, hf]
    · cases hp : p t with
      | true => simp [take, hf, hp, hts]
      | false => simp [take, hf, hp, hts]

end Tag

/-- Whether the statement is one for the variant. -/
def Stmt.isFor (v : Variant) (s : Stmt) : Bool := s.tags.any (Tag.names v)

namespace Conversion

variable {c : Conversion} {load : Loader} {around : Surroundings}

/-- A statement stays unless it is for the other variant, and then loses the tags for its own. -/
theorem keptTags_eq (c : Conversion) (tags : List Tag) :
    c.keptTags tags = if tags.any (Tag.names c.variant.other) then none
      else some (tags.filter fun t => !t.names c.variant) := by
  have hany : (tags.filter fun t => !t.names c.variant).any (Tag.names c.variant.other) =
      tags.any (Tag.names c.variant.other) := by
    induction tags with
    | nil => rfl
    | cons t ts ih =>
      cases ht : t.names c.variant with
      | false => simp [ht, ih]
      | true => simp [ht, ih, Tag.not_names_both ht]
  simp only [← hany]
  rfl

theorem keptTags_of_other {tags : List Tag} (h : tags.any (Tag.names c.variant.other) = true) :
    c.keptTags tags = none := by
  rw [keptTags_eq, if_pos h]

theorem keptTags_of_own {tags : List Tag} (h : tags.any (Tag.names c.variant.other) = false) :
    c.keptTags tags = some (tags.filter fun t => !t.names c.variant) := by
  rw [keptTags_eq, if_neg (by simp [h])]

theorem role_retarget (c : Conversion) (what : Simple) : (c.retarget what).role = what.role := by
  cases what with
  | importFrom module names level =>
    simp only [retarget]
    repeat' split
    all_goals rfl
  | _ => rfl

theorem leave_result (c : Conversion) (s : Stmt) :
    (c.leave s).result = .ok (if s.isDeclaration then [] else [.simple ⟨s.span.forChild, []⟩ .erased]) := rfl

/-- A statement without the tags for the variant. -/
def untagged (c : Conversion) (info : Info) : Info := { info with tags := info.tags.filter fun t => !t.names c.variant }

theorem take_source_untagged (c : Conversion) (info : Info) :
    (Tag.take Tag.sourceFamily (c.untagged info).tags).1 = (Tag.take Tag.sourceFamily info.tags).1 := by
  refine Tag.take_filter fun t _ hf => ?_
  cases hn : t.names c.variant with
  | false => rfl
  | true =>
    rw [Tag.family_of_names hn] at hf
    exact absurd hf (by decide)

theorem tailor_of_other {s : Stmt} (h : s.isFor c.variant.other = true) : c.tailor load around s = c.leave s := by
  cases s with
  | comment k => cases h
  | simple info what =>
    have hk : c.keptTags info.tags = none := keptTags_of_other h
    simp only [tailor, hk]
  | block info head body =>
    have hk : c.keptTags info.tags = none := keptTags_of_other h
    cases head <;> simp only [tailor, hk]
  | branch info head body orelse =>
    have hk : c.keptTags info.tags = none := keptTags_of_other h
    simp only [tailor, hk]
  | attempt info isGroup body handlers orelse finalbody =>
    have hk : c.keptTags info.tags = none := keptTags_of_other h
    simp only [tailor, hk]
  | select info subject cases =>
    have hk : c.keptTags info.tags = none := keptTags_of_other h
    simp only [tailor, hk]

section

variable {info : Info} (hf : info.tags.any (Tag.names c.variant.other) = false)
include hf

theorem tailor_simple (what : Simple) :
    c.tailor load around (.simple info what) = pure [.simple (c.untagged info) (c.retarget what)] := by
  simp only [tailor, keptTags_of_own hf, untagged]

/-- Statements with a block of their own are all treated alike, modules excepted. -/
theorem tailor_block {head : BlockHead} (hm : head.role = .ordinary) (body : List Stmt) :
    c.tailor load around (.block info head body) =
      c.tailorStmts load around body >>= fun body => pure [.block (c.untagged info) head body] := by
  cases head with
  | module_ name => cases hm
  | _ => simp only [tailor, keptTags_of_own hf, untagged]

theorem tailor_branch (head : BranchHead) (body orelse : List Stmt) :
    c.tailor load around (.branch info head body orelse) = do
      let body ← c.tailorStmts load around body
      let orelse ← c.tailorStmts load around orelse
      return [.branch (c.untagged info) head body orelse] := by
  simp only [tailor, keptTags_of_own hf, untagged]

theorem tailor_attempt (isGroup : Bool) (body : List Stmt) (handlers : List Handler) (orelse finalbody : List Stmt) :
    c.tailor load around (.attempt info isGroup body handlers orelse finalbody) = do
      let body ← c.tailorStmts load around body
      let handlers ← c.tailorHandlers load around handlers
      let orelse ← c.tailorStmts load around orelse
      let finalbody ← c.tailorStmts load around finalbody
      return [.attempt (c.untagged info) isGroup body handlers orelse finalbody] := by
  simp only [tailor, keptTags_of_own hf, untagged]

theorem tailor_select (subject : Expr) (cases : List Case) :
    c.tailor load around (.select info subject cases) =
      c.tailorCases load around cases >>= fun cases => pure [.select (c.untagged info) subject cases] := by
  simp only [tailor, keptTags_of_own hf, untagged]

theorem tailor_inline {name : String} {body : List Stmt} (hbody : isInline body = true)
    (hsource : ∀ t ∈ info.tags, ¬ t.IsSource) :
    c.tailor load around (.block info (.module_ name) body) =
      c.tailorStmts load { around with modulePath := around.modulePath ++ [name] } body >>= fun body =>
        pure [.block (c.untagged info) (.module_ name) body] := by
  have hkept : Tag.take Tag.sourceFamily (info.tags.filter fun t => !t.names c.variant) =
      (none, info.tags.filter fun t => !t.names c.variant) :=
    Tag.take_eq_self fun t ht => hsource t (List.mem_filter.1 ht).1
  simp only [tailor, keptTags_of_own hf, hkept, hbody, if_true, untagged]

/-- The body of a module is its own or that of a file. The tags for the variant go, and the first one for a source. -/
theorem exists_tailored_module {name : String} {body out : List Stmt} {ns : List Note}
    (h : (c.tailor load around (.block info (.module_ name) body)).Yields ns out) :
    ∃ explicit body',
      out = [.block { info with tags := (Tag.take Tag.sourceFamily (c.untagged info).tags).2 } (.module_ name) body'] ∧
      ((isInline body = true ∧
          (c.tailorStmts load { around with modulePath := around.modulePath ++ [name] } body).Yields ns body') ∨
        (isInline body = false ∧
          (load { around with modulePath := around.modulePath ++ [name] } name explicit info.span.line).Yields ns
            body')) := by
  simp only [tailor, keptTags_of_own hf] at h
  split at h
  · rename_i hinline
    split at h
    · exact absurd h (Traced.not_fail_yields _)
    · obtain ⟨body', hbody, rfl⟩ := Traced.bind_pure_yields_iff.1 h
      exact ⟨none, body', rfl, .inl ⟨hinline, hbody⟩⟩
  · rename_i hinline
    obtain ⟨body', hbody, rfl⟩ := Traced.bind_pure_yields_iff.1 h
    exact ⟨_, body', rfl, .inr ⟨eq_false_of_ne_true hinline, hbody⟩⟩

theorem exists_tailored_attempt {isGroup : Bool} {body orelse finalbody out : List Stmt} {handlers : List Handler}
    {ns : List Note} (h : (c.tailor load around (.attempt info isGroup body handlers orelse finalbody)).Yields ns out) :
    ∃ mb body' mh handlers' mo orelse' mf finalbody', (c.tailorStmts load around body).Yields mb body' ∧
      (c.tailorHandlers load around handlers).Yields mh handlers' ∧
      (c.tailorStmts load around orelse).Yields mo orelse' ∧
      (c.tailorStmts load around finalbody).Yields mf finalbody' ∧ ns = mb ++ (mh ++ (mo ++ mf)) ∧
      out = [.attempt (c.untagged info) isGroup body' handlers' orelse' finalbody'] := by
  rw [tailor_attempt hf] at h
  obtain ⟨mb, body', hbody, ms, hrest, rfl⟩ := Traced.bind_yields_iff.1 h
  obtain ⟨mh, handlers', hhandlers, ks, hrest', rfl⟩ := Traced.bind_yields_iff.1 hrest
  obtain ⟨mo, orelse', mf, finalbody', horelse, hfinal, rfl, rfl⟩ := Traced.bind_bind_pure_yields_iff.1 hrest'
  exact ⟨mb, body', mh, handlers', mo, orelse', mf, finalbody', hbody, hhandlers, horelse, hfinal, rfl, rfl⟩

end

theorem fromLibrary_missing {lib : Library} {depth : Nat} {name : String} {explicit : Option String}
    {line : Option Nat} {f : Failure} (h : lib.locate around.modulePath explicit = .error f) :
    c.fromLibrary lib (depth + 1) around name explicit line = Traced.fail (missedAt around line f) := by
  simp only [fromLibrary, h]
  rfl

theorem fromLibrary_located {lib : Library} {depth : Nat} {name : String} {explicit : Option String}
    {line : Option Nat} {path : FilePath} (h : lib.locate around.modulePath explicit = .ok path) :
    c.fromLibrary lib (depth + 1) around name explicit line = (do
      Traced.note (.resolved around.modulePath path)
      let chain ← Traced.ofExcept (Library.enter lib.store around.chain path name)
      let body ← Traced.ofExcept (Library.load lib.store path name)
      c.tailorStmts (c.fromLibrary lib depth) ⟨around.modulePath, some path.text, chain⟩ body) := by
  simp only [fromLibrary, h]
  rfl

/-- A module in a file of a library is found, read and tailored. -/
theorem fromLibrary_yields_iff {lib : Library} {depth : Nat} {name : String} {explicit : Option String}
    {line : Option Nat} {ns : List Note} {body : List Stmt} :
    (c.fromLibrary lib (depth + 1) around name explicit line).Yields ns body ↔
      ∃ path chain loaded ks, lib.locate around.modulePath explicit = .ok path ∧
        Library.enter lib.store around.chain path name = .ok chain ∧ Library.load lib.store path name = .ok loaded ∧
        (c.tailorStmts (c.fromLibrary lib depth) ⟨around.modulePath, some path.text, chain⟩ loaded).Yields ks body ∧
        ns = .resolved around.modulePath path :: ks := by
  have hlocate : ∀ (r : Except Failure FilePath) (f : Failure → Failure) (path : FilePath),
      r.mapError f = .ok path ↔ r = .ok path := by
    intro r f path
    cases r with
    | error e => exact ⟨nofun, nofun⟩
    | ok found => exact Iff.rfl
  simp only [fromLibrary, Traced.bind_ofExcept_yields_iff, Traced.bind_note_yields_iff, hlocate]
  constructor
  · rintro ⟨path, hpath, ks, ⟨chain, hchain, loaded, hload, h⟩, rfl⟩
    exact ⟨path, chain, loaded, ks, hpath, hchain, hload, h, rfl⟩
  · rintro ⟨path, chain, loaded, ks, hpath, hchain, hload, h, rfl⟩
    exact ⟨path, hpath, ks, ⟨chain, hchain, loaded, hload, h⟩, rfl⟩

theorem exists_loaded_of_fromLibrary {lib : Library} {depth : Nat} {name : String} {explicit : Option String}
    {line : Option Nat} {ns : List Note} {body : List Stmt}
    (h : (c.fromLibrary lib (depth + 1) around name explicit line).Yields ns body) :
    ∃ path chain loaded ks, Library.load lib.store path name = .ok loaded ∧
      (c.tailorStmts (c.fromLibrary lib depth) ⟨around.modulePath, some path.text, chain⟩ loaded).Yields ks body ∧
      ns = .resolved around.modulePath path :: ks := by
  obtain ⟨path, chain, loaded, ks, -, -, hload, hbody, rfl⟩ := fromLibrary_yields_iff.1 h
  exact ⟨path, chain, loaded, ks, hload, hbody, rfl⟩

/-- A conversion tailors the body of a tree and finalizes what that gives. -/
theorem convert_yields_iff {lib : Option Library} {origin : Option FilePath} {t t' : Tree} {ns : List Note} :
    (c.convert lib origin t).Yields ns t' ↔
      ∃ chain body, c.firstChain lib origin t = .ok chain ∧
        (c.tailorStmts (c.loader lib) ⟨[c.rootName], origin.map FilePath.text, chain⟩ t.body).Yields ns body ∧
        t' = (t.withBody body).finalize := by
  simp only [convert, Traced.mapFailure_yields_iff, Traced.bind_ofExcept_yields_iff, Traced.bind_pure_yields_iff]
  constructor
  · rintro ⟨chain, hchain, body, hbody, rfl⟩
    exact ⟨chain, body, hchain, hbody, rfl⟩
  · rintro ⟨chain, body, hchain, hbody, rfl⟩
    exact ⟨chain, hchain, body, hbody, rfl⟩

/-- The body that a conversion tidies. -/
theorem exists_tailored_of_convert {lib : Option Library} {origin : Option FilePath} {t t' : Tree} {ns : List Note}
    (h : (c.convert lib origin t).Yields ns t') :
    ∃ around body, (c.tailorStmts (c.loader lib) around t.body).Yields ns body ∧ t' = (t.withBody body).finalize := by
  obtain ⟨chain, body, -, hbody, ht⟩ := convert_yields_iff.1 h
  exact ⟨_, body, hbody, ht⟩

theorem convert_result_of_tailorStmts {lib : Option Library} {origin : Option FilePath} {t : Tree} {chain : Chain}
    {out : List Stmt} (hchain : c.firstChain lib origin t = .ok chain)
    (h : (c.tailorStmts (c.loader lib) ⟨[c.rootName], origin.map FilePath.text, chain⟩ t.body).result = .ok out) :
    (c.convert lib origin t).result = .ok (t.withBody out).finalize :=
  (convert_yields_iff.2 ⟨chain, out, hchain, Traced.yields_of_result h, rfl⟩).result

end Conversion

end TwinModule
