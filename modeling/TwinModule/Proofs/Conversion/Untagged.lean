import TwinModule.Proofs.Conversion.Projection
import TwinModule.Proofs.Conversion.Validity
/-!
When a converted tree has no tags. Of the tags that name a source a conversion takes off the first one, so that a
module with more of them keeps the others; every other tag goes.
-/
set_option autoImplicit false

namespace TwinModule

def Tree.tags : Tree → List Tag
  | .file _ => []
  | .module_ info _ _ => info.tags

def Stmt.Untagged (s : Stmt) : Prop := s.tags = []

def Tree.Untagged (t : Tree) : Prop := t.tags = [] ∧ stmtsEvery Stmt.Untagged t.body

/-- The tags that name a source. -/
def Tag.sources (ts : List Tag) : List Tag := ts.filter fun t => t.family == sourceFamily

mutual

/-- Whether the modules that are not for a variant, at every depth, name at most one source each. -/
def Stmt.OneSource (v : Variant) : Stmt → Prop
  | .block info (.module_ _) body =>
    info.tags.any (Tag.names v) = false → (Tag.sources info.tags).length ≤ 1 ∧ stmtsOneSource v body
  | _ => True

def stmtsOneSource (v : Variant) : List Stmt → Prop
  | [] => True
  | s :: ss => s.OneSource v ∧ stmtsOneSource v ss

end

theorem stmtsOneSource_of_not_inline {v : Variant} {ss : List Stmt} (h : isInline ss = false) : stmtsOneSource v ss := by
  induction ss with
  | nil => trivial
  | cons s ss ih =>
    rw [isInline, List.any_cons, Bool.or_eq_false_iff] at h
    cases s with
    | comment c => exact ⟨trivial, ih h.2⟩
    | _ => cases h.1

theorem stmtsEvery_iff {p : Stmt → Prop} {ss : List Stmt} : stmtsEvery p ss ↔ ∀ s ∈ ss, s.Every p := by
  induction ss with
  | nil => simp [stmtsEvery]
  | cons s ss ih => simp [stmtsEvery, ih]

@[simp] theorem stmtsEvery_append (p : Stmt → Prop) (as bs : List Stmt) :
    stmtsEvery p (as ++ bs) ↔ stmtsEvery p as ∧ stmtsEvery p bs := by
  simp only [stmtsEvery_iff, List.forall_mem_append]

/-- What a block is filled with has no tags. -/
theorem untagged_orPass (span : Span) (ss : List Stmt) :
    stmtsEvery Stmt.Untagged (orPass span ss) ↔ stmtsEvery Stmt.Untagged ss := by
  unfold orPass
  split
  · rfl
  · have hpass : stmtsEvery Stmt.Untagged [.pass span.forChild] := ⟨rfl, trivial⟩
    simp [hpass]

namespace Tag

/-- A tag names one variant or the other. -/
theorem names_of_not_other {v w : Variant} {t : Tag} (h : t.names v = true) (hw : t.names w.other = false) :
    t.names w = true := by
  cases v <;> cases w <;> first | exact h | exact absurd (h.symm.trans hw) Bool.true_eq_false.mp

/-- Only the first of several tags of a family is taken. -/
theorem take_eq_nil_iff {family : String} {ts : List Tag} (h : ∀ t ∈ ts, t.family = family) :
    (take family ts).2 = [] ↔ ts.length ≤ 1 := by
  cases ts with
  | nil => simp [take]
  | cons t ts => simp [take, h t (List.mem_cons_self ..)]

end Tag

theorem tidyStmts_singleton {s : Stmt} (he : s.isErased = false) : tidyStmts [s] = [s.tidy] := by
  simp [tidyStmts_eq, he]

namespace Conversion

variable {c : Conversion} {load : Loader} {around : Surroundings} {ns : List Note} {p : FilePath → Prop}

/-- Of the tags for variants and sources, those for sources stay. -/
theorem untagged_sources {info : Info} (hv : ∀ t ∈ info.tags, t.IsVariant ∨ t.IsSource)
    (hf : info.tags.any (Tag.names c.variant.other) = false) : (c.untagged info).tags = Tag.sources info.tags := by
  refine List.filter_congr fun t ht => ?_
  have hother : t.names c.variant.other = false := by simpa using List.any_eq_false.1 hf t ht
  rcases hv t ht with ⟨v, hv⟩ | hs
  · have hown : t.names c.variant = true := Tag.names_of_not_other hv hother
    rw [hown, Tag.family_of_names hv]
    rfl
  · have hfamily : t.family = Tag.sourceFamily := hs
    have hown : t.names c.variant = false := Bool.eq_false_iff.2 fun hn => by
      rw [Tag.family_of_names hn] at hfamily
      exact absurd hfamily (by decide)
    rw [hown, hfamily]
    rfl

/-- A statement that is no module loses all its tags. -/
theorem untagged_of_ordinary {outer : Bool} {info : Info} (hi : Rule.attached.stmt outer .ordinary info.tags)
    (hf : info.tags.any (Tag.names c.variant.other) = false) : (c.untagged info).tags = [] := by
  rw [untagged_sources (fun t ht => (hi.2.2 t ht).imp_right And.left) hf]
  refine List.filter_eq_nil_iff.2 fun t ht hs => ?_
  rcases hi.2.2 t ht with ⟨v, hv⟩ | ⟨-, hm⟩
  · rw [Tag.family_of_names hv] at hs
    exact absurd hs (by decide)
  · cases hm

/-- Nothing that was tailored has tags once it is tidied, and the files that were read are of a kind. -/
def Clear (p : FilePath → Prop) (ns : List Note) (out : List Stmt) : Prop :=
  stmtsEvery Stmt.Untagged (tidyStmts out) ∧ ReadKeep p ns

theorem Clear.append {ms : List Note} {first rest : List Stmt} (h : Clear p ms first) (h' : Clear p ns rest) :
    Clear p (ms ++ ns) (first ++ rest) := by
  rw [Clear, tidyStmts_append, stmtsEvery_append, readKeep_append]
  exact ⟨⟨h.1, h'.1⟩, h.2, h'.2⟩

/-- A statement that stays as one statement. -/
theorem clear_own {s : Stmt} (he : s.isErased = false) (h : s.tidy.Every Stmt.Untagged) (hn : ReadKeep p ns) :
    Clear p ns [s] := by
  refine ⟨?_, hn⟩
  rw [tidyStmts_singleton he]
  exact ⟨h, trivial⟩

/-- What a statement for the other variant leaves is taken out when the tree is tidied. -/
theorem clear_other {s : Stmt} {out : List Stmt} (h : (c.tailor load around s).Yields ns out)
    (hf : s.isFor c.variant.other = true) : Clear p ns out := by
  rw [tailor_of_other hf] at h
  cases h
  refine ⟨?_, fun names path hn => by cases List.mem_singleton.1 hn⟩
  split <;> trivial

mutual

theorem clear_tailor {outer : Bool} {around : Surroundings} {ns : List Note} {out : List Stmt} :
    (s : Stmt) → s.Obeys .attached outer → s.role ≠ .module_ → (c.tailor load around s).Yields ns out →
    Clear p ns out
  | .comment k, _, _, h => by
    rw [tailor_comment] at h
    obtain ⟨rfl, rfl⟩ := Traced.pure_yields_iff.1 h
    exact clear_own rfl rfl (readKeep_nil p)
  | .simple info what, hs, _, h => by
    cases hf : info.tags.any (Tag.names c.variant.other) with
    | true => exact clear_other h hf
    | false =>
      have hrole : what.role = .ordinary := by
        cases what <;> first | rfl | exact absurd rfl hs.1
      have hi : Rule.attached.stmt outer .ordinary info.tags := hrole ▸ hs
      rw [tailor_simple hf] at h
      obtain ⟨rfl, rfl⟩ := Traced.pure_yields_iff.1 h
      refine clear_own ?_ (untagged_of_ordinary hi hf) (readKeep_nil p)
      rw [Stmt.isErased_eq_false_iff]
      simp [Stmt.role, role_retarget, hrole]
  | .block info head body, ⟨hi, _, hb⟩, hm, h => by
    cases hf : info.tags.any (Tag.names c.variant.other) with
    | true => exact clear_other h hf
    | false =>
      have hrole : head.role = .ordinary := by
        cases head <;> first | rfl | exact absurd rfl hm
      rw [tailor_block hf hrole] at h
      obtain ⟨body', hbody, rfl⟩ := Traced.bind_pure_yields_iff.1 h
      rw [BlockHead.isModule_of_ordinary hrole] at hb
      obtain ⟨hbody, hn⟩ := clear_tailorStmts body hb hbody
      exact clear_own rfl ⟨untagged_of_ordinary (hrole ▸ hi) hf, (untagged_orPass ..).2 hbody⟩ hn
  | .branch info head body orelse, ⟨hi, ⟨_, hb⟩, _, ho⟩, _, h => by
    cases hf : info.tags.any (Tag.names c.variant.other) with
    | true => exact clear_other h hf
    | false =>
      rw [tailor_branch hf] at h
      obtain ⟨ms, body', ks, orelse', hbody, horelse, rfl, rfl⟩ := Traced.bind_bind_pure_yields_iff.1 h
      obtain ⟨hbody, hms⟩ := clear_tailorStmts body hb hbody
      obtain ⟨horelse, hks⟩ := clear_tailorStmts orelse ho horelse
      refine clear_own rfl ?_ (readKeep_append.2 ⟨hms, hks⟩)
      rw [tidy_branch]
      exact ⟨untagged_of_ordinary hi hf, (untagged_orPass ..).2 hbody, horelse⟩
  | .attempt info isGroup body handlers orelse finalbody, ⟨hi, ⟨_, hb⟩, hh, ⟨_, ho⟩, _, hfb⟩, _, h => by
    cases hf : info.tags.any (Tag.names c.variant.other) with
    | true => exact clear_other h hf
    | false =>
      obtain ⟨mb, body', mh, handlers', mo, orelse', mf, finalbody', hbody, hhandlers, horelse, hfinal, rfl, rfl⟩ :=
        exists_tailored_attempt hf h
      obtain ⟨hbody, hmb⟩ := clear_tailorStmts body hb hbody
      obtain ⟨hhandlers, hmh⟩ := clear_tailorHandlers handlers hh hhandlers
      obtain ⟨horelse, hmo⟩ := clear_tailorStmts orelse ho horelse
      obtain ⟨hfinal, hmf⟩ := clear_tailorStmts finalbody hfb hfinal
      refine clear_own rfl ?_ (by simp only [readKeep_append]; exact ⟨hmb, hmh, hmo, hmf⟩)
      rw [tidy_attempt]
      refine ⟨untagged_of_ordinary hi hf, (untagged_orPass ..).2 hbody, hhandlers, horelse, ?_⟩
      split
      · exact (untagged_orPass ..).2 hfinal
      · exact hfinal
  | .select info subject cases, ⟨hi, hc⟩, _, h => by
    cases hf : info.tags.any (Tag.names c.variant.other) with
    | true => exact clear_other h hf
    | false =>
      rw [tailor_select hf] at h
      obtain ⟨cases', hcases, rfl⟩ := Traced.bind_pure_yields_iff.1 h
      obtain ⟨hcases, hn⟩ := clear_tailorCases cases hc hcases
      exact clear_own rfl ⟨untagged_of_ordinary hi hf, hcases⟩ hn
termination_by structural s => s

/-- Where no modules are allowed there are none. -/
theorem clear_tailorStmts {around : Surroundings} {ns : List Note} {out : List Stmt} :
    (ss : List Stmt) → stmtsObey .attached false ss → (c.tailorStmts load around ss).Yields ns out → Clear p ns out
  | [], _, h => by
    obtain ⟨rfl, rfl⟩ := Traced.pure_yields_iff.1 h
    exact ⟨trivial, readKeep_nil p⟩
  | s :: ss, ⟨hs, hss⟩, h => by
    obtain ⟨ms, first, ks, rest, hfirst, hrest, rfl, rfl⟩ := Traced.bind_bind_pure_yields_iff.1 h
    refine (clear_tailor s hs (fun hm => ?_) hfirst).append (clear_tailorStmts ss hss hrest)
    have hreal : s.isReal = true := by
      cases s <;> first | rfl | cases hm
    exact absurd ((hs.stmt hreal).2.1 hm) Bool.false_ne_true
termination_by structural ss => ss

theorem clear_tailorHandlers {around : Surroundings} {ns : List Note} {out : List Handler} :
    (hs : List Handler) → handlersObey .attached hs → (c.tailorHandlers load around hs).Yields ns out →
    handlersEvery Stmt.Untagged (tidyHandlers out) ∧ ReadKeep p ns
  | [], _, h => by
    obtain ⟨rfl, rfl⟩ := Traced.pure_yields_iff.1 h
    exact ⟨trivial, readKeep_nil p⟩
  | .comment k :: hs, ⟨_, hhs⟩, h => by
    obtain ⟨rest, hrest, rfl⟩ := Traced.bind_pure_yields_iff.1 h
    have hclear := clear_tailorHandlers hs hhs hrest
    exact hclear
  | .handler span type name body :: hs, ⟨⟨_, hb⟩, hhs⟩, h => by
    obtain ⟨ms, body', ks, rest, hbody, hrest, rfl, rfl⟩ := Traced.bind_bind_pure_yields_iff.1 h
    obtain ⟨hbody, hms⟩ := clear_tailorStmts body hb hbody
    obtain ⟨hrest, hks⟩ := clear_tailorHandlers hs hhs hrest
    exact ⟨⟨(untagged_orPass ..).2 hbody, hrest⟩, readKeep_append.2 ⟨hms, hks⟩⟩
termination_by structural hs => hs

theorem clear_tailorCases {around : Surroundings} {ns : List Note} {out : List Case} :
    (cs : List Case) → casesObey .attached cs → (c.tailorCases load around cs).Yields ns out →
    casesEvery Stmt.Untagged (tidyCases out) ∧ ReadKeep p ns
  | [], _, h => by
    obtain ⟨rfl, rfl⟩ := Traced.pure_yields_iff.1 h
    exact ⟨trivial, readKeep_nil p⟩
  | .comment k :: cs, ⟨_, hcs⟩, h => by
    obtain ⟨rest, hrest, rfl⟩ := Traced.bind_pure_yields_iff.1 h
    have hclear := clear_tailorCases cs hcs hrest
    exact hclear
  | .case lines pattern guard body :: cs, ⟨⟨_, hb⟩, hcs⟩, h => by
    obtain ⟨ms, body', ks, rest, hbody, hrest, rfl, rfl⟩ := Traced.bind_bind_pure_yields_iff.1 h
    obtain ⟨hbody, hms⟩ := clear_tailorStmts body hb hbody
    obtain ⟨hrest, hks⟩ := clear_tailorCases cs hcs hrest
    exact ⟨⟨(untagged_orPass ..).2 hbody, hrest⟩, readKeep_append.2 ⟨hms, hks⟩⟩
termination_by structural cs => cs

end

/-- What was tailored has no tags, once it is tidied, exactly if the modules and the files that were read name at most
one source each. -/
def Clears (v : Variant) (p : FilePath → Prop) (ss : List Stmt) (ns : List Note) (out : List Stmt) : Prop :=
  stmtsEvery Stmt.Untagged (tidyStmts out) ↔ stmtsOneSource v ss ∧ ReadKeep p ns

theorem Clears.cons {v : Variant} {s : Stmt} {ss first rest : List Stmt} {ms : List Note}
    (h : Clears v p [s] ms first) (h' : Clears v p ss ns rest) : Clears v p (s :: ss) (ms ++ ns) (first ++ rest) := by
  simp only [Clears, stmtsOneSource, and_true] at h h' ⊢
  rw [tidyStmts_append, stmtsEvery_append, readKeep_append, h, h', and_and_and_comm]

theorem Clear.clears {v : Variant} {s : Stmt} {out : List Stmt} (h : Clear p ns out) (hs : s.OneSource v) :
    Clears v p [s] ns out :=
  ⟨fun _ => ⟨⟨hs, trivial⟩, h.2⟩, fun _ => h.1⟩

/-- What a loader gives has no tags if the files read for it name at most one source for each module. -/
def Loader.Clears (p : FilePath → Prop) (load : Loader) : Prop :=
  ∀ around name explicit line ns body, (load around name explicit line).Yields ns body →
    (stmtsEvery Stmt.Untagged (tidyStmts body) ↔ ReadKeep p ns)

theorem clears_tailor_module (hl : Loader.Clears p load) {info : Info} {name : String} {body out : List Stmt}
    (hi : Rule.attached.stmt true .module_ info.tags)
    (ih : ∀ (around : Surroundings) (ms : List Note) (body' : List Stmt),
      (c.tailorStmts load around body).Yields ms body' → Clears c.variant.other p body ms body')
    (h : (c.tailor load around (.block info (.module_ name) body)).Yields ns out) :
    Clears c.variant.other p [.block info (.module_ name) body] ns out := by
  cases hf : info.tags.any (Tag.names c.variant.other) with
  | true => exact (clear_other h hf).clears fun hown => absurd (hf.symm.trans hown) (by decide)
  | false =>
    obtain ⟨explicit, body', rfl, hbody⟩ := exists_tailored_module hf h
    have hone : (Tag.take Tag.sourceFamily (c.untagged info).tags).2 = [] ↔ (Tag.sources info.tags).length ≤ 1 := by
      rw [untagged_sources (fun t ht => (hi.2.2 t ht).imp_right And.left) hf]
      exact Tag.take_eq_nil_iff fun t ht => by simpa using (List.mem_filter.1 ht).2
    have hinner : stmtsEvery Stmt.Untagged (tidyStmts body') ↔
        stmtsOneSource c.variant.other body ∧ ReadKeep p ns := by
      rcases hbody with ⟨-, hbody⟩ | ⟨hinline, hbody⟩
      · exact ih _ ns body' hbody
      · -- A declared module has nothing but comments here, so that all depends on its file.
        have hempty : stmtsOneSource c.variant.other body := stmtsOneSource_of_not_inline hinline
        exact (hl _ _ _ _ _ _ hbody).trans ⟨fun hn => ⟨hempty, hn⟩, And.right⟩
    rw [Clears, tidyStmts_singleton rfl, tidy_block]
    simp only [stmtsEvery, Stmt.Every, Stmt.Untagged, Stmt.tags, untagged_orPass, stmtsOneSource, Stmt.OneSource, hone,
      hinner, hf, forall_const, and_true, and_assoc]

mutual

theorem clears_tailor (hl : Loader.Clears p load) {outer : Bool} {around : Surroundings} {ns : List Note}
    {out : List Stmt} : (s : Stmt) → s.Obeys .attached outer → (c.tailor load around s).Yields ns out →
    Clears c.variant.other p [s] ns out
  | .block info head body, hs, h => by
    cases head with
    | module_ name =>
      have hi : Rule.attached.stmt true .module_ info.tags := ⟨hs.1.1, fun _ => rfl, hs.1.2.2⟩
      exact clears_tailor_module hl hi (fun _ _ _ => clears_tailorStmts hl body hs.2.2) h
    | _ => exact (clear_tailor _ hs (by simp [Stmt.role, BlockHead.role]) h).clears trivial
  | .simple info what, hs, h =>
    (clear_tailor _ hs (by cases what <;> simp [Stmt.role, Simple.role]) h).clears trivial
  | .comment k, hs, h => (clear_tailor (.comment k) hs (by simp [Stmt.role]) h).clears trivial
  | .branch info head body orelse, hs, h =>
    (clear_tailor (.branch info head body orelse) hs (by simp [Stmt.role]) h).clears trivial
  | .attempt info isGroup body handlers orelse finalbody, hs, h =>
    (clear_tailor (.attempt info isGroup body handlers orelse finalbody) hs (by simp [Stmt.role]) h).clears trivial
  | .select info subject cases, hs, h =>
    (clear_tailor (.select info subject cases) hs (by simp [Stmt.role]) h).clears trivial
termination_by structural s => s

theorem clears_tailorStmts (hl : Loader.Clears p load) {outer : Bool} {around : Surroundings} {ns : List Note}
    {out : List Stmt} : (ss : List Stmt) → stmtsObey .attached outer ss →
    (c.tailorStmts load around ss).Yields ns out → Clears c.variant.other p ss ns out
  | [], _, h => by
    obtain ⟨rfl, rfl⟩ := Traced.pure_yields_iff.1 h
    exact ⟨fun _ => ⟨trivial, readKeep_nil p⟩, fun _ => trivial⟩
  | s :: ss, ⟨hs, hss⟩, h => by
    obtain ⟨ms, first, ks, rest, hfirst, hrest, rfl, rfl⟩ := Traced.bind_bind_pure_yields_iff.1 h
    exact (clears_tailor hl s hs hfirst).cons (clears_tailorStmts hl ss hss hrest)
termination_by structural ss => ss

end

/-- The modules in the file at the path name at most one source each, if it can be read. -/
def FileOneSource (v : Variant) (lib : Option Library) (path : FilePath) : Prop :=
  ∀ l ∈ lib, ∀ name body, Library.load l.store path name = .ok body → stmtsOneSource v body

theorem clears_fromLibrary (c : Conversion) (lib : Library) (depth : Nat) :
    Loader.Clears (FileOneSource c.variant.other (some lib)) (c.fromLibrary lib depth) := by
  induction depth with
  | zero => exact fun _ _ _ _ _ _ h => absurd h (Traced.not_fail_yields _)
  | succ depth ih =>
    intro around name explicit line ns body h
    obtain ⟨path, chain, loaded, ks, hload, htailor, rfl⟩ := exists_loaded_of_fromLibrary h
    refine Iff.trans (clears_tailorStmts ih loaded (Library.load_obeys hload) htailor) ?_
    rw [readKeep_resolved]
    exact and_congr (forall_loaded_iff hload).symm Iff.rfl

theorem clears_loader (c : Conversion) (lib : Option Library) :
    Loader.Clears (FileOneSource c.variant.other lib) (c.loader lib) := by
  cases lib with
  | none => exact fun _ _ _ _ _ _ h => absurd h (Traced.not_fail_yields _)
  | some lib => exact clears_fromLibrary c lib (maxDepth lib)

/-- A conversion leaves no tags exactly if, in the tree and in every file that is read for it, no module has more than
one tag that names a source. -/
theorem convert_untagged_iff (c : Conversion) (lib : Option Library) (origin : Option FilePath) (file source : String)
    (t t' : Tree) (hread : readSource file source = .ok t.body) (h : (c.convert lib origin t).result = .ok t') :
    t'.Untagged ↔
      t.tags = [] ∧ stmtsOneSource c.variant.other t.body ∧
        ∀ names path, Note.resolved names path ∈ (c.convert lib origin t).notes →
          FileOneSource c.variant.other lib path := by
  obtain ⟨around, body, hbody, rfl⟩ := exists_tailored_of_convert (Traced.yields_of_result h)
  have hstmts := clears_tailorStmts (clears_loader c lib) t.body (readSource_obeys hread) hbody
  refine and_congr (by cases t <;> rfl) (Iff.trans ?_ hstmts)
  cases t with
  | file ss => rw [Tree.withBody, Tree.finalize_file]; rfl
  | module_ info name ss => exact untagged_orPass info.span (tidyStmts body)

def twoSources : String := "# amphi-path: 'a.py'\n# amphi-path: 'b.py'\n# amphi-mod: m\n"

def twoSourcesBody : List Stmt :=
  [.block ⟨⟨some 3, some 0, some 3, some 14⟩, [⟨"amphi-path", "a.py", 1⟩, ⟨"amphi-path", "b.py", 2⟩]⟩ (.module_ "m") []]

/-- The module is read from the first source and still has the tag for the second one. -/
def twoSourcesLeft : List Stmt :=
  [.block ⟨⟨some 3, some 0, some 3, some 14⟩, [⟨"amphi-path", "b.py", 2⟩]⟩ (.module_ "m")
    [.pass ⟨some 1, some 0, some 1, some 4⟩]]

/-- A directory with the first source in it. -/
def firstSource : Library := ⟨⟨[(["a.py"], .file "pass\n".toUTF8)]⟩, ⟨.slash, []⟩⟩

def twoSourcesRemarks : List Comment :=
  [⟨"# amphi-path: 'a.py'", false, ⟨some 1, some 0, some 1, some 20⟩⟩,
   ⟨"# amphi-path: 'b.py'", false, ⟨some 2, some 0, some 2, some 20⟩⟩,
   ⟨"# amphi-mod: m", false, ⟨some 3, some 0, some 3, some 14⟩⟩]

set_option maxRecDepth 4096 in
theorem readSource_twoSources : readSource "m.py" twoSources = .ok twoSourcesBody := by
  have hparse : Grammar.parse twoSources.toList = some [] := by decide +kernel
  have hscan : Comments.scan twoSources.toList = .ok twoSourcesRemarks := by decide +kernel
  have hattach : Comments.attach twoSources.toList twoSourcesRemarks [] = .ok (twoSourcesRemarks.map .comment) := by
    cbv
  exact readSource_of_readAnnotated (readAnnotated_of_parse _ (by decide) hparse hscan hattach) (by decide +kernel)

set_option maxRecDepth 4096 in
theorem convert_twoSources :
    ((⟨.blocking, "m", none⟩ : Conversion).convert (some firstSource) none (.file twoSourcesBody)).result =
      .ok (.file twoSourcesLeft) := by cbv

theorem convert_untagged_iff_twoSources :
    readSource "m.py" twoSources = .ok (Tree.file twoSourcesBody).body ∧
    ((⟨.blocking, "m", none⟩ : Conversion).convert (some firstSource) none (.file twoSourcesBody)).result =
      .ok (.file twoSourcesLeft) ∧
    ¬ (Tree.file twoSourcesLeft).Untagged := by
  refine ⟨readSource_twoSources, convert_twoSources, fun huntagged => ?_⟩
  obtain ⟨-, ⟨hmodule, -⟩, -⟩ := (convert_untagged_iff ⟨.blocking, "m", none⟩ (some firstSource) none "m.py" twoSources
    (.file twoSourcesBody) (.file twoSourcesLeft) readSource_twoSources convert_twoSources).1 huntagged
  exact absurd (hmodule (by decide)).1 (by decide)

/-- Converted trees may have tags. -/
theorem exists_convert_tagged :
    ¬ ∀ (c : Conversion) (lib : Option Library) (origin : Option FilePath) (file source : String) (body : List Stmt)
      (t' : Tree), readSource file source = .ok body → (c.convert lib origin (.file body)).result = .ok t' →
        t'.Untagged := by
  intro h
  have huntagged : (Tree.file twoSourcesLeft).Untagged :=
    h ⟨.blocking, "m", none⟩ (some firstSource) none "m.py" twoSources twoSourcesBody (.file twoSourcesLeft)
      readSource_twoSources convert_twoSources
  obtain ⟨-, ⟨hmodule, -⟩, -⟩ := huntagged
  cases hmodule

end Conversion

end TwinModule
