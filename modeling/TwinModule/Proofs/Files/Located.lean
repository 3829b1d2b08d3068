import TwinModule.Proofs.Conversion.Noted
import TwinModule.Proofs.Conversion.Stable
import TwinModule.Proofs.Files.Grow
/-!
The file that a module is found in, and when it is found there again.
-/
set_option autoImplicit false

namespace TwinModule.Library

variable {store : Store} {lib : Library} {names : List String} {explicit : Option String} {path : FilePath}

theorem firstFile_eq_some_iff {ps : List FilePath} : firstFile store ps = .ok (some path) ↔
    ∃ before rest, ps = before ++ path :: rest ∧ (∀ q ∈ before, store.isFile q = .ok false) ∧
      store.isFile path = .ok true := by
  induction ps with
  | nil => simp [firstFile]
  | cons p ps ih =>
    rw [firstFile]
    constructor
    · intro h
      split at h
      · cases h
      · rename_i hfile
        cases h
        exact ⟨[], ps, rfl, by simp, hfile⟩
      · rename_i hfile
        obtain ⟨before, rest, rfl, hbefore, hpath⟩ := ih.1 h
        exact ⟨p :: before, rest, rfl, List.forall_mem_cons.2 ⟨hfile, hbefore⟩, hpath⟩
    · rintro ⟨before, rest, hps, hbefore, hpath⟩
      cases before with
      | nil =>
        obtain ⟨rfl, rfl⟩ := List.cons.inj hps
        simp only [hpath]
      | cons q before =>
        obtain ⟨rfl, rfl⟩ := List.cons.inj hps
        obtain ⟨hfile, hbefore⟩ := List.forall_mem_cons.1 hbefore
        simp only [hfile]
        exact ih.2 ⟨before, rest, rfl, hbefore, hpath⟩

/-- Where a module is looked for: at the path that is given for it, or where its names lead. -/
def searched (root : FilePath) (names : List String) : Option String → Except Failure (List FilePath)
  | some path => .ok [root.child path]
  | none => candidates root names

theorem locate_eq_ok_iff : lib.locate names explicit = .ok path ↔ names ≠ [] ∧
    ∃ tried, searched lib.root names explicit = .ok tried ∧ firstFile lib.store tried = .ok (some path) := by
  cases hlast : names.getLast? with
  | none =>
    rw [List.getLast?_eq_none_iff] at hlast
    subst hlast
    constructor
    · intro h
      cases h
    · rintro ⟨hnames, -⟩
      exact absurd rfl hnames
  | some name =>
    have hnames : names ≠ [] := by
      rintro rfl
      cases hlast
    simp only [locate, hlast]
    cases explicit
    all_goals
      simp only [searched, bind_eq_ok_iff]
      constructor
      · rintro ⟨tried, htried, found, hfound, h⟩
        cases found with
        | none => cases h
        | some path' =>
          cases h
          exact ⟨hnames, tried, htried, hfound⟩
      · rintro ⟨-, tried, htried, hfound⟩
        exact ⟨tried, htried, some path, hfound, rfl⟩

theorem load_congr {store' : Store} (name : String) (h : store'.read path = store.read path) :
    load store' path name = load store path name := by
  simp only [load, h]

/-- What was looked at in vain before the file of a module was found is a file no more than it was. -/
def NoneShadowed (notes : List Note) (root : FilePath) (before after : Store) : Prop :=
  ∀ names path earlier later, Note.resolved names path ∈ notes →
    candidates root names = .ok (earlier ++ path :: later) → ∀ p ∈ earlier, after.isFile p = before.isFile p

/-- A module is found again where it was found, unless another file has come up in its stead. -/
theorem locate_of_grows {after : Store} {root : FilePath} {notes : List Note} (hgrows : store.Grows after)
    (hshadow : NoneShadowed notes root store after) (hnote : Note.resolved names path ∈ notes)
    (h : locate ⟨store, root⟩ names explicit = .ok path) : locate ⟨after, root⟩ names explicit = .ok path := by
  obtain ⟨hnames, tried, htried, hfirst⟩ := locate_eq_ok_iff.1 h
  obtain ⟨earlier, later, rfl, hearlier, hfile⟩ := firstFile_eq_some_iff.1 hfirst
  have hvain : ∀ p ∈ earlier, after.isFile p = .ok false := by
    intro p hp
    cases explicit with
    | none => rw [hshadow names path earlier later hnote htried p hp, hearlier p hp]
    | some given =>
      -- the given path is the only one that is looked at
      rw [searched, Except.ok.injEq, eq_comm, List.append_eq_singleton_iff] at htried
      rcases htried with ⟨rfl, -⟩ | ⟨-, hpath⟩
      · cases hp
      · cases hpath
  exact locate_eq_ok_iff.2
    ⟨hnames, _, htried, firstFile_eq_some_iff.2 ⟨earlier, later, rfl, hvain, hgrows.isFile hfile⟩⟩

/-- In a store that has grown everything is found again that can be read as before. -/
theorem keeps_of_grows {after : Store} {root : FilePath} {notes : List Note} (hgrows : store.Grows after)
    (hread : ∀ n ∈ notes, ∀ p, n.file? = some p → after.read p = store.read p)
    (hshadow : NoneShadowed notes root store after) : Keeps (· ∈ notes) ⟨store, root⟩ ⟨after, root⟩ where
  locate _ _ _ hnote h := locate_of_grows hgrows hshadow hnote h
  realPath _ _ _ _ h := hgrows.realPath h
  load _ path name _ hnote h := (load_congr name (hread _ hnote path rfl)).trans h

end TwinModule.Library
