import Mathlib.Data.List.Dedup
import Mathlib.Data.List.Perm.Subperm
import TwinModule.Proofs.Conversion.Visitor
import TwinModule.Proofs.Files.Located
import TwinModule.Proofs.Files.Real
import TwinModule.Proofs.Files.Write
/-!
Conversions end. What a module is filled in with is given here with no bound on how deep files are read in files: what
each file declares has to be filled in first, so there is an outcome only if this ends. It always does, as the files
being read at a time are different files.
-/
set_option autoImplicit false

namespace TwinModule

namespace Store

variable {s : Store} {p real : FilePath} {l : Location}

def isFileAt (s : Store) (l : Location) : Bool :=
  match s.find? l with
  | some (.file _) => true
  | _ => false

/-- The real paths of the files in a store, each of them once. -/
def realFiles (s : Store) : List FilePath :=
  ((s.entries.map Prod.fst).filter s.isFileAt).dedup.map (FilePath.mk .slash)

theorem length_realFiles_le (s : Store) : s.realFiles.length ≤ s.entries.length := by
  rw [realFiles, List.length_map]
  calc ((s.entries.map Prod.fst).filter s.isFileAt).dedup.length
    _ ≤ ((s.entries.map Prod.fst).filter s.isFileAt).length := (List.dedup_sublist _).length_le
    _ ≤ (s.entries.map Prod.fst).length := List.length_filter_le ..
    _ = s.entries.length := List.length_map ..

theorem mem_realFiles_of_find? {bytes : ByteArray} (h : s.find? l = some (.file bytes)) : ⟨.slash, l⟩ ∈ s.realFiles := by
  have hentry : (l, Entry.file bytes) ∈ s.entries := by
    cases l with
    | nil => cases h
    | cons name rest => exact mem_of_lookup h
  refine List.mem_map_of_mem (List.mem_dedup.2 (List.mem_filter.2 ⟨List.mem_map_of_mem hentry, ?_⟩))
  rw [isFileAt, h]

/-- The real path of a file is one of those. -/
theorem mem_realFiles_of_isFile (h : s.isFile p = .ok true) (hreal : s.realPath p = .ok real) : real ∈ s.realFiles := by
  obtain ⟨l, bytes, hl, hfile⟩ := isFile_eq_true_iff.1 h
  obtain rfl : real = ⟨.slash, l⟩ := Except.ok.inj (hreal.symm.trans (realPath_of_locate hl))
  exact mem_realFiles_of_find? hfile

end Store

namespace Conversion

variable {c : Conversion} {lib : Library} {around : Surroundings} {name : String} {explicit : Option String}
  {line : Option Nat}

/-- What comes of filling in a module from a library: it is not found, its file is being read already or cannot be read,
or what the file declares is filled in, whatever that may be, and then the module. -/
inductive FillsIn (c : Conversion) (lib : Library) :
    Surroundings → String → Option String → Option Nat → Traced (List Stmt) → Prop where
  | missing {around : Surroundings} {name : String} {explicit : Option String} {line : Option Nat} {f : Failure} :
      lib.locate around.modulePath explicit = .error f →
      FillsIn c lib around name explicit line (Traced.fail (missedAt around line f))
  | barred {around : Surroundings} {name : String} {explicit : Option String} {line : Option Nat} {path : FilePath}
      {f : Failure} : lib.locate around.modulePath explicit = .ok path →
      Library.enter lib.store around.chain path name = .error f →
      FillsIn c lib around name explicit line ⟨[.resolved around.modulePath path], .error f⟩
  | unread {around : Surroundings} {name : String} {explicit : Option String} {line : Option Nat} {path : FilePath}
      {chain : Chain} {f : Failure} : lib.locate around.modulePath explicit = .ok path →
      Library.enter lib.store around.chain path name = .ok chain → Library.load lib.store path name = .error f →
      FillsIn c lib around name explicit line ⟨[.resolved around.modulePath path], .error f⟩
  | read {around : Surroundings} {name : String} {explicit : Option String} {line : Option Nat} {path : FilePath}
      {chain : Chain} {body : List Stmt} {load : Loader} : lib.locate around.modulePath explicit = .ok path →
      Library.enter lib.store around.chain path name = .ok chain → Library.load lib.store path name = .ok body →
      (∀ names name explicit line, FillsIn c lib ⟨names, some path.text, chain⟩ name explicit line
        (load ⟨names, some path.text, chain⟩ name explicit line)) →
      FillsIn c lib around name explicit line (do
        Traced.note (.resolved around.modulePath path)
        c.tailorStmts load ⟨around.modulePath, some path.text, chain⟩ body)

/-- What comes of converting a tree: its own file cannot be entered, or what the tree declares is filled in. -/
inductive Converts (c : Conversion) (lib : Library) (origin : Option FilePath) (t : Tree) : Traced Tree → Prop where
  | barred {f : Failure} : c.firstChain (some lib) origin t = .error f →
      Converts c lib origin t (Traced.fail (f.inFile (origin.map FilePath.text)))
  | started {chain : Chain} {load : Loader} : c.firstChain (some lib) origin t = .ok chain →
      (∀ names name explicit line, FillsIn c lib ⟨names, origin.map FilePath.text, chain⟩ name explicit line
        (load ⟨names, origin.map FilePath.text, chain⟩ name explicit line)) →
      Converts c lib origin t (Traced.mapFailure (Failure.inFile (origin.map FilePath.text)) do
        let body ← c.tailorStmts load ⟨[c.rootName], origin.map FilePath.text, chain⟩ t.body
        return (t.withBody body).finalize)

theorem FillsIn.unique {x y : Traced (List Stmt)} (hx : c.FillsIn lib around name explicit line x)
    (hy : c.FillsIn lib around name explicit line y) : x = y := by
  induction hx generalizing y with
  | missing hlocate =>
    cases hy with
    | missing hlocate' =>
      cases hlocate.symm.trans hlocate'
      rfl
    | barred hlocate' | unread hlocate' | read hlocate' => cases hlocate.symm.trans hlocate'
  | barred hlocate henter =>
    cases hy with
    | missing hlocate' => cases hlocate.symm.trans hlocate'
    | barred hlocate' henter' =>
      cases hlocate.symm.trans hlocate'
      cases henter.symm.trans henter'
      rfl
    | unread hlocate' henter' | read hlocate' henter' =>
      cases hlocate.symm.trans hlocate'
      cases henter.symm.trans henter'
  | unread hlocate henter hload =>
    cases hy with
    | missing hlocate' => cases hlocate.symm.trans hlocate'
    | barred hlocate' henter' =>
      cases hlocate.symm.trans hlocate'
      cases henter.symm.trans henter'
    | unread hlocate' henter' hload' =>
      cases hlocate.symm.trans hlocate'
      cases hload.symm.trans hload'
      rfl
    | read hlocate' henter' hload' =>
      cases hlocate.symm.trans hlocate'
      cases hload.symm.trans hload'
  | read hlocate henter hload _ ih =>
    cases hy with
    | missing hlocate' => cases hlocate.symm.trans hlocate'
    | barred hlocate' henter' =>
      cases hlocate.symm.trans hlocate'
      cases henter.symm.trans henter'
    | unread hlocate' henter' hload' =>
      cases hlocate.symm.trans hlocate'
      cases hload.symm.trans hload'
    | read hlocate' henter' hload' hfills =>
      cases hlocate.symm.trans hlocate'
      cases henter.symm.trans henter'
      cases hload.symm.trans hload'
      rw [c.tailorStmts_congr fun names name explicit line => ih names name explicit line (hfills ..)]

theorem Converts.unique {origin : Option FilePath} {t : Tree} {x y : Traced Tree} (hx : c.Converts lib origin t x)
    (hy : c.Converts lib origin t y) : x = y := by
  cases hx with
  | barred hchain =>
    cases hy with
    | barred hchain' =>
      cases hchain.symm.trans hchain'
      rfl
    | started hchain' => cases hchain.symm.trans hchain'
  | started hchain hfills =>
    cases hy with
    | barred hchain' => cases hchain.symm.trans hchain'
    | started hchain' hfills' =>
      cases hchain.symm.trans hchain'
      rw [c.tailorStmts_congr fun names name explicit line => (hfills ..).unique (hfills' names name explicit line)]

/-- How many files could still be read in those that are being read. -/
def unread (store : Store) (chain : Chain) : Nat :=
  (store.realFiles.filter fun real => (chain.lookup real).isNone).length

theorem unread_le (store : Store) (chain : Chain) : unread store chain ≤ store.entries.length :=
  Nat.le_trans (List.length_filter_le ..) store.length_realFiles_le

theorem isFile_of_locate {path : FilePath} {names : List String} (h : lib.locate names explicit = .ok path) :
    lib.store.isFile path = .ok true := by
  obtain ⟨-, tried, -, hfirst⟩ := Library.locate_eq_ok_iff.1 h
  obtain ⟨-, -, -, -, hfile⟩ := Library.firstFile_eq_some_iff.1 hfirst
  exact hfile

/-- A file that is entered is one less to be read. -/
theorem unread_lt_of_enter {chain longer : Chain} {path : FilePath} (hfile : lib.store.isFile path = .ok true)
    (h : Library.enter lib.store chain path name = .ok longer) : unread lib.store longer < unread lib.store chain := by
  obtain ⟨real, hreal, hnone, rfl⟩ := Library.enter_eq_ok h
  have hmem : real ∈ lib.store.realFiles.filter fun real => (chain.lookup real).isNone := by
    simp [Store.mem_realFiles_of_isFile hfile hreal, hnone]
  have hless : (lib.store.realFiles.filter fun p => ((chain ++ [(real, name)]).lookup p).isNone) =
      (lib.store.realFiles.filter fun p => (chain.lookup p).isNone).filter (· ≠ real) := by
    rw [List.filter_filter]
    refine List.filter_congr fun p _ => ?_
    by_cases hp : p = real
    · simp [List.lookup_append, hp]
    · simp [List.lookup_append, List.lookup_cons, beq_eq_false_iff_ne.2 hp, hp]
  rw [unread, unread, hless]
  exact List.length_filter_lt_length_iff_exists.2 ⟨real, hmem, by simp⟩

/-- A library read to the number of files, or deeper, is never read to the bottom. -/
theorem fillsIn_fromLibrary {depth : Nat} (h : unread lib.store around.chain < depth) :
    c.FillsIn lib around name explicit line (c.fromLibrary lib depth around name explicit line) := by
  induction depth generalizing around name explicit line with
  | zero => exact absurd h (Nat.not_lt_zero _)
  | succ depth ih =>
    cases hlocate : lib.locate around.modulePath explicit with
    | error f =>
      rw [fromLibrary_missing hlocate]
      exact .missing hlocate
    | ok path =>
      rw [fromLibrary_located hlocate]
      cases henter : Library.enter lib.store around.chain path name with
      | error f => exact .barred hlocate henter
      | ok chain =>
        cases hload : Library.load lib.store path name with
        | error f => exact .unread hlocate henter hload
        | ok body =>
          have hless := unread_lt_of_enter (isFile_of_locate hlocate) henter
          exact .read hlocate henter hload fun names name explicit line => ih (by simp only; omega)

theorem converts_convert (c : Conversion) (lib : Library) (origin : Option FilePath) (t : Tree) :
    c.Converts lib origin t (c.convert (some lib) origin t) := by
  rw [convert]
  cases hchain : c.firstChain (some lib) origin t with
  | error f => exact .barred hchain
  | ok chain =>
    have hdepth := unread_le lib.store chain
    exact .started hchain fun names name explicit line => fillsIn_fromLibrary (by simp only [maxDepth]; omega)

/-- Where the conversion of a tree may come to: to modules of any names, and from there into their files. -/
inductive Reaches (c : Conversion) (lib : Library) (origin : Option FilePath) (t : Tree) : Surroundings → Prop where
  | start {chain : Chain} : c.firstChain (some lib) origin t = .ok chain →
      Reaches c lib origin t ⟨[c.rootName], origin.map FilePath.text, chain⟩
  | inside {around : Surroundings} (names : List String) : Reaches c lib origin t around →
      Reaches c lib origin t { around with modulePath := names }
  | opened {around : Surroundings} {name : String} {explicit : Option String} {path : FilePath} {chain : Chain}
      {body : List Stmt} : Reaches c lib origin t around → lib.locate around.modulePath explicit = .ok path →
      Library.enter lib.store around.chain path name = .ok chain → Library.load lib.store path name = .ok body →
      Reaches c lib origin t ⟨around.modulePath, some path.text, chain⟩

theorem nodup_of_enter {store : Store} {chain longer : Chain} {path : FilePath}
    (hnodup : (chain.map Prod.fst).Nodup) (h : Library.enter store chain path name = .ok longer) :
    (longer.map Prod.fst).Nodup := by
  obtain ⟨real, -, hnone, rfl⟩ := Library.enter_eq_ok h
  rw [List.lookup_eq_none_iff] at hnone
  rw [List.map_append]
  refine List.nodup_append.2 ⟨hnodup, List.nodup_singleton real, fun p hp q hq => ?_⟩
  rw [List.mem_singleton.1 hq]
  rintro rfl
  obtain ⟨e, he, rfl⟩ := List.mem_map.1 hp
  exact absurd (hnone e he) (by simp)

theorem nodup_firstChain {origin : Option FilePath} {t : Tree} {chain : Chain}
    (h : c.firstChain (some lib) origin t = .ok chain) : (chain.map Prod.fst).Nodup := by
  cases t with
  | file body =>
    cases h
    exact List.nodup_nil
  | module_ info name body =>
    cases origin with
    | none =>
      cases h
      exact List.nodup_nil
    | some origin =>
      have hempty : (([] : Chain).map Prod.fst).Nodup := List.nodup_nil
      exact nodup_of_enter hempty h

/-- The files being read are different files. -/
theorem Reaches.nodup {origin : Option FilePath} {t : Tree} (h : c.Reaches lib origin t around) :
    (around.chain.map Prod.fst).Nodup := by
  induction h with
  | start hchain => exact nodup_firstChain hchain
  | inside _ _ ih => exact ih
  | opened _ _ henter _ ih => exact nodup_of_enter ih henter

theorem Reaches.opened_files {origin : Option FilePath} {t : Tree} (h : c.Reaches lib origin t around) :
    ∃ first fragments, c.firstChain (some lib) origin t = .ok first ∧ around.chain = first ++ fragments ∧
      ∀ e ∈ fragments, e.1 ∈ lib.store.realFiles := by
  induction h with
  | @start chain hchain => exact ⟨chain, [], hchain, (List.append_nil chain).symm, by simp⟩
  | inside _ _ ih => exact ih
  | opened _ hlocate henter _ ih =>
    obtain ⟨first, fragments, hfirst, hchain, hfiles⟩ := ih
    obtain ⟨real, hreal, -, rfl⟩ := Library.enter_eq_ok henter
    refine ⟨first, fragments ++ [(real, _)], hfirst, by rw [hchain, List.append_assoc], ?_⟩
    exact List.forall_mem_append.2
      ⟨hfiles, by simpa using Store.mem_realFiles_of_isFile (isFile_of_locate hlocate) hreal⟩

/-- A conversion has exactly one outcome, with no bound on how deep files are read in files, and it is the one that a
conversion of bounded depth gives. The files being read at a time are different files, so those that are read for
modules are no more than there are files. -/
theorem convert_ends (c : Conversion) (lib : Library) (origin : Option FilePath) (t : Tree) :
    (∃! x, c.Converts lib origin t x) ∧ c.Converts lib origin t (c.convert (some lib) origin t) ∧
      ∀ around, c.Reaches lib origin t around → (around.chain.map Prod.fst).Nodup ∧
        ∃ first fragments, c.firstChain (some lib) origin t = .ok first ∧ around.chain = first ++ fragments ∧
          (∀ e ∈ fragments, e.1 ∈ lib.store.realFiles) ∧ fragments.length ≤ lib.store.realFiles.length := by
  have hconverts := c.converts_convert lib origin t
  refine ⟨⟨_, hconverts, fun x hx => hx.unique hconverts⟩, hconverts, fun around haround => ⟨haround.nodup, ?_⟩⟩
  obtain ⟨first, fragments, hfirst, hchain, hfiles⟩ := haround.opened_files
  refine ⟨first, fragments, hfirst, hchain, hfiles, ?_⟩
  have hnodup := haround.nodup
  rw [hchain, List.map_append, List.nodup_append] at hnodup
  have hsubset : fragments.map Prod.fst ⊆ lib.store.realFiles := List.forall_mem_map.2 hfiles
  calc fragments.length
    _ = (fragments.map Prod.fst).length := (List.length_map ..).symm
    _ ≤ lib.store.realFiles.length := (List.subperm_of_subset hnodup.2.1 hsubset).length_le

end Conversion

end TwinModule
