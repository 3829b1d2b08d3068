import TwinModule.Proofs.Conversion.Visitor
/-!
What a conversion notes when it succeeds: statements it drops, and modules it finds in files, each of them a file that
can be read.
-/
set_option autoImplicit false

namespace TwinModule

/-- The file that was read, for the root module or for a module in it. -/
def Note.file? : Note → Option FilePath
  | .generating _ origin _ => some origin
  | .resolved _ path => some path
  | _ => none

namespace Conversion

open Traced

/-- Whenever the loader gives something its notes are of a kind. -/
def Loader.Notes (p : Note → Prop) (load : Loader) : Prop :=
  ∀ around name explicit line ns body, (load around name explicit line).Yields ns body → ∀ n ∈ ns, p n

variable {c : Conversion} {p : Note → Prop} {load : Loader} {around : Surroundings} {ns : List Note}

/-- Wherever a computation gives something its notes are of a kind. -/
def NotesAre (p : Note → Prop) ⦃α : Type⦄ (x : ReaderT Surroundings Traced α) : Prop :=
  ∀ around ns a, (x around).Yields ns a → ∀ n ∈ ns, p n

theorem throughout_notesAre (hdrop : ∀ kind line v, p (.dropping kind line v)) (hl : Loader.Notes p load) :
    Throughout (NotesAre p) (c.reader load) where
  pure a around ns b h := by
    obtain ⟨rfl, -⟩ := pure_yields_iff.1 h
    simp
  bind hx hf around ns b h := by
    obtain ⟨ms, a, hfirst, ks, hrest, rfl⟩ := bind_yields_iff.1 h
    exact List.forall_mem_append.2 ⟨hx _ _ _ hfirst, hf a _ _ _ hrest⟩
  leave s around ns out h := by
    obtain ⟨ks, hpure, rfl⟩ := bind_note_yields_iff.1 h
    obtain ⟨rfl, -⟩ := pure_yields_iff.1 hpure
    exact List.forall_mem_singleton.2 (hdrop ..)
  refuse _ _ _ _ _ _ h := absurd h (not_fail_yields _)
  inside name _ _ hx around := hx _
  load name explicit line around := hl _ name explicit line

/-- What statements give is noted as it is where the walk over them stops. -/
theorem notes_of_tailorStmts (hdrop : ∀ kind line v, p (.dropping kind line v)) (hl : Loader.Notes p load)
    {ss out : List Stmt} (h : (c.tailorStmts load around ss).Yields ns out) : ∀ n ∈ ns, p n := by
  rw [tailorStmts_eq_visitStmts] at h
  exact related_visitStmts c (throughout_notesAre hdrop hl) ss around ns out h

/-- A file that the note says was read can be read in the store. -/
def FoundIn (store : Store) (n : Note) : Prop := ∀ p, n.file? = some p → ∃ bytes, store.read p = .ok bytes

theorem foundIn_dropping {store : Store} (kind : String) (line : Option Nat) (v : Variant) :
    FoundIn store (.dropping kind line v) := by
  rintro p ⟨⟩

theorem exists_read_of_load {store : Store} {path : FilePath} {name : String} {body : List Stmt}
    (h : Library.load store path name = .ok body) : ∃ bytes, store.read path = .ok bytes := by
  cases hread : store.read path with
  | error problem =>
    rw [Library.load, hread] at h
    cases h
  | ok bytes => exact ⟨bytes, rfl⟩

theorem notes_fromLibrary (lib : Library) (depth : Nat) : Loader.Notes (FoundIn lib.store) (c.fromLibrary lib depth) := by
  induction depth with
  | zero => exact fun _ _ _ _ _ _ h => absurd h (not_fail_yields _)
  | succ depth ih =>
    intro around name explicit line ns body h
    obtain ⟨path, chain, loaded, ks, hload, hbody, rfl⟩ := exists_loaded_of_fromLibrary h
    refine List.forall_mem_cons.2 ⟨?_, notes_of_tailorStmts foundIn_dropping ih hbody⟩
    rintro _ ⟨⟩
    exact exists_read_of_load hload

/-- Every file that a conversion says it found can be read. -/
theorem notes_of_convert {lib : Library} {origin : Option FilePath} {t u : Tree}
    (h : (c.convert (some lib) origin t).Yields ns u) : ∀ n ∈ ns, FoundIn lib.store n := by
  obtain ⟨around, body, hbody, -⟩ := exists_tailored_of_convert h
  exact notes_of_tailorStmts foundIn_dropping (notes_fromLibrary lib _) hbody

end Conversion

end TwinModule
