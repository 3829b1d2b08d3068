import TwinModule.Proofs.Files.Written
import TwinModule.Proofs.Generation.Run
/-!
What a generation that fails leaves behind.
-/
set_option autoImplicit false

namespace TwinModule.Project
open Layout

/-- The files cannot all be written, but what is done before one fails changes nothing: those that are written before
were there and end with the bytes they had, and no directory is made for the one that fails. -/
def FailsUnchanged (store : Store) (directory : FilePath) (files : FileTexts) : Prop :=
  ∃ done f rest, files = done ++ f :: rest ∧ (∀ g ∈ done, store.isFile (directory.join g.1) = .ok true) ∧
    (∀ l e, lastWritten store directory done l = some e → store.find? l = some e) ∧
    Fails store (directory.join f.1) ∧ (store.makeDirectory (directory.join f.1).parent).1 = store

variable {store : Store} {directory : FilePath} {files : FileTexts}

theorem failsUnchanged_of_write {failure : Failure} (hresult : (write store directory files).2.result = .error failure)
    (hsame : (write store directory files).1 = store) : FailsUnchanged store directory files := by
  obtain ⟨done, f, rest, hfiles, hdone, hafter, hfails, hmake⟩ :=
    exists_failed_of_write hresult (Nat.le_of_eq (by rw [hsame]))
  have hset : store.setAll (placed store directory done) = store := hafter.symm.trans hsame
  rw [hset] at hfails hmake
  refine ⟨done, f, rest, hfiles, hdone, fun l e hl => ?_, hfails, hmake⟩
  have hlast : (placed store directory done).reverse.lookup l = some e := hl
  rw [← hset, Store.find?_setAll (ne_nil_of_placed hdone), hlast, Option.some_or]

theorem write_of_failsUnchanged (h : FailsUnchanged store directory files) :
    (write store directory files).1 = store := by
  obtain ⟨done, f, rest, rfl, hdone, hlast, hfails, hmake⟩ := h
  have hset : store.setAll (placed store directory done) = store :=
    Store.setAll_eq_self (ne_nil_of_placed hdone) hlast
  rw [(write_append_of_isFile _ hdone).1, hset, write_of_fails hfails, hmake]

/-- A generation that fails leaves the store as it was exactly if the failure comes before the writing or the writing
changes nothing before it fails. -/
theorem generateFiles_failed_unchanged_iff (store : Store) (o : Options) (source : FilePath) (shown : String)
    (failure : Failure) (h : (generateFiles store o source shown).2.result = .error failure) :
    (generateFiles store o source shown).1 = store ↔
      ∀ files, (render store o source shown).result = .ok files →
        FailsUnchanged store (outputDirectory o source) files := by
  cases hrender : (render store o source shown).result with
  | error f =>
    rw [generateFiles_of_render_error hrender]
    simp
  | ok files =>
    rw [generateFiles_of_render hrender] at h ⊢
    constructor
    · rintro hsame _ ⟨⟩
      exact failsUnchanged_of_write h hsame
    · intro hfails
      exact write_of_failsUnchanged (hfails files rfl)

/-- A directory stands where the second file is to be written. -/
def blockedStore : Store := ⟨[(["a.py"], .file "pass\n".toUTF8), (["blocking.py"], .directory)]⟩

/-- The first file is written before the second one fails. -/
def blockedAfter (text : String) : Store := ⟨blockedStore.entries ++ [(["asynchronous.py"], .file text.toUTF8)]⟩

def blockedNotes : List Note := [.wrote ⟨.slash, ["asynchronous.py"]⟩]

def blockedFailure : Failure := .files ⟨.isDirectory, ⟨.slash, ["blocking.py"]⟩⟩

theorem write_blockedStore (text : String) : write blockedStore ⟨.slash, []⟩ (passFiles text) =
    (blockedAfter text, ⟨blockedNotes, .error blockedFailure⟩) := by cbv

theorem write_blockedAfter (text : String) : write (blockedAfter text) ⟨.slash, []⟩ (passFiles text) =
    (blockedAfter text, ⟨blockedNotes, .error blockedFailure⟩) := by cbv

theorem read_blockedAfter (text : String) :
    (blockedAfter text).read ⟨.slash, ["a.py"]⟩ = .ok "pass\n".toUTF8 := by cbv

theorem realPath_blockedAfter (text : String) :
    (blockedAfter text).realPath ⟨.slash, ["a.py"]⟩ = .ok ⟨.slash, ["a.py"]⟩ := by cbv

theorem generateFiles_blockedStore :
    (generateFiles blockedStore bothNextToSource ⟨.slash, ["a.py"]⟩ "a.py").1 = blockedAfter passText ∧
      (generateFiles blockedStore bothNextToSource ⟨.slash, ["a.py"]⟩ "a.py").2.result = .error blockedFailure := by
  have hread : blockedStore.read ⟨.slash, ["a.py"]⟩ = .ok "pass\n".toUTF8 := by cbv
  have hreal : blockedStore.realPath ⟨.slash, ["a.py"]⟩ = .ok ⟨.slash, ["a.py"]⟩ := by cbv
  rw [generateFiles_of_yields (render_pass hread hreal) (write_blockedStore passText)]
  exact ⟨rfl, rfl⟩

theorem blockedAfter_ne (text : String) : blockedAfter text ≠ blockedStore := fun h =>
  absurd (congrArg (fun s : Store => s.entries.length) h) (by simp [blockedAfter])

/-- A generation that fails can leave files behind. -/
theorem not_generateFiles_failed_unchanged :
    ¬ ∀ (store : Store) (o : Options) (source : FilePath) (shown : String) (failure : Failure),
      (generateFiles store o source shown).2.result = .error failure →
        (generateFiles store o source shown).1 = store := by
  intro h
  have hsame := h _ _ _ _ _ generateFiles_blockedStore.2
  rw [generateFiles_blockedStore.1] at hsame
  exact blockedAfter_ne passText hsame

/-- Once the first file is there, the same failure leaves everything as it is. -/
theorem generateFiles_failed_unchanged_iff_blockedStore :
    ((generateFiles blockedStore bothNextToSource ⟨.slash, ["a.py"]⟩ "a.py").2.result = .error blockedFailure ∧
      ¬ ∀ files, (render blockedStore bothNextToSource ⟨.slash, ["a.py"]⟩ "a.py").result = .ok files →
        FailsUnchanged blockedStore ⟨.slash, []⟩ files) ∧
    (generateFiles (blockedAfter passText) bothNextToSource ⟨.slash, ["a.py"]⟩ "a.py").2.result =
        .error blockedFailure ∧
      FailsUnchanged (blockedAfter passText) ⟨.slash, []⟩ (passFiles passText) := by
  obtain ⟨hchanged, hfailed⟩ := generateFiles_blockedStore
  have hrender := render_pass (read_blockedAfter passText) (realPath_blockedAfter passText)
  have hagain := generateFiles_of_yields hrender (write_blockedAfter passText)
  have hfailedAgain : (generateFiles (blockedAfter passText) bothNextToSource ⟨.slash, ["a.py"]⟩ "a.py").2.result =
      .error blockedFailure := by rw [hagain]
  have hsame : (generateFiles (blockedAfter passText) bothNextToSource ⟨.slash, ["a.py"]⟩ "a.py").1 =
      blockedAfter passText := by rw [hagain]
  refine ⟨⟨hfailed, fun h => blockedAfter_ne passText ?_⟩, hfailedAgain, ?_⟩
  · exact hchanged.symm.trans
      ((generateFiles_failed_unchanged_iff blockedStore bothNextToSource ⟨.slash, ["a.py"]⟩ "a.py" _ hfailed).2 h)
  · exact (generateFiles_failed_unchanged_iff (blockedAfter passText) bothNextToSource ⟨.slash, ["a.py"]⟩ "a.py" _
      hfailedAgain).1 hsame _ hrender.result

end TwinModule.Project
