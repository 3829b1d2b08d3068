import TwinModule.Layout
import TwinModule.Proofs.Files.Write
/-!
What writing the files of a layout does to a store, whether it comes to its end or not.
-/
set_option autoImplicit false

namespace TwinModule.Layout
open Store

variable {store : Store} {directory : FilePath} {files : FileTexts}

/-- The places of the files that are located, with the texts as what is written there. -/
def placed (store : Store) (directory : FilePath) (files : FileTexts) : List (Location × Entry) :=
  files.filterMap fun f => (store.locate (directory.join f.1)).toOption.map fun l => (l, .file f.2.toUTF8)

/-- What is written to a place in the end. -/
def lastWritten (store : Store) (directory : FilePath) (files : FileTexts) (l : Location) : Option Entry :=
  (placed store directory files).reverse.lookup l

theorem placed_cons {f : FilePath × String} {l : Location} (h : store.locate (directory.join f.1) = .ok l) :
    placed store directory (f :: files) = (l, .file f.2.toUTF8) :: placed store directory files := by
  simp [placed, h, Except.toOption]

theorem mem_placed_iff {w : Location × Entry} : w ∈ placed store directory files ↔
    ∃ f ∈ files, store.locate (directory.join f.1) = .ok w.1 ∧ w.2 = .file f.2.toUTF8 := by
  rw [placed, List.mem_filterMap]
  refine exists_congr fun f => and_congr_right fun _ => ?_
  cases store.locate (directory.join f.1) with
  | error problem => simp [Except.toOption]
  | ok l => simp [Except.toOption, Prod.ext_iff, eq_comm]

theorem ne_nil_of_placed (h : ∀ f ∈ files, store.isFile (directory.join f.1) = .ok true) :
    ∀ w ∈ placed store directory files, w.1 ≠ [] := by
  intro w hw
  obtain ⟨f, hf, hw, -⟩ := mem_placed_iff.1 hw
  obtain ⟨l, bytes, hl, hfile⟩ := isFile_eq_true_iff.1 (h f hf)
  obtain rfl : w.1 = l := Except.ok.inj (hw.symm.trans hl)
  exact ne_nil_of_file hfile

theorem placed_of_grows {store' : Store} (hgrows : store.Grows store')
    (h : ∀ f ∈ files, store.isFile (directory.join f.1) = .ok true) :
    placed store' directory files = placed store directory files := by
  induction files with
  | nil => rfl
  | cons f files ih =>
    obtain ⟨hf, hfiles⟩ := List.forall_mem_cons.1 h
    obtain ⟨l, _, hl, -⟩ := isFile_eq_true_iff.1 hf
    rw [placed_cons hl, placed_cons (hgrows.locate hl), ih hfiles]

theorem lastWritten_cons {f : FilePath × String} {l : Location} (h : store.locate (directory.join f.1) = .ok l)
    (k : Location) : lastWritten store directory (f :: files) k =
      (lastWritten store directory files k).or (if k = l then some (.file f.2.toUTF8) else none) := by
  rw [lastWritten, placed_cons h, List.reverse_cons, List.lookup_append]
  congr 1
  by_cases hk : k = l
  · simp [hk]
  · simp [hk, List.lookup_cons, beq_eq_false_iff_ne.2 hk]

theorem map_eq_ok_iff {ε α β : Type} {x : Except ε α} {g : α → β} {b : β} :
    x.map g = .ok b ↔ ∃ a, x = .ok a ∧ g a = b := by
  cases x with
  | error e => exact ⟨nofun, nofun⟩
  | ok a =>
    constructor
    · intro h
      exact ⟨a, rfl, Except.ok.inj h⟩
    · rintro ⟨_, ⟨⟩, rfl⟩
      rfl

theorem map_eq_error_iff {ε α β : Type} {x : Except ε α} {g : α → β} {e : ε} : x.map g = .error e ↔ x = .error e := by
  cases x with
  | error e' => exact ⟨fun h => congrArg _ (Except.error.inj h), fun h => congrArg _ (Except.error.inj h)⟩
  | ok a => exact ⟨nofun, nofun⟩

/-- A file with no directory for it, or that cannot be written there. -/
def Fails (store : Store) (p : FilePath) : Prop :=
  (store.makeDirectory p.parent).2 = .ok () →
    ∀ bytes after, (store.makeDirectory p.parent).1.write p bytes ≠ .ok after

theorem not_fails {p : FilePath} {made : Store} {l : Location} (hmake : store.makeDirectory p.parent = (made, .ok ()))
    (hl : made.locate p = .ok l) (hplace : made.find? l = none ∨ ∃ old, made.find? l = some (.file old)) :
    ¬ Fails store p := by
  intro hfails
  refine hfails (by rw [hmake]) ByteArray.empty (made.set l (.file ByteArray.empty)) ?_
  rw [hmake]
  exact write_eq_ok_iff.2 ⟨l, hl, hplace, rfl⟩

/-- Either the first file fails, and nothing more is done than to make directories for it, or it is written in its
place and the others follow. -/
theorem write_cons (store : Store) (directory : FilePath) (f : FilePath × String) (files : FileTexts) :
    (Fails store (directory.join f.1) ∧
      (write store directory (f :: files)).1 = (store.makeDirectory (directory.join f.1).parent).1 ∧
      ∃ failure, (write store directory (f :: files)).2.result = .error failure) ∨
    ∃ made l, (store.makeDirectory (directory.join f.1).parent) = (made, .ok ()) ∧
      made.locate (directory.join f.1) = .ok l ∧
      (made.find? l = none ∨ ∃ old, made.find? l = some (.file old)) ∧
      (write store directory (f :: files)).1 = (write (made.set l (.file f.2.toUTF8)) directory files).1 ∧
      (write store directory (f :: files)).2.result =
        (write (made.set l (.file f.2.toUTF8)) directory files).2.result.map (directory.join f.1 :: ·) := by
  obtain ⟨p, text⟩ := f
  rcases hmake : store.makeDirectory (directory.join p).parent with ⟨made, fault | _⟩
  · refine .inl ⟨fun h => ?_, ?_, ?_⟩
    · rw [hmake] at h
      cases h
    · simp only [write, hmake]
    · exact ⟨.files fault, by simp only [write, hmake]; rfl⟩
  · cases hwrite : made.write (directory.join p) text.toUTF8 with
    | error problem =>
      refine .inl ⟨fun _ bytes after h => ?_, ?_, ?_⟩
      · rw [hmake] at h
        obtain ⟨l, hl, hplace, -⟩ := write_eq_ok_iff.1 h
        rw [write_eq_ok_iff.2 ⟨l, hl, hplace, rfl⟩] at hwrite
        cases hwrite
      · simp only [write, hmake, hwrite]
      · exact ⟨.files ⟨problem, directory.join p⟩, by simp only [write, hmake, hwrite]; rfl⟩
    | ok after =>
      obtain ⟨l, hl, hplace, rfl⟩ := write_eq_ok_iff.1 hwrite
      refine .inr ⟨made, l, rfl, hl, hplace, by simp only [write, hmake, hwrite], ?_⟩
      simp only [write, hmake, hwrite, Traced.bind_result]
      cases (write (made.set l (.file text.toUTF8)) directory files).2.result <;> rfl

/-- A writing that fails says which path had which problem. -/
theorem exists_fault_of_write {failure : Failure} (h : (write store directory files).2.result = .error failure) :
    ∃ fault, failure = .files fault := by
  induction files generalizing store with
  | nil => cases h
  | cons f files ih =>
    obtain ⟨p, text⟩ := f
    rw [write] at h
    split at h
    · rename_i fault hmake
      cases h
      exact ⟨fault, rfl⟩
    · split at h
      · rename_i problem hwrite
        cases h
        exact ⟨⟨problem, directory.join p⟩, rfl⟩
      · rename_i after hwrite
        simp only [Traced.bind_result, Traced.note] at h
        cases hothers : (write after directory files).2.result with
        | ok paths =>
          rw [hothers] at h
          cases h
        | error failure' =>
          rw [hothers] at h
          cases h
          exact ih hothers

theorem write_of_fails {f : FilePath × String} (h : Fails store (directory.join f.1)) :
    (write store directory (f :: files)).1 = (store.makeDirectory (directory.join f.1).parent).1 := by
  rcases write_cons store directory f files with ⟨-, hafter, -⟩ | ⟨made, l, hmake, hl, hplace, -, -⟩
  · exact hafter
  · exact absurd h (not_fails hmake hl hplace)

theorem grows_write (store : Store) (directory : FilePath) (files : FileTexts) :
    store.Grows (write store directory files).1 := by
  induction files generalizing store with
  | nil => exact Grows.refl store
  | cons f files ih =>
    have hgrows := grows_makeDirectory store (directory.join f.1).parent
    rcases write_cons store directory f files with ⟨-, hafter, -⟩ | ⟨made, l, hmake, -, hplace, hafter, -⟩
    · exact hafter ▸ hgrows
    · rw [hmake] at hgrows
      rw [hafter]
      exact hgrows.trans ((grows_set_file hplace _).trans (ih _))

/-- Files that are there already are written in their places, and nothing else is done. -/
theorem write_append_of_isFile {done : FileTexts} (rest : FileTexts)
    (h : ∀ f ∈ done, store.isFile (directory.join f.1) = .ok true) :
    (write store directory (done ++ rest)).1 =
        (write (store.setAll (placed store directory done)) directory rest).1 ∧
      (write store directory (done ++ rest)).2.result =
        (write (store.setAll (placed store directory done)) directory rest).2.result.map
          (done.map (fun f => directory.join f.1) ++ ·) := by
  induction done generalizing store with
  | nil =>
    refine ⟨rfl, ?_⟩
    show (write store directory rest).2.result = (write store directory rest).2.result.map ([] ++ ·)
    cases (write store directory rest).2.result <;> rfl
  | cons f done ih =>
    obtain ⟨hf, hdone⟩ := List.forall_mem_cons.1 h
    obtain ⟨l, old, hl, hold⟩ := isFile_eq_true_iff.1 hf
    have hmake := makeDirectory_of_isDirectory (isDirectory_parent_of_isFile hf)
    have hgrows := grows_set_file (.inr ⟨old, hold⟩) f.2.toUTF8
    obtain ⟨hstore, hresult⟩ := ih fun g hg => hgrows.isFile (hdone g hg)
    rw [placed_of_grows hgrows hdone] at hstore hresult
    rw [placed_cons hl, setAll_cons]
    rcases write_cons store directory f (done ++ rest) with ⟨hfails, -⟩ | ⟨made, k, hmade, hk, -, hafter, hpaths⟩
    · exact absurd hfails (not_fails hmake hl (.inr ⟨old, hold⟩))
    · obtain ⟨rfl, -⟩ := Prod.mk.inj (hmake.symm.trans hmade)
      obtain rfl : l = k := Except.ok.inj (hl.symm.trans hk)
      refine ⟨hafter.trans hstore, hpaths.trans ?_⟩
      rw [hresult]
      cases (write ((store.set l (.file f.2.toUTF8)).setAll (placed store directory done)) directory rest).2.result <;>
        rfl

/-- What a writing that fails leaves, if no more has been made than there was: the files before the one that fails were
there, and have their texts now. -/
theorem exists_failed_of_write {failure : Failure} (hresult : (write store directory files).2.result = .error failure)
    (hsize : (write store directory files).1.entries.length ≤ store.entries.length) :
    ∃ done f rest, files = done ++ f :: rest ∧ (∀ g ∈ done, store.isFile (directory.join g.1) = .ok true) ∧
      (write store directory files).1 = store.setAll (placed store directory done) ∧
      Fails (store.setAll (placed store directory done)) (directory.join f.1) ∧
      ((store.setAll (placed store directory done)).makeDirectory (directory.join f.1).parent).1 =
        store.setAll (placed store directory done) := by
  induction files generalizing store with
  | nil => cases hresult
  | cons f files ih =>
    have hmade := makeDirectory_eq_or_size store (directory.join f.1).parent
    rcases write_cons store directory f files with ⟨hfails, hafter, -⟩ | ⟨made, l, hmake, hl, hplace, hafter, hpaths⟩
    · rw [hafter] at hsize
      have hself := hmade.resolve_right (by omega)
      exact ⟨[], f, files, rfl, by simp, hafter.trans hself, hfails, hself⟩
    · rw [hmake] at hmade
      rw [hpaths, map_eq_error_iff] at hresult
      have hset := size_set_le made l (.file f.2.toUTF8)
      have hrest := (grows_write (made.set l (.file f.2.toUTF8)) directory files).size
      rw [hafter] at hsize
      -- neither a directory nor the file can be new, as nothing takes entries away again
      obtain rfl : made = store := hmade.resolve_right (by simp only; omega)
      obtain ⟨old, hold⟩ : ∃ old, made.find? l = some (.file old) := by
        refine hplace.resolve_left fun hnone => ?_
        have hmore := size_set_of_missing hnone (.file f.2.toUTF8)
        omega
      have hback := grows_of_set_file hold f.2.toUTF8
      have hsmall : (write (made.set l (.file f.2.toUTF8)) directory files).1.entries.length ≤
          (made.set l (.file f.2.toUTF8)).entries.length := by omega
      -- so the first file was there, and the files before the one that fails are where they were before it was written
      obtain ⟨done, g, rest, rfl, hdone, hwritten, hfails⟩ := ih hresult hsmall
      rw [← placed_of_grows hback hdone, ← setAll_cons made (l, .file f.2.toUTF8), ← placed_cons hl]
        at hwritten hfails
      refine ⟨f :: done, g, rest, rfl, List.forall_mem_cons.2 ⟨?_, fun g hg => hback.isFile (hdone g hg)⟩,
        hafter.trans hwritten, hfails⟩
      exact isFile_eq_true_iff.2 ⟨l, old, hl, hold⟩

/-- What a writing that comes to its end leaves: every file is there, what is in a place is what was written there in
the end, and where nothing was written is what was there. -/
structure IsWritten (store : Store) (directory : FilePath) (files : FileTexts) (after : Store) : Prop where
  grows : store.Grows after
  present : ∀ f ∈ files, after.isFile (directory.join f.1) = .ok true
  written : ∀ l e, lastWritten after directory files l = some e → after.find? l = some e
  kept : ∀ l e, lastWritten after directory files l = none → store.find? l = some e → after.find? l = some e

/-- The first file is written over by the others or holds its text in the end. -/
theorem IsWritten.cons {f : FilePath × String} {made after : Store} {l : Location}
    (hmake : store.makeDirectory (directory.join f.1).parent = (made, .ok ()))
    (hl : made.locate (directory.join f.1) = .ok l)
    (hplace : made.find? l = none ∨ ∃ old, made.find? l = some (.file old))
    (h : IsWritten (made.set l (.file f.2.toUTF8)) directory files after) :
    IsWritten store directory (f :: files) after := by
  have hmade := grows_makeDirectory store (directory.join f.1).parent
  rw [hmake] at hmade
  have hset := grows_set_file hplace f.2.toUTF8
  have hne : l ≠ [] := hplace.elim ne_nil_of_missing fun ⟨_, hold⟩ => ne_nil_of_file hold
  have hhere : (made.set l (.file f.2.toUTF8)).find? l = some (.file f.2.toUTF8) := by
    rw [find?_set hne, if_pos rfl]
  have hlast : ∀ k, lastWritten after directory (f :: files) k =
      (lastWritten after directory files k).or (if k = l then some (.file f.2.toUTF8) else none) :=
    lastWritten_cons (h.grows.locate (hset.locate hl))
  refine ⟨hmade.trans (hset.trans h.grows), List.forall_mem_cons.2 ⟨?_, h.present⟩, fun k e hk => ?_,
    fun k e hk hold => ?_⟩
  · exact h.grows.isFile (isFile_eq_true_iff.2 ⟨l, _, hset.locate hl, hhere⟩)
  · rw [hlast] at hk
    cases hothers : lastWritten after directory files k with
    | some e' =>
      rw [hothers] at hk
      cases hk
      exact h.written k e hothers
    | none =>
      -- the others leave the place alone
      rw [hothers, Option.none_or] at hk
      split at hk
      · rename_i hkl
        cases hk
        exact h.kept k _ hothers (hkl ▸ hhere)
      · cases hk
  · rw [hlast, Option.or_eq_none_iff] at hk
    have hkl : k ≠ l := fun hkl => by simp [hkl] at hk
    refine h.kept k e hk.1 ?_
    rw [find?_set hne, if_neg hkl, ← (Prod.mk.inj hmake).1]
    exact find?_makeDirectory _ hold

theorem isWritten_of_write {paths : List FilePath} (h : (write store directory files).2.result = .ok paths) :
    IsWritten store directory files (write store directory files).1 := by
  induction files generalizing store paths with
  | nil => exact ⟨Grows.refl store, by simp, fun _ _ hl => (by cases hl), fun _ _ _ hl => hl⟩
  | cons f files ih =>
    rcases write_cons store directory f files with ⟨-, -, failure, hfailed⟩ | ⟨made, l, hmake, hl, hplace, hafter, hpaths⟩
    · rw [hfailed] at h
      cases h
    · rw [hpaths] at h
      obtain ⟨rest, hrest, -⟩ := map_eq_ok_iff.1 h
      rw [hafter]
      exact .cons hmake hl hplace (ih hrest)

/-- A file holds what it held exactly if what is written in its place in the end, if anything is, is the same. -/
theorem IsWritten.read_iff {after : Store} (h : IsWritten store directory files after) {p : FilePath} {l : Location}
    {bytes : ByteArray} (hl : after.locate p = .ok l) (hold : store.find? l = some (.file bytes)) :
    after.read p = .ok bytes ↔ ∀ e, lastWritten after directory files l = some e → e = .file bytes := by
  have hread : after.read p = .ok bytes ↔ after.find? l = some (.file bytes) := by
    rw [read_eq_ok_iff]
    constructor
    · rintro ⟨k, hk, hfile⟩
      obtain rfl : l = k := Except.ok.inj (hl.symm.trans hk)
      exact hfile
    · exact fun hfile => ⟨l, hl, hfile⟩
  rw [hread]
  cases hlast : lastWritten after directory files l with
  | none => simp [h.kept l _ hlast hold]
  | some e => simp [h.written l e hlast]

/-- What was written is written again to no effect. -/
theorem write_of_isWritten {after : Store} (h : IsWritten store directory files after) :
    (write after directory files).1 = after ∧
      (write after directory files).2.result = .ok (files.map fun f => directory.join f.1) := by
  have hagain := write_append_of_isFile [] h.present
  rw [List.append_nil, setAll_eq_self (ne_nil_of_placed h.present) h.written] at hagain
  refine ⟨hagain.1, hagain.2.trans ?_⟩
  exact congrArg Except.ok (List.append_nil _)

theorem result_of_write {paths : List FilePath} (h : (write store directory files).2.result = .ok paths) :
    paths = files.map fun f => directory.join f.1 := by
  induction files generalizing store paths with
  | nil =>
    cases h
    rfl
  | cons f files ih =>
    rcases write_cons store directory f files with ⟨-, -, failure, hfailed⟩ | ⟨made, l, -, -, -, -, hpaths⟩
    · rw [hfailed] at h
      cases h
    · rw [hpaths] at h
      obtain ⟨rest, hrest, rfl⟩ := map_eq_ok_iff.1 h
      rw [ih hrest, List.map_cons]

theorem notes_write (store : Store) (directory : FilePath) (files : FileTexts) :
    ∀ n ∈ (write store directory files).2.notes, ∃ p, n = .wrote p := by
  induction files generalizing store with
  | nil => simp [write]
  | cons f files ih =>
    obtain ⟨p, text⟩ := f
    rw [write]
    split
    · simp [Traced.fail]
    · rename_i made hmake
      split
      · simp [Traced.fail]
      · rename_i after hafter
        have hnotes : ∀ others : Traced (List FilePath), (do
            Traced.note (.wrote (directory.join p))
            let paths ← others
            return directory.join p :: paths).notes = .wrote (directory.join p) :: others.notes := by
          rintro ⟨ns, r⟩
          cases r with
          | error failure => rfl
          | ok paths => exact congrArg _ (List.append_nil ns)
        rw [hnotes]
        exact List.forall_mem_cons.2 ⟨⟨_, rfl⟩, ih after⟩

end TwinModule.Layout
