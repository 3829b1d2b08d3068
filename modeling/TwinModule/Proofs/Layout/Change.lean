import Mathlib
import TwinModule.Proofs.Files.Made
import TwinModule.Proofs.Files.Real
import TwinModule.Proofs.Files.Written
import TwinModule.Proofs.Layout.Complete
/-!
How a store differs once a layout is written. The paths of a layout are different and stay below the directory, so that
without links there no file is written over another one: each of them is there with its text, and besides them only
directories are new.
-/
set_option autoImplicit false

namespace TwinModule

/-- The paths are different ones, and each leads from a directory to something below it. -/
structure FileTexts.Plain (files : FileTexts) : Prop where
  distinct : (files.map Prod.fst).Nodup
  relative : ∀ f ∈ files, f.1.root = .relative
  straight : ∀ f ∈ files, ".." ∉ f.1.names

namespace Layout
open Store

section

variable {name source : String} {body : List Stmt} {place : List String}

theorem ne_up_of_isIdentifier (h : IsIdentifier name) : ".." ≠ name := by
  rintro rfl
  exact absurd (Text.dot_not_mem_of_isIdentifier h) (by simp)

theorem up_not_mem_ownPlace (h : IsIdentifier name) (body : List Stmt) : ".." ∉ ownPlace name body := by
  have hsource : ".." ≠ name ++ Library.sourceSuffix := by
    intro e
    have hlength := congrArg String.length e
    rw [String.length_append] at hlength
    have hsuffix : Library.sourceSuffix.length = 3 := by decide
    have hup : "..".length = 2 := by decide
    omega
  have hpackage : ".." ≠ Library.packageFile := by decide
  unfold ownPlace
  split
  · simpa using hsource
  · simpa using ⟨ne_up_of_isIdentifier h, hpackage⟩

mutual

/-- No file of a module is outside of its directory. -/
theorem up_not_mem_stmtPlaces : (s : Stmt) → s.Modules IsNamed → ∀ place ∈ stmtPlaces s, ".." ∉ place
  | .block _ (.module_ name) body, h => by
    intro place hplace
    rcases List.mem_append.1 hplace with hplace | hplace
    · obtain ⟨rest, hrest, rfl⟩ := List.mem_map.1 hplace
      rw [List.mem_cons, not_or]
      exact ⟨ne_up_of_isIdentifier h.1, up_not_mem_stmtsPlaces body h.2 rest hrest⟩
    · rw [List.mem_singleton.1 hplace]
      exact up_not_mem_ownPlace h.1 body
  | .simple .., _ | .comment _, _ | .block _ (.function ..) _, _ | .block _ (.class_ ..) _, _
  | .block _ (.with_ ..) _, _ | .branch .., _ | .attempt .., _ | .select .., _ => by simp [stmtPlaces]

theorem up_not_mem_stmtsPlaces : (ss : List Stmt) → stmtsModules IsNamed ss → ∀ place ∈ stmtsPlaces ss, ".." ∉ place
  | [], _ => by simp [stmtsPlaces]
  | s :: ss, h => by
    intro place hplace
    rcases List.mem_append.1 hplace with hplace | hplace
    · exact up_not_mem_stmtPlaces s h.1 place hplace
    · exact up_not_mem_stmtsPlaces ss h.2 place hplace

end

/-- The paths of a layout are plain. -/
theorem plain_of_files {texts : FileTexts} (hname : IsIdentifier name) (hnamed : stmtsModules IsNamed body)
    (h : files source ⟨.relative, []⟩ name body = .ok texts) : texts.Plain := by
  have hmodules : (Stmt.block ⟨Span.unset, []⟩ (.module_ name) body).Modules IsNamed := ⟨hname, hnamed⟩
  obtain ⟨hnodup, hkeys⟩ := covers_stmtFiles _ (files_eq_ok_iff.1 h)
  have hplace : ∀ f ∈ texts, ∃ place, ".." ∉ place ∧ placeIn ⟨.relative, []⟩ place = f.1 := by
    intro f hf
    have hsheet := (hkeys f.1).1 (List.mem_map_of_mem hf)
    rw [paths_stmtSheets _ _ hmodules] at hsheet
    obtain ⟨place, hplace, hpath⟩ := List.mem_map.1 hsheet
    exact ⟨place, up_not_mem_stmtPlaces _ hmodules place hplace, hpath⟩
  refine ⟨hnodup, fun f hf => ?_, fun f hf => ?_⟩
  · obtain ⟨place, -, hpath⟩ := hplace f hf
    rw [← hpath]
    rfl
  · obtain ⟨place, hup, hpath⟩ := hplace f hf
    rw [← hpath]
    exact hup

end

theorem plain_update {files files' : FileTexts} (h : files.Plain) (h' : files'.Plain) : (files.update files').Plain where
  distinct := FileTexts.nodup_keys_update h.distinct
  relative f hf := (FileTexts.mem_update hf).elim (h.relative f) (h'.relative f)
  straight f hf := (FileTexts.mem_update hf).elim (h.straight f) (h'.straight f)

variable {store : Store} {directory : FilePath} {files : FileTexts} {paths : List FilePath}

/-- A directory that one of the files is in, however deep below it. -/
def IsNeeded (directory : FilePath) (files : FileTexts) (q : FilePath) : Prop :=
  ∃ f ∈ files, q.IsAbove (directory.join f.1).parent

/-- A writing that comes to its end changes nothing but the places of the files, and makes the directories they are
in. -/
theorem changed_of_write (h : (write store directory files).2.result = .ok paths) (l : Location) :
    (∃ f ∈ files, (write store directory files).1.locate (directory.join f.1) = .ok l) ∨
      IsKeptOrMade store (write store directory files).1 (IsNeeded directory files) l := by
  induction files generalizing store paths with
  | nil => exact .inr (.inl rfl)
  | cons f files ih =>
    rcases write_cons store directory f files with ⟨-, -, failure, hfailed⟩ | ⟨made, k, hmake, hk, hplace, hafter, hpaths⟩
    · rw [hfailed] at h
      cases h
    · rw [hpaths] at h
      obtain ⟨rest, hrest, -⟩ := map_eq_ok_iff.1 h
      have hgrows := grows_write (made.set k (.file f.2.toUTF8)) directory files
      rw [hafter]
      by_cases hl : l = k
      · subst hl
        exact .inl ⟨f, List.mem_cons_self .., hgrows.locate ((grows_set_file hplace _).locate hk)⟩
      · have hset : (made.set k (.file f.2.toUTF8)).find? l = made.find? l := by
          have hne : k ≠ [] := hplace.elim ne_nil_of_missing fun ⟨_, hold⟩ => ne_nil_of_file hold
          rw [find?_set hne, if_neg hl]
        have hmade : IsKeptOrMade store made (IsNeeded directory (f :: files)) l := by
          have hkept := isKeptOrMade_makeDirectory store (directory.join f.1).parent l
          rw [hmake] at hkept
          exact hkept.mono fun q hq => ⟨f, List.mem_cons_self .., hq⟩
        rcases ih hrest with ⟨g, hg, hlocate⟩ | hkept
        · exact .inl ⟨g, List.mem_cons_of_mem _ hg, hlocate⟩
        · have hneeded : ∀ q, IsNeeded directory files q → IsNeeded directory (f :: files) q := by
            rintro q ⟨g, hg, hq⟩
            exact ⟨g, List.mem_cons_of_mem _ hg, hq⟩
          exact .inr ((hmade.trans (.inl hset) (grows_set_file hplace _)).trans (hkept.mono hneeded) hgrows)

/-- The places of plain paths are different ones, if there are no links below the directory. -/
theorem eq_of_locate_eq (hplain : files.Plain) (hfree : store.LinkFreeBelow directory) {after : Store}
    (hgrows : store.Grows after) {f g : FilePath × String} (hf : f ∈ files) (hg : g ∈ files) {l : Location}
    (hlf : after.locate (directory.join f.1) = .ok l) (hlg : after.locate (directory.join g.1) = .ok l) : f = g := by
  have hrelative := hplain.relative f hf
  obtain ⟨here, hreal, hbelow⟩ := hfree.locate hgrows hrelative (hplain.straight f hf) hlf
  obtain ⟨here', hreal', hbelow'⟩ := hfree.locate hgrows (hplain.relative g hg) (hplain.straight g hg) hlg
  obtain ⟨⟩ : Except.ok _ = Except.ok _ := hreal.symm.trans hreal'
  have hnames : f.1.names = g.1.names := List.append_cancel_left (hbelow.symm.trans hbelow')
  have hpath : f.1 = g.1 := by
    rw [FilePath.mk.injEq]
    exact ⟨hrelative.trans (hplain.relative g hg).symm, hnames⟩
  exact List.inj_on_of_nodup_map hplain.distinct hf hg hpath

/-- No file is written over another one. -/
theorem read_of_write (hplain : files.Plain) (hfree : store.LinkFreeBelow directory)
    (h : (write store directory files).2.result = .ok paths) {f : FilePath × String} (hf : f ∈ files) :
    (write store directory files).1.read (directory.join f.1) = .ok f.2.toUTF8 := by
  have hwritten := isWritten_of_write h
  obtain ⟨l, bytes, hl, -⟩ := isFile_eq_true_iff.1 (hwritten.present f hf)
  have hmem : (l, .file f.2.toUTF8) ∈ placed (write store directory files).1 directory files :=
    mem_placed_iff.2 ⟨f, hf, hl, rfl⟩
  cases hlast : lastWritten (write store directory files).1 directory files l with
  | none =>
    rw [lastWritten, List.lookup_eq_none_iff] at hlast
    exact absurd (hlast _ (List.mem_reverse.2 hmem)) (by simp)
  | some e =>
    -- what is written there in the end is the text of a file in the same place, which is this one
    obtain ⟨g, hg, hlg, rfl⟩ := mem_placed_iff.1 (List.mem_reverse.1 (mem_of_lookup hlast))
    obtain rfl := eq_of_locate_eq hplain hfree hwritten.grows hf hg hl hlg
    exact read_eq_ok_iff.2 ⟨l, hl, hwritten.written l _ hlast⟩

/-- One store differs from the other by files below a directory: they are there, and besides them only directories that
they are in are new. -/
structure DiffersBy (store : Store) (directory : FilePath) (files : FileTexts) (after : Store) : Prop where
  written : ∀ f ∈ files, after.read (directory.join f.1) = .ok f.2.toUTF8
  others : ∀ l, (∃ f ∈ files, after.locate (directory.join f.1) = .ok l) ∨
    IsKeptOrMade store after (IsNeeded directory files) l

theorem differsBy_of_write (hplain : files.Plain) (hfree : store.LinkFreeBelow directory)
    (h : (write store directory files).2.result = .ok paths) :
    DiffersBy store directory files (write store directory files).1 where
  written _ hf := read_of_write hplain hfree h hf
  others := changed_of_write h

end Layout

end TwinModule
