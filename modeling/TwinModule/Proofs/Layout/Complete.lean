import Mathlib
import TwinModule.Proofs.Layout.Places
/-!
Whether every module has a file of its own. The texts of a layout are in the places of its sheets, so that there are as
many of them as there are modules exactly if no place is taken twice.
-/
set_option autoImplicit false

namespace TwinModule

namespace FileTexts

theorem mem_keys_update {fs gs : FileTexts} {p : FilePath} :
    p ∈ (update fs gs).map Prod.fst ↔ p ∈ fs.map Prod.fst ∨ p ∈ gs.map Prod.fst := by
  induction gs generalizing fs with
  | nil => simp [update]
  | cons g gs ih =>
    rw [update, List.foldl_cons, ← update, ih, mem_keys_put, List.map_cons, List.mem_cons]
    tauto

theorem nodup_keys_update {fs gs : FileTexts} (h : (fs.map Prod.fst).Nodup) : ((update fs gs).map Prod.fst).Nodup := by
  induction gs generalizing fs with
  | nil => exact h
  | cons g gs ih => exact ih (nodup_keys_put h)

end FileTexts

mutual

/-- How many modules there are in a statement, itself among them, in whatever blocks they stand. -/
def Stmt.moduleCount : Stmt → Nat
  | .simple .. | .comment _ => 0
  | .block _ (.module_ _) body => stmtsModuleCount body + 1
  | .block _ _ body => stmtsModuleCount body
  | .branch _ _ body orelse => stmtsModuleCount body + stmtsModuleCount orelse
  | .attempt _ _ body handlers orelse finalbody =>
    stmtsModuleCount body + handlersModuleCount handlers + stmtsModuleCount orelse + stmtsModuleCount finalbody
  | .select _ _ cases => casesModuleCount cases

def stmtsModuleCount : List Stmt → Nat
  | [] => 0
  | s :: ss => s.moduleCount + stmtsModuleCount ss

def handlersModuleCount : List Handler → Nat
  | [] => 0
  | .comment _ :: hs => handlersModuleCount hs
  | .handler _ _ _ body :: hs => stmtsModuleCount body + handlersModuleCount hs

def casesModuleCount : List Case → Nat
  | [] => 0
  | .comment _ :: cs => casesModuleCount cs
  | .case _ _ _ body :: cs => stmtsModuleCount body + casesModuleCount cs

end

/-- How many modules a tree has, itself among them. -/
def Tree.moduleCount : Tree → Nat
  | .file body => stmtsModuleCount body
  | .module_ _ _ body => stmtsModuleCount body + 1

mutual

/-- In a converted tree there are no modules in other statements. -/
theorem moduleCount_of_converted : (s : Stmt) → s.Obeys .converted false → s.moduleCount = 0
  | .simple .., _ | .comment _, _ => rfl
  | .block _ (.module_ _) _, ⟨hs, _⟩ => absurd (hs.2 rfl).1 (by simp)
  | .block _ (.function ..) body, ⟨_, _, hb⟩ | .block _ (.class_ ..) body, ⟨_, _, hb⟩
  | .block _ (.with_ ..) body, ⟨_, _, hb⟩ => stmtsModuleCount_of_converted body hb
  | .branch _ _ body orelse, ⟨_, ⟨_, hb⟩, _, ho⟩ => by
    rw [Stmt.moduleCount, stmtsModuleCount_of_converted body hb, stmtsModuleCount_of_converted orelse ho]
  | .attempt _ _ body handlers orelse finalbody, ⟨_, ⟨_, hb⟩, hh, ⟨_, ho⟩, _, hf⟩ => by
    rw [Stmt.moduleCount, stmtsModuleCount_of_converted body hb, handlersModuleCount_of_converted handlers hh,
      stmtsModuleCount_of_converted orelse ho, stmtsModuleCount_of_converted finalbody hf]
  | .select _ _ cases, ⟨_, hc⟩ => casesModuleCount_of_converted cases hc

theorem stmtsModuleCount_of_converted : (ss : List Stmt) → stmtsObey .converted false ss → stmtsModuleCount ss = 0
  | [], _ => rfl
  | s :: ss, ⟨hs, hss⟩ => by
    rw [stmtsModuleCount, moduleCount_of_converted s hs, stmtsModuleCount_of_converted ss hss]

theorem handlersModuleCount_of_converted : (hs : List Handler) → handlersObey .converted hs →
    handlersModuleCount hs = 0
  | [], _ => rfl
  | .comment _ :: hs, ⟨_, hhs⟩ => handlersModuleCount_of_converted hs hhs
  | .handler _ _ _ body :: hs, ⟨⟨_, hb⟩, hhs⟩ => by
    rw [handlersModuleCount, stmtsModuleCount_of_converted body hb, handlersModuleCount_of_converted hs hhs]

theorem casesModuleCount_of_converted : (cs : List Case) → casesObey .converted cs → casesModuleCount cs = 0
  | [], _ => rfl
  | .comment _ :: cs, ⟨_, hcs⟩ => casesModuleCount_of_converted cs hcs
  | .case _ _ _ body :: cs, ⟨⟨_, hb⟩, hcs⟩ => by
    rw [casesModuleCount, stmtsModuleCount_of_converted body hb, casesModuleCount_of_converted cs hcs]

end

namespace Layout

theorem moduleCount_of_role {s : Stmt} (hr : s.role ≠ .module_) (h : s.Obeys .converted true) : s.moduleCount = 0 :=
  moduleCount_of_converted s (h.move fun hreal => ⟨(h.stmt hreal).1, fun e => absurd e hr⟩)

mutual

/-- In a converted tree every module has a sheet. -/
theorem length_stmtSheets (parent : FilePath) : (s : Stmt) → s.Obeys .converted true →
    (stmtSheets parent s).length = s.moduleCount
  | .block _ (.module_ name) body, ⟨_, _, hb⟩ => by
    rw [stmtSheets, Stmt.moduleCount, List.length_append, length_stmtsSheets (parent.child name) body hb]
    rfl
  | .simple info what, h => (moduleCount_of_role (by cases what <;> simp [Stmt.role, Simple.role]) h).symm
  | .comment _, h | .block _ (.function ..) _, h | .block _ (.class_ ..) _, h | .block _ (.with_ ..) _, h
  | .branch .., h | .attempt .., h | .select .., h =>
    (moduleCount_of_role (by simp [Stmt.role, BlockHead.role]) h).symm

theorem length_stmtsSheets (parent : FilePath) : (ss : List Stmt) → stmtsObey .converted true ss →
    (stmtsSheets parent ss).length = stmtsModuleCount ss
  | [], _ => rfl
  | s :: ss, ⟨hs, hss⟩ => by
    rw [stmtsSheets, stmtsModuleCount, List.length_append, length_stmtSheets parent s hs,
      length_stmtsSheets parent ss hss]

end

theorem length_sheets {info : Info} {name : String} {body : List Stmt}
    (h : (Tree.module_ info name body).Obeys .converted) :
    (sheets name (.module_ info name body)).length = (Tree.module_ info name body).moduleCount := by
  rw [sheets, stmtSheets, List.length_append, length_stmtsSheets _ _ h.body]
  rfl

variable {source : String}

/-- The places of the texts are those of the sheets, each of them once. -/
def Covers (files : FileTexts) (sheets : List Sheet) : Prop :=
  (files.map Prod.fst).Nodup ∧ ∀ p, p ∈ files.map Prod.fst ↔ p ∈ sheets.map Prod.fst

theorem Covers.put {files : FileTexts} {sheets : List Sheet} (h : Covers files sheets) (sheet : Sheet) (text : String) :
    Covers (files.put sheet.1 text) (sheets ++ [sheet]) := by
  refine ⟨FileTexts.nodup_keys_put h.1, fun p => ?_⟩
  rw [FileTexts.mem_keys_put, h.2, List.map_append, List.mem_append, List.map_singleton, List.mem_singleton, or_comm]

theorem Covers.update {files files' : FileTexts} {sheets sheets' : List Sheet} (h : Covers files sheets)
    (h' : Covers files' sheets') : Covers (files.update files') (sheets ++ sheets') := by
  refine ⟨FileTexts.nodup_keys_update h.1, fun p => ?_⟩
  rw [FileTexts.mem_keys_update, h.2, h'.2, List.map_append, List.mem_append]

theorem covers_nil : Covers [] [] := ⟨List.nodup_nil, fun _ => Iff.rfl⟩

mutual

theorem covers_stmtFiles {parent : FilePath} {files : FileTexts} :
    (s : Stmt) → stmtFiles source parent s = .ok files → Covers files (stmtSheets parent s)
  | .block _ (.module_ name) body, h => by
    simp only [stmtFiles, bind_eq_ok_iff] at h
    obtain ⟨inner, hinner, text, -, h⟩ := h
    cases h
    exact (covers_stmtsFiles body hinner).put (ownPath parent name body, ownStatements body) text
  | .simple .., h | .comment _, h | .block _ (.function ..) _, h | .block _ (.class_ ..) _, h
  | .block _ (.with_ ..) _, h | .branch .., h | .attempt .., h | .select .., h => by
    cases h
    exact covers_nil

theorem covers_stmtsFiles {parent : FilePath} {files : FileTexts} :
    (ss : List Stmt) → stmtsFiles source parent ss = .ok files → Covers files (stmtsSheets parent ss)
  | [], h => by
    cases h
    exact covers_nil
  | s :: ss, h => by
    simp only [stmtsFiles, bind_eq_ok_iff] at h
    obtain ⟨first, hfirst, rest, hrest, h⟩ := h
    cases h
    exact (covers_stmtFiles s hfirst).update (covers_stmtsFiles ss hrest)

end

/-- Whether all statements of a layout can be printed. -/
def AllPrint (source : String) (sheets : List Sheet) : Prop :=
  ∀ sheet ∈ sheets, ∃ text, sheetText source sheet.2 = .ok text

theorem allPrint_append {sheets sheets' : List Sheet} :
    AllPrint source (sheets ++ sheets') ↔ AllPrint source sheets ∧ AllPrint source sheets' :=
  List.forall_mem_append

mutual

/-- There is a layout exactly if everything in it can be printed. -/
theorem exists_stmtFiles_iff {parent : FilePath} : (s : Stmt) →
    ((∃ files, stmtFiles source parent s = .ok files) ↔ AllPrint source (stmtSheets parent s))
  | .block _ (.module_ name) body => by
    rw [stmtSheets, allPrint_append, ← exists_stmtsFiles_iff body]
    simp only [stmtFiles, bind_eq_ok_iff, AllPrint, List.forall_mem_singleton]
    constructor
    · rintro ⟨_, inner, hinner, text, htext, -⟩
      exact ⟨⟨inner, hinner⟩, text, htext⟩
    · rintro ⟨⟨inner, hinner⟩, text, htext⟩
      exact ⟨_, inner, hinner, text, htext, rfl⟩
  | .simple .. | .comment _ | .block _ (.function ..) _ | .block _ (.class_ ..) _
  | .block _ (.with_ ..) _ | .branch .. | .attempt .. | .select .. => by simp [stmtFiles, stmtSheets, AllPrint]

theorem exists_stmtsFiles_iff {parent : FilePath} : (ss : List Stmt) →
    ((∃ files, stmtsFiles source parent ss = .ok files) ↔ AllPrint source (stmtsSheets parent ss))
  | [] => by simp [stmtsFiles, stmtsSheets, AllPrint]
  | s :: ss => by
    rw [stmtsSheets, allPrint_append, ← exists_stmtFiles_iff s, ← exists_stmtsFiles_iff ss]
    simp only [stmtsFiles, bind_eq_ok_iff]
    constructor
    · rintro ⟨_, first, hfirst, rest, hrest, -⟩
      exact ⟨⟨first, hfirst⟩, rest, hrest⟩
    · rintro ⟨⟨first, hfirst⟩, rest, hrest⟩
      exact ⟨_, first, hfirst, rest, hrest, rfl⟩

end

/-- Every module has a file of its own: no two are in one place, there are as many texts as modules, and the one in the
place of a module is what its own statements are printed to, with imports for the modules in it. -/
structure Complete (source name : String) (t : Tree) (texts : FileTexts) : Prop where
  distinct : ((sheets name t).map Prod.fst).Nodup
  count : texts.length = t.moduleCount
  text : ∀ sheet ∈ sheets name t, ∃ text, sheetText source sheet.2 = .ok text ∧ (sheet.1, text) ∈ texts

theorem eq_of_path_eq {sheets : List Sheet} (h : (sheets.map Prod.fst).Nodup) {a b : Sheet} (ha : a ∈ sheets)
    (hb : b ∈ sheets) (hab : a.1 = b.1) : a = b :=
  List.inj_on_of_nodup_map h ha hb hab

/-- Where no place is taken twice, no module is lost. -/
theorem complete_of_nodup {info : Info} {name : String} {body : List Stmt} {texts : FileTexts}
    (hobeys : (Tree.module_ info name body).Obeys .converted)
    (h : files source ⟨.relative, []⟩ name body = .ok texts)
    (hdistinct : ((sheets name (.module_ info name body)).map Prod.fst).Nodup) :
    Complete source name (.module_ info name body) texts := by
  obtain ⟨hnodup, hkeys⟩ := covers_stmtFiles _ (files_eq_ok_iff.1 h)
  have hprinted := @isPrinted_of_files _ _ (.module_ info name body) _ h
  refine ⟨hdistinct, ?_, fun sheet hsheet => ?_⟩
  · have hperm : (texts.map Prod.fst).Perm ((sheets name (.module_ info name body)).map Prod.fst) :=
      (List.perm_ext_iff_of_nodup hnodup hdistinct).2 hkeys
    calc texts.length = (texts.map Prod.fst).length := (List.length_map ..).symm
      _ = ((sheets name (.module_ info name body)).map Prod.fst).length := hperm.length_eq
      _ = (Tree.module_ info name body).moduleCount := by rw [List.length_map, length_sheets hobeys]
  · obtain ⟨f, hf, hpath⟩ := List.mem_map.1 ((hkeys sheet.1).2 (List.mem_map_of_mem hsheet))
    obtain ⟨sheet', hsheet', hpath', htext⟩ := hprinted f hf
    obtain rfl : sheet' = sheet := eq_of_path_eq hdistinct hsheet' hsheet (hpath'.trans hpath)
    exact ⟨f.2, htext, by rw [← hpath]; exact hf⟩

/-- The tree is laid out with a file for each module exactly if everything can be printed and the modules are told apart
by their names. -/
theorem exists_complete_iff {info : Info} {name : String} {body : List Stmt} (hname : IsIdentifier name)
    (hnamed : stmtsModules IsNamed body) (hobeys : (Tree.module_ info name body).Obeys .converted) :
    (∃ texts, files source ⟨.relative, []⟩ name body = .ok texts ∧
        Complete source name (.module_ info name body) texts) ↔
      AllPrint source (sheets name (.module_ info name body)) ∧
        (Stmt.block ⟨Span.unset, []⟩ (.module_ name) body).Apart := by
  have hpaths := paths_stmtSheets ⟨.relative, []⟩ (.block ⟨Span.unset, []⟩ (.module_ name) body) ⟨hname, hnamed⟩
  have hnodup : ((sheets name (.module_ info name body)).map Prod.fst).Nodup ↔
      (Stmt.block ⟨Span.unset, []⟩ (.module_ name) body).Apart := by
    rw [sheets, Tree.body, hpaths, List.nodup_map_iff (placeIn_injective _), nodup_stmtPlaces_iff]
  rw [← hnodup]
  constructor
  · rintro ⟨texts, h, hcomplete⟩
    exact ⟨(exists_stmtFiles_iff _).1 ⟨texts, files_eq_ok_iff.1 h⟩, hcomplete.distinct⟩
  · rintro ⟨hprint, hdistinct⟩
    obtain ⟨texts, h⟩ := (exists_stmtFiles_iff (.block ⟨Span.unset, []⟩ (.module_ name) body)).2 hprint
    exact ⟨texts, files_eq_ok_iff.2 h, complete_of_nodup hobeys (files_eq_ok_iff.2 h) hdistinct⟩

end Layout

end TwinModule
