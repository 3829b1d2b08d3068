import Mathlib
import TwinModule.Proofs.Layout
import TwinModule.Proofs.Tree.Modules
/-!
Where the files of a module are, by the names that follow the directory it is laid out in. A module's own file is told
from those of the modules in it and from those of its neighbours by these names, unless two neighbours are of one name
and one kind, or one of them is called like the file of the package.
-/
set_option autoImplicit false

namespace TwinModule

namespace FilePath

theorem rootOf_of_slash_not_mem {cs : List Char} (h : '/' ∉ cs) : rootOf cs = .relative := by
  unfold rootOf
  split <;> simp_all

/-- A name that has no slash and is kept is a path of its own. -/
theorem read_of_isKept {text : String} (hslash : '/' ∉ text.toList) (hkept : isKept text = true) :
    read text = ⟨.relative, [text]⟩ := by
  simp [read, rootOf_of_slash_not_mem hslash, Text.parts, Text.cut_of_not_mem hslash, hkept]

theorem child_of_isKept (p : FilePath) {text : String} (hslash : '/' ∉ text.toList) (hkept : isKept text = true) :
    p.child text = ⟨p.root, p.names ++ [text]⟩ := by
  rw [child, read_of_isKept hslash hkept]
  rfl

theorem isKept_of_isIdentifier {name : String} (h : IsIdentifier name) : isKept name = true := by
  simp only [isKept, Bool.and_eq_true, bne_iff_ne]
  constructor
  · rintro rfl
    exact absurd h (by simp [IsIdentifier, Text.isIdentifier])
  · rintro rfl
    exact absurd (Text.dot_not_mem_of_isIdentifier h) (by simp)

theorem child_of_isIdentifier (p : FilePath) {name : String} (h : IsIdentifier name) :
    p.child name = ⟨p.root, p.names ++ [name]⟩ :=
  p.child_of_isKept (Text.slash_not_mem_of_isIdentifier h) (isKept_of_isIdentifier h)

theorem child_sourceFile (p : FilePath) {name : String} (h : IsIdentifier name) :
    p.child (name ++ Library.sourceSuffix) = ⟨p.root, p.names ++ [name ++ Library.sourceSuffix]⟩ := by
  refine p.child_of_isKept ?_ ?_
  · rw [String.toList_append, List.mem_append, not_or]
    exact ⟨Text.slash_not_mem_of_isIdentifier h, by decide⟩
  · have hlength : ∀ s : String, s.length ≤ 1 → name ++ Library.sourceSuffix ≠ s := by
      rintro _ hs rfl
      rw [String.length_append] at hs
      exact absurd (Nat.le_trans (Nat.le_add_left ..) hs) (by decide)
    simp only [isKept, Bool.and_eq_true, bne_iff_ne]
    exact ⟨hlength "" (by decide), hlength "." (by decide)⟩

theorem child_packageFile (p : FilePath) :
    p.child Library.packageFile = ⟨p.root, p.names ++ [Library.packageFile]⟩ :=
  p.child_of_isKept (by decide) (by decide)

end FilePath

namespace Layout

/-- The names that lead to a module's own file. -/
def ownPlace (name : String) (body : List Stmt) : List String :=
  if (submodules body).isEmpty then [name ++ Library.sourceSuffix] else [name, Library.packageFile]

mutual

/-- The names that lead to the files of a statement, if it is a module. -/
def stmtPlaces : Stmt → List (List String)
  | .block _ (.module_ name) body => (stmtsPlaces body).map (name :: ·) ++ [ownPlace name body]
  | _ => []

def stmtsPlaces : List Stmt → List (List String)
  | [] => []
  | s :: ss => stmtPlaces s ++ stmtsPlaces ss

end

/-- The place that names lead to from a directory. -/
def placeIn (parent : FilePath) (names : List String) : FilePath := ⟨parent.root, parent.names ++ names⟩

theorem placeIn_injective (parent : FilePath) : Function.Injective (placeIn parent) := by
  intro names names' h
  simpa [placeIn] using h

theorem placeIn_cons {parent : FilePath} {name : String} (h : IsIdentifier name) (names : List String) :
    placeIn (parent.child name) names = placeIn parent (name :: names) := by
  simp [placeIn, FilePath.child_of_isIdentifier _ h]

theorem ownPath_eq {parent : FilePath} {name : String} (h : IsIdentifier name) (body : List Stmt) :
    ownPath parent name body = placeIn parent (ownPlace name body) := by
  unfold ownPath ownPlace
  split
  · exact FilePath.child_sourceFile _ h
  · rw [FilePath.child_packageFile]
    exact placeIn_cons h _

mutual

/-- If the modules are called by identifiers, the files are where the names lead to. -/
theorem paths_stmtSheets (parent : FilePath) : (s : Stmt) → s.Modules IsNamed →
    (stmtSheets parent s).map Prod.fst = (stmtPlaces s).map (placeIn parent)
  | .block _ (.module_ name) body, h => by
    simp only [stmtSheets, stmtPlaces, List.map_append, List.map_map, List.map_cons, List.map_nil,
      paths_stmtsSheets (parent.child name) body h.2, ownPath_eq h.1]
    congr 2
    exact funext fun names => placeIn_cons h.1 names
  | .simple .., _ | .comment _, _ | .block _ (.function ..) _, _ | .block _ (.class_ ..) _, _
  | .block _ (.with_ ..) _, _ | .branch .., _ | .attempt .., _ | .select .., _ => rfl

theorem paths_stmtsSheets (parent : FilePath) : (ss : List Stmt) → stmtsModules IsNamed ss →
    (stmtsSheets parent ss).map Prod.fst = (stmtsPlaces ss).map (placeIn parent)
  | [], _ => rfl
  | s :: ss, h => by
    rw [stmtsSheets, stmtsPlaces, List.map_append, List.map_append, paths_stmtSheets parent s h.1,
      paths_stmtsSheets parent ss h.2]

end

end Layout

/-- The modules right in a block that have no modules in them, by name. -/
def plainNames : List Stmt → List String
  | [] => []
  | .block _ (.module_ name) body :: ss =>
    if (submodules body).isEmpty then name :: plainNames ss else plainNames ss
  | _ :: ss => plainNames ss

/-- The modules right in a block that have modules in them, by name. -/
def packageNames : List Stmt → List String
  | [] => []
  | .block _ (.module_ name) body :: ss =>
    if (submodules body).isEmpty then packageNames ss else name :: packageNames ss
  | _ :: ss => packageNames ss

/-- What a module would have to be called for its file to be called like the one of a package. -/
def packageStem : String := "__init__"

mutual

/-- Whether the modules in a module are told apart, at every depth: no two that have no modules in them are of one name,
no two that have some are, and none without modules in it is called like the file of the package. -/
def Stmt.Apart : Stmt → Prop
  | .block _ (.module_ _) body =>
    (plainNames body).Nodup ∧ (packageNames body).Nodup ∧ packageStem ∉ plainNames body ∧ stmtsApart body
  | _ => True

def stmtsApart : List Stmt → Prop
  | [] => True
  | s :: ss => s.Apart ∧ stmtsApart ss

end

namespace Layout

theorem stmtPlaces_of_not_module {s : Stmt} (h : ∀ info name body, s ≠ .block info (.module_ name) body) :
    stmtPlaces s = [] := by
  cases s with
  | block info head body =>
    cases head with
    | module_ name => exact absurd rfl (h info name body)
    | _ => rfl
  | _ => rfl

theorem stmtsPlaces_of_submodules {ss : List Stmt} (h : (submodules ss).isEmpty = true) : stmtsPlaces ss = [] := by
  fun_induction submodules ss with
  | case1 => rfl
  | case2 => simp at h
  | case3 s ss hs ih => rw [stmtsPlaces, stmtPlaces_of_not_module hs, ih h, List.nil_append]

section

variable {info : Info} {name : String} {body ss : List Stmt}

/-- A module without modules in it has one file. -/
theorem stmtPlaces_plain (h : (submodules body).isEmpty = true) :
    stmtPlaces (.block info (.module_ name) body) = [[name ++ Library.sourceSuffix]] := by
  simp [stmtPlaces, stmtsPlaces_of_submodules h, ownPlace, h]

/-- A module with modules in it has its files below its name. -/
theorem stmtPlaces_package (h : ¬ (submodules body).isEmpty = true) :
    stmtPlaces (.block info (.module_ name) body) = (stmtsPlaces body ++ [[Library.packageFile]]).map (name :: ·) := by
  simp [stmtPlaces, ownPlace, h]

/-- No file is at the directory itself. -/
theorem ne_nil_of_mem_stmtsPlaces {place : List String} (h : place ∈ stmtsPlaces ss) : place ≠ [] := by
  fun_induction plainNames ss with
  | case1 => cases h
  | case2 info name body ss hplain ih =>
    rcases List.mem_append.1 h with h | h
    · rw [stmtPlaces_plain hplain, List.mem_singleton] at h
      simp [h]
    · exact ih h
  | case3 info name body ss hpackage ih =>
    rcases List.mem_append.1 h with h | h
    · rw [stmtPlaces_package hpackage] at h
      obtain ⟨rest, -, rfl⟩ := List.mem_map.1 h
      simp
    · exact ih h
  | case4 s ss hs ih => exact ih (by rwa [stmtsPlaces, stmtPlaces_of_not_module hs, List.nil_append] at h)

/-- Right in the directory are the files of the modules without modules in them. -/
theorem singleton_mem_stmtsPlaces_iff {file : String} :
    [file] ∈ stmtsPlaces ss ↔ ∃ name ∈ plainNames ss, file = name ++ Library.sourceSuffix := by
  fun_induction plainNames ss with
  | case1 => simp [stmtsPlaces]
  | case2 info name body ss hplain ih => simp [stmtsPlaces, stmtPlaces_plain hplain, ih]
  | case3 info name body ss hpackage ih =>
    have hnil : [] ∉ stmtsPlaces body := fun h => ne_nil_of_mem_stmtsPlaces h rfl
    simp [stmtsPlaces, stmtPlaces_package hpackage, ih, hnil]
  | case4 s ss hs ih => rw [stmtsPlaces, stmtPlaces_of_not_module hs, List.nil_append, ih]

/-- What is below a directory of a name belongs to a module of this name with modules in it. -/
theorem mem_packageNames_of_mem_stmtsPlaces {first : String} {rest : List String} (hrest : rest ≠ [])
    (h : first :: rest ∈ stmtsPlaces ss) : first ∈ packageNames ss := by
  fun_induction packageNames ss with
  | case1 => cases h
  | case2 info name body ss hplain ih =>
    rcases List.mem_append.1 h with h | h
    · simp [stmtPlaces_plain hplain, hrest] at h
    · exact ih h
  | case3 info name body ss hpackage ih =>
    rcases List.mem_append.1 h with h | h
    · rw [stmtPlaces_package hpackage] at h
      obtain ⟨_, -, h⟩ := List.mem_map.1 h
      cases h
      exact List.mem_cons_self ..
    · exact List.mem_cons_of_mem _ (ih h)
  | case4 s ss hs ih => exact ih (by rwa [stmtsPlaces, stmtPlaces_of_not_module hs, List.nil_append] at h)

theorem packagePlace_mem_stmtsPlaces {first : String} (h : first ∈ packageNames ss) :
    [first, Library.packageFile] ∈ stmtsPlaces ss := by
  fun_induction packageNames ss with
  | case1 => cases h
  | case2 info name body ss hplain ih => exact List.mem_append_right _ (ih h)
  | case3 info name body ss hpackage ih =>
    rcases List.mem_cons.1 h with rfl | h
    · exact List.mem_append_left _ (by simp [stmtPlaces_package hpackage])
    · exact List.mem_append_right _ (ih h)
  | case4 s ss hs ih => exact List.mem_append_right _ (ih h)

theorem sourceFile_inj {name name' : String} (h : name ++ Library.sourceSuffix = name' ++ Library.sourceSuffix) :
    name = name' := by
  have hlist := congrArg String.toList h
  rw [String.toList_append, String.toList_append] at hlist
  exact String.toList_inj.1 (List.append_cancel_right hlist)

theorem packageFile_mem_iff : [Library.packageFile] ∈ stmtsPlaces ss ↔ packageStem ∈ plainNames ss := by
  rw [singleton_mem_stmtsPlaces_iff]
  constructor
  · rintro ⟨name, hname, h⟩
    have hstem : packageStem = name := sourceFile_inj h
    rwa [hstem]
  · intro h
    exact ⟨packageStem, h, rfl⟩

theorem nodup_stmtPlaces_module : (stmtPlaces (.block info (.module_ name) body)).Nodup ↔
    (stmtsPlaces body ++ [[Library.packageFile]]).Nodup := by
  by_cases h : (submodules body).isEmpty = true
  · simp [stmtPlaces_plain h, stmtsPlaces_of_submodules h]
  · rw [stmtPlaces_package h, List.nodup_map_iff]
    exact fun _ _ e => (List.cons.inj e).2

/-- A module without modules in it shares a file only with its like of the same name. -/
theorem disjoint_plain_iff (h : (submodules body).isEmpty = true) :
    (stmtPlaces (.block info (.module_ name) body)).Disjoint (stmtsPlaces ss) ↔ name ∉ plainNames ss := by
  rw [stmtPlaces_plain h, List.singleton_disjoint, singleton_mem_stmtsPlaces_iff, not_iff_not]
  constructor
  · rintro ⟨_, hname, e⟩
    rwa [sourceFile_inj e]
  · intro hname
    exact ⟨name, hname, rfl⟩

/-- A module with modules in it shares a file only with its like of the same name. -/
theorem disjoint_package_iff (h : ¬ (submodules body).isEmpty = true) :
    (stmtPlaces (.block info (.module_ name) body)).Disjoint (stmtsPlaces ss) ↔ name ∉ packageNames ss := by
  rw [stmtPlaces_package h]
  constructor
  · intro hdisjoint hname
    exact @hdisjoint [name, Library.packageFile] (by simp) (packagePlace_mem_stmtsPlaces hname)
  · intro hname place hplace hss
    obtain ⟨rest, hrest, rfl⟩ := List.mem_map.1 hplace
    refine hname (mem_packageNames_of_mem_stmtsPlaces ?_ hss)
    rcases List.mem_append.1 hrest with hrest | hrest
    · exact ne_nil_of_mem_stmtsPlaces hrest
    · simp [List.mem_singleton.1 hrest]

end

mutual

theorem nodup_stmtPlaces_iff : (s : Stmt) → ((stmtPlaces s).Nodup ↔ s.Apart)
  | .block info (.module_ name) body => by
    rw [nodup_stmtPlaces_module, List.nodup_append', List.disjoint_singleton, packageFile_mem_iff,
      nodup_stmtsPlaces_iff body, Stmt.Apart]
    simp only [List.nodup_singleton, true_and]
    constructor
    · rintro ⟨⟨hplain, hpackage, hapart⟩, hstem⟩
      exact ⟨hplain, hpackage, hstem, hapart⟩
    · rintro ⟨hplain, hpackage, hstem, hapart⟩
      exact ⟨⟨hplain, hpackage, hapart⟩, hstem⟩
  | .simple .. | .comment _ | .block _ (.function ..) _ | .block _ (.class_ ..) _
  | .block _ (.with_ ..) _ | .branch .. | .attempt .. | .select .. => by simp [stmtPlaces, Stmt.Apart]

/-- The files of the modules in a block are in different places exactly if the modules are told apart. -/
theorem nodup_stmtsPlaces_iff : (ss : List Stmt) → ((stmtsPlaces ss).Nodup ↔
    (plainNames ss).Nodup ∧ (packageNames ss).Nodup ∧ stmtsApart ss)
  | [] => by simp [stmtsPlaces, plainNames, packageNames, stmtsApart]
  | .block info (.module_ name) body :: ss => by
    rw [stmtsPlaces, List.nodup_append', nodup_stmtPlaces_iff (.block info (.module_ name) body),
      nodup_stmtsPlaces_iff ss]
    by_cases h : (submodules body).isEmpty = true
    · rw [disjoint_plain_iff h, plainNames, if_pos h, packageNames, if_pos h, stmtsApart, List.nodup_cons]
      tauto
    · rw [disjoint_package_iff h, plainNames, if_neg h, packageNames, if_neg h, stmtsApart, List.nodup_cons]
      tauto
  | .simple .. :: ss | .comment _ :: ss | .block _ (.function ..) _ :: ss | .block _ (.class_ ..) _ :: ss
  | .block _ (.with_ ..) _ :: ss | .branch .. :: ss | .attempt .. :: ss | .select .. :: ss => by
    rw [stmtsPlaces, stmtPlaces_of_not_module (by simp), List.nil_append, nodup_stmtsPlaces_iff ss]
    simp [plainNames, packageNames, stmtsApart, Stmt.Apart]

end

end Layout

end TwinModule
