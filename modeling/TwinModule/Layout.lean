import TwinModule.Library
import TwinModule.Print.Statement
import TwinModule.Trace
/-!
Laying out a module as files. A module with modules in it becomes a package whose own file imports them; any
other module becomes one file. Writing the files makes the directories they need.
-/
set_option autoImplicit false

namespace TwinModule

/-- Texts by path, in the order in which the paths came up; no path occurs twice. -/
abbrev FileTexts := List (FilePath × String)

namespace FileTexts

/-- One more text, in the place of the old one if the path is there. -/
def put (p : FilePath) (text : String) : FileTexts → FileTexts
  | [] => [(p, text)]
  | (q, old) :: rest => if q = p then (q, text) :: rest else (q, old) :: put p text rest

/-- The second texts put into the first ones. -/
def update (fs gs : FileTexts) : FileTexts := gs.foldl (fun fs g => put g.1 g.2 fs) fs

theorem mem_keys_put {p q : FilePath} {text : String} {fs : FileTexts} :
    q ∈ (put p text fs).map Prod.fst ↔ q = p ∨ q ∈ fs.map Prod.fst := by
  induction fs with
  | nil => simp [put]
  | cons f fs ih =>
    obtain ⟨r, old⟩ := f
    by_cases h : r = p
    · subst h; simp [put]
    · simp only [put, h, if_false, List.map_cons, List.mem_cons, ih]
      constructor
      · rintro (h | h | h)
        · exact Or.inr (Or.inl h)
        · exact Or.inl h
        · exact Or.inr (Or.inr h)
      · rintro (h | h | h)
        · exact Or.inr (Or.inl h)
        · exact Or.inl h
        · exact Or.inr (Or.inr h)

theorem nodup_keys_put {p : FilePath} {text : String} {fs : FileTexts} (h : (fs.map Prod.fst).Nodup) :
    ((put p text fs).map Prod.fst).Nodup := by
  induction fs with
  | nil => simp [put]
  | cons f fs ih =>
    obtain ⟨r, old⟩ := f
    simp only [List.map_cons, List.nodup_cons] at h
    by_cases hr : r = p
    · subst hr; simpa [put] using h
    · simp only [put, hr, if_false, List.map_cons, List.nodup_cons]
      refine ⟨fun hm => ?_, ih h.2⟩
      rcases mem_keys_put.1 hm with e | hm
      · exact hr e
      · exact h.1 hm

end FileTexts

namespace Layout

/-- The first line of every file. -/
def header (source : String) : String :=
  "# AUTO-GENERATED by python-amphi from " ++ source ++ ". DO NOT EDIT.\n"

/-- The import of a module from the package it is in. -/
def importOf (name : String) : Stmt := .simple ⟨Span.unset, []⟩ (.importFrom none [⟨name, none⟩] (some 1))

/-- The statements of a module's own file: the modules in it are imported. -/
def ownStatements : List Stmt → List Stmt
  | [] => []
  | .block _ (.module_ name) _ :: ss => importOf name :: ownStatements ss
  | s :: ss => s :: ownStatements ss

theorem length_ownStatements (ss : List Stmt) : (ownStatements ss).length = ss.length := by
  fun_induction ownStatements ss <;> simp_all

/-- The text of a module's own file. -/
def ownText (source : String) (body : List Stmt) : Except PrintError String := do
  let code ← Print.source (.file (ownStatements body))
  return header source ++ (if code.isEmpty then "" else code ++ "\n")

/-- The path of a module's own file. -/
def ownPath (parent : FilePath) (name : String) (body : List Stmt) : FilePath :=
  if (submodules body).isEmpty then parent.child (name ++ Library.sourceSuffix)
  else (parent.child name).child Library.packageFile

mutual

/-- The files of a statement, if it is a module. -/
def stmtFiles (source : String) (parent : FilePath) : Stmt → Except PrintError FileTexts
  | .block _ (.module_ name) body => do
    let inner ← stmtsFiles source (parent.child name) body
    return inner.put (ownPath parent name body) (← ownText source body)
  | _ => .ok []

def stmtsFiles (source : String) (parent : FilePath) : List Stmt → Except PrintError FileTexts
  | [] => .ok []
  | s :: ss => do
    let first ← stmtFiles source parent s
    return first.update (← stmtsFiles source parent ss)

end

/-- The files of a module, those of the modules in it first. -/
def files (source : String) (parent : FilePath) (name : String) (body : List Stmt) : Except Failure FileTexts :=
  (stmtFiles source parent (.block ⟨Span.unset, []⟩ (.module_ name) body)).mapError .printing

/-- Writes texts below a directory. What has been written stays when there is a problem further on. -/
def write (store : Store) (directory : FilePath) : FileTexts → Store × Traced (List FilePath)
  | [] => (store, pure [])
  | (p, text) :: rest =>
    let path := directory.join p
    match store.makeDirectory path.parent with
    | (store, .error fault) => (store, Traced.fail (.files fault))
    | (store, .ok ()) =>
      match store.write path text.toUTF8 with
      | .error problem => (store, Traced.fail (.files ⟨problem, path⟩))
      | .ok store =>
        let (store, others) := write store directory rest
        (store, do
          Traced.note (.wrote path)
          let paths ← others
          return path :: paths)

end Layout

end TwinModule
