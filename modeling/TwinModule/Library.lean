import TwinModule.Source
import TwinModule.Text.Lines
import TwinModule.Text.Split
/-!
The files that hold modules. A module is looked for by the names of the modules around it and its own, or by a
path that is given; the files being read at a time form a chain in which none may occur twice.
-/
set_option autoImplicit false

namespace TwinModule

/-- A store with the directory below which modules are looked for. -/
structure Library where
  store : Store
  root : FilePath

/-- The files being read, the outermost first, and the modules they are read for. -/
abbrev Chain := List (FilePath × String)

namespace Library

def sourceSuffix : String := ".py"

def packageFile : String := "__init__.py"

/-- A directory below another one, by the names on the way. -/
def descend (directory : FilePath) (names : List String) : FilePath := names.foldl FilePath.child directory

/-- The files that may hold the module with these names on its path: a plain file and a package. -/
def candidates (directory : FilePath) (modulePath : List String) : Except Failure (List FilePath) :=
  match modulePath.getLast? with
  | none => .error .noModulePath
  | some name =>
    let parent := descend directory modulePath.dropLast
    .ok [parent.child (name ++ sourceSuffix), (parent.child name).child packageFile]

/-- The first of the paths that is a file. -/
def firstFile (store : Store) : List FilePath → Except Failure (Option FilePath)
  | [] => .ok none
  | p :: ps =>
    match store.isFile p with
    | .error problem => .error (.files ⟨problem, p⟩)
    | .ok true => .ok (some p)
    | .ok false => firstFile store ps

def locate (lib : Library) (modulePath : List String) (explicit : Option String) : Except Failure FilePath := do
  match modulePath.getLast? with
  | none => throw .noModuleName
  | some name =>
    let tried ← match explicit with
      | some path => pure [lib.root.child path]
      | none => candidates lib.root modulePath
    match ← firstFile lib.store tried with
    | some path => return path
    | none => throw (.complaint (.notFound name (tried.map FilePath.text)) none none)

/-- The text of a file, every line ending in a line feed. -/
def readText (bytes : ByteArray) : Except Failure String :=
  match String.fromUTF8? bytes with
  | some text => .ok (String.ofList (Text.foldNewlines text.toList))
  | none => .error .undecodable

/-- The body of the module in a file. -/
def load (store : Store) (path : FilePath) (name : String) : Except Failure (List Stmt) :=
  match store.read path with
  | .error problem => .error (.complaint (.unreadable name problem path.text) (some path.text) none)
  | .ok bytes =>
    match readText bytes with
    | .error f => .error f
    | .ok text => readSource path.text text

/-- The chain with one more file, which must not be in it yet. -/
def enter (store : Store) (chain : Chain) (path : FilePath) (name : String) : Except Failure Chain :=
  match store.realPath path with
  | .error stuck => .error (.linkCircle stuck)
  | .ok real =>
    match chain.lookup real with
    | some owner =>
      .error (.complaint (.cycle owner ((chain.map fun c => c.1.text) ++ [real.text])) (some path.text) none)
    | none => .ok (chain ++ [(real, name)])

/-- A chain that was extended is longer by one file, which was not in it. -/
theorem enter_eq_ok {store : Store} {chain longer : Chain} {path : FilePath} {name : String}
    (h : enter store chain path name = .ok longer) :
    ∃ real, store.realPath path = .ok real ∧ chain.lookup real = none ∧ longer = chain ++ [(real, name)] := by
  unfold enter at h
  split at h
  · cases h
  · rename_i real hreal
    split at h
    · cases h
    · rename_i hnone
      cases h
      exact ⟨real, hreal, hnone, rfl⟩

/-- Taking a file off by its path gives the chain that it was put on, as it was not there before. -/
theorem filter_enter {chain : Chain} {real : FilePath} (name : String) (h : chain.lookup real = none) :
    (chain ++ [(real, name)]).filter (·.1 ≠ real) = chain := by
  have hothers : chain.filter (·.1 ≠ real) = chain := by
    refine List.filter_eq_self.2 fun e he => decide_eq_true ?_
    rintro rfl
    simpa using List.lookup_eq_none_iff.1 h e he
  rw [List.filter_append, hothers]
  simp

end Library

end TwinModule
