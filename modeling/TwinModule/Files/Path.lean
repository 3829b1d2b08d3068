import TwinModule.Text.Split
/-!
File paths. A path is a root, which is empty for a relative one, and a list of names. Empty names and single
dots vanish when a path is read; double dots stay.
-/
set_option autoImplicit false

namespace TwinModule

/-- How a path begins. Two slashes are a root of their own, three or more are one. -/
inductive PathRoot where
  | relative | slash | doubleSlash
  deriving DecidableEq, Repr, Inhabited

structure FilePath where
  root : PathRoot
  names : List String
  deriving DecidableEq, Repr, Inhabited

namespace FilePath

/-- A name that is kept when a path is read. -/
def isKept (name : String) : Bool :=
  name != "" && name != "."

def rootOf : List Char → PathRoot
  | '/' :: '/' :: '/' :: _ => .slash
  | '/' :: '/' :: _ => .doubleSlash
  | '/' :: _ => .slash
  | _ => .relative

def read (text : String) : FilePath :=
  ⟨rootOf text.toList, (Text.parts '/' text).filter isKept⟩

def rootText : PathRoot → String
  | .relative => ""
  | .slash => "/"
  | .doubleSlash => "//"

/-- The text of a path; the empty relative path is a dot. -/
def text (p : FilePath) : String :=
  if p.root = .relative && p.names.isEmpty then "." else rootText p.root ++ "/".intercalate p.names

def isAbsolute (p : FilePath) : Bool := p.root != .relative

/-- The second path seen from the first one; an absolute path stays what it is. -/
def join (p q : FilePath) : FilePath :=
  if q.isAbsolute then q else ⟨p.root, p.names ++ q.names⟩

/-- A path with one more name, or more if the text has slashes. -/
def child (p : FilePath) (name : String) : FilePath := p.join (read name)

/-- The last name of a path, empty if there is none. -/
def name (p : FilePath) : String := p.names.getLastD ""

def parent (p : FilePath) : FilePath := ⟨p.root, p.names.dropLast⟩

/-- A name cut before its last dot, unless that begins or ends it. -/
def splitSuffix (name : String) : String × String :=
  let cs := name.toList
  let after := (cs.reverse.takeWhile (· ≠ '.')).reverse
  let before := cs.take (cs.length - after.length - 1)
  if after.isEmpty || before.isEmpty then (name, "")
  else (String.ofList before, String.ofList ('.' :: after))

def stem (p : FilePath) : String := (splitSuffix p.name).1

def suffix (p : FilePath) : String := (splitSuffix p.name).2

theorem join_absolute {p q : FilePath} (h : q.isAbsolute = true) : p.join q = q := by
  simp [join, h]

theorem parent_join_single (p : FilePath) (name : String) :
    (p.join ⟨.relative, [name]⟩).parent = p := by
  simp [join, parent, isAbsolute]

end FilePath

end TwinModule
