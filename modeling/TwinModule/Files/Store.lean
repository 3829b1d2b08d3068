import TwinModule.Files.Path
/-!
A store of files: directories, files of bytes, and links to other paths. A path is walked name by name from the
root, links being followed wherever they stand, so the place it leads to has no link in it.
-/
set_option autoImplicit false

namespace TwinModule

inductive Entry where
  | directory
  | file (bytes : ByteArray)
  | link (target : FilePath)

instance : DecidableEq Entry
  | .directory, .directory => isTrue rfl
  | .file bytes, .file bytes' => decidable_of_iff (bytes.data = bytes'.data) (by simp [ByteArray.ext_iff])
  | .link target, .link target' => decidable_of_iff (target = target') (by simp)
  | .directory, .file _ | .directory, .link _ | .file _, .directory | .file _, .link _ | .link _, .directory
  | .link _, .file _ => isFalse nofun

/-- A place in a store: the names from the root on, none of them a link or a double dot. -/
abbrev Location := List String

/-- What is where, in the order in which it came to be. The root is always a directory. -/
structure Store where
  entries : List (Location × Entry)
  deriving DecidableEq

inductive PathProblem where
  | missing | exists_ | notDirectory | isDirectory | nameTooLong | tooManyLinks
  deriving DecidableEq, Repr

namespace PathProblem

def number : PathProblem → Nat
  | missing => 2
  | exists_ => 17
  | notDirectory => 20
  | isDirectory => 21
  | nameTooLong => 36
  | tooManyLinks => 40

def text : PathProblem → String
  | missing => "No such file or directory"
  | exists_ => "File exists"
  | notDirectory => "Not a directory"
  | isDirectory => "Is a directory"
  | nameTooLong => "File name too long"
  | tooManyLinks => "Too many levels of symbolic links"

end PathProblem

namespace Store

def empty : Store := ⟨[]⟩

def find? (s : Store) : Location → Option Entry
  | [] => some .directory
  | l => s.entries.lookup l

/-- The entries with one of them set, in its old place if there is one. -/
def setEntry (l : Location) (e : Entry) : List (Location × Entry) → List (Location × Entry)
  | [] => [(l, e)]
  | (k, old) :: rest => if k = l then (k, e) :: rest else (k, old) :: setEntry l e rest

def set (s : Store) (l : Location) (e : Entry) : Store := ⟨setEntry l e s.entries⟩

/-- The store without a place and what is below it. -/
def remove (s : Store) (l : Location) : Store :=
  ⟨s.entries.filter fun (k, _) => !l.isPrefixOf k⟩

theorem lookup_setEntry (l k : Location) (e : Entry) (es : List (Location × Entry)) :
    (setEntry l e es).lookup k = if k = l then some e else es.lookup k := by
  induction es with
  | nil =>
    by_cases h : k = l
    · simp [setEntry, h]
    · simp [setEntry, List.lookup_cons, h, beq_eq_false_iff_ne.mpr h]
  | cons x es ih =>
    obtain ⟨x, old⟩ := x
    by_cases hx : x = l
    · subst hx
      by_cases h : k = x
      · simp [setEntry, h]
      · simp [setEntry, List.lookup_cons, h, beq_eq_false_iff_ne.mpr h]
    · by_cases hk : k = x
      · subst hk; simp [setEntry, hx]
      · simp [setEntry, hx, List.lookup_cons, beq_eq_false_iff_ne.mpr hk, ih]

theorem find?_set {s : Store} {l : Location} (h : l ≠ []) (e : Entry) (k : Location) :
    (s.set l e).find? k = if k = l then some e else s.find? k := by
  cases k with
  | nil => simp [find?, Ne.symm h]
  | cons x xs => simp [find?, set, lookup_setEntry]

/-- How many links a path may lead over. -/
def maxLinks : Nat := 40

/-- How many bytes a name may have. -/
def maxName : Nat := 255

/-- From a place along names to where they lead. Only the last name may be missing. -/
def walk (s : Store) (links : Nat) (here : Location) (names : List String) : Except PathProblem Location :=
  match names with
  | [] => .ok here
  | name :: rest =>
    if name = ".." then s.walk links here.dropLast rest
    else if maxName < name.utf8ByteSize then .error .nameTooLong
    else
      match s.find? (here ++ [name]) with
      | none => if rest.isEmpty then .ok (here ++ [name]) else .error .missing
      | some .directory => s.walk links (here ++ [name]) rest
      | some (.file _) => if rest.isEmpty then .ok (here ++ [name]) else .error .notDirectory
      | some (.link target) =>
        match links with
        | 0 => .error .tooManyLinks
        | n + 1 => s.walk n (if target.isAbsolute then [] else here) (target.names ++ rest)
termination_by (links, names.length)

def locate (s : Store) (p : FilePath) : Except PathProblem Location := s.walk maxLinks [] p.names

/-- The place of a path and what is there. -/
def look (s : Store) (p : FilePath) : Except PathProblem (Location × Entry) := do
  let l ← s.locate p
  match s.find? l with
  | some e => return (l, e)
  | none => throw .missing

/-- A yes-or-no question about what is at a path. Only a name that is too long is an error. -/
def holds (s : Store) (p : FilePath) (ask : Entry → Bool) : Except PathProblem Bool :=
  match s.look p with
  | .ok (_, e) => .ok (ask e)
  | .error .nameTooLong => .error .nameTooLong
  | .error _ => .ok false

def isFile (s : Store) (p : FilePath) : Except PathProblem Bool :=
  s.holds p fun e => match e with
    | .file _ => true
    | _ => false

def isDirectory (s : Store) (p : FilePath) : Except PathProblem Bool :=
  s.holds p fun e => match e with
    | .directory => true
    | _ => false

def read (s : Store) (p : FilePath) : Except PathProblem ByteArray := do
  match (← s.look p).2 with
  | .file bytes => return bytes
  | .directory => throw .isDirectory
  | .link _ => throw .tooManyLinks

/-- The store with a file at a path, whose directory has to be there. -/
def write (s : Store) (p : FilePath) (bytes : ByteArray) : Except PathProblem Store := do
  let l ← s.locate p
  match s.find? l with
  | some .directory => throw .isDirectory
  | _ => return s.set l (.file bytes)

/-- The store with something new at a path, whose directory has to be there. -/
def add (s : Store) (p : FilePath) (e : Entry) : Except PathProblem Store := do
  match p.names.getLast? with
  | none => throw .exists_
  | some name =>
    match ← s.look p.parent with
    | (l, .directory) =>
      if name = ".." then throw .exists_
      else if maxName < name.utf8ByteSize then throw .nameTooLong
      else if (s.find? (l ++ [name])).isSome then throw .exists_
      else return s.set (l ++ [name]) e
    | _ => throw .notDirectory

/-- A problem and the path that has it. -/
structure PathFault where
  problem : PathProblem
  path : FilePath
  deriving DecidableEq, Repr

/-- Whether a problem with a new directory matters: not if there is a directory already. -/
def unlessDirectory (s : Store) (p : FilePath) (problem : PathProblem) : Except PathFault Unit :=
  match s.isDirectory p with
  | .ok true => .ok ()
  | _ => .error ⟨problem, p⟩

/-- Makes a directory and those it has to be in, the names being given from the last one backwards. What has
been made stays when there is a problem further on. -/
def makeDirectories (s : Store) (root : PathRoot) : (names : List String) → Store × Except PathFault Unit
  | [] => (s, .ok ())
  | name :: above =>
    let p : FilePath := ⟨root, (name :: above).reverse⟩
    match s.add p .directory with
    | .ok made => (made, .ok ())
    | .error .missing =>
      match s.makeDirectories root above with
      | (made, .error fault) => (made, .error fault)
      | (made, .ok ()) =>
        match made.add p .directory with
        | .ok s => (s, .ok ())
        | .error problem => (made, made.unlessDirectory p problem)
    | .error problem => (s, s.unlessDirectory p problem)

def makeDirectory (s : Store) (p : FilePath) : Store × Except PathFault Unit :=
  s.makeDirectories p.root p.names.reverse

/-- What is still to do on the way to a real path: a name to follow, or the end of a link. -/
inductive Way where
  | name (n : String)
  | leave (link : Location)

def Way.names : List Way → List String
  | [] => []
  | .name n :: ws => n :: names ws
  | .leave _ :: ws => names ws

/-- Like a walk, but what is missing is taken as it is written. A link that leads back to itself stops it. -/
def follow (s : Store) (links : Nat) (entered : List Location) (here : Location) (ways : List Way) :
    Except FilePath Location :=
  match ways with
  | [] => .ok here
  | .leave link :: rest => s.follow links (entered.erase link) here rest
  | .name name :: rest =>
    if name = ".." then s.follow links entered here.dropLast rest
    else
      match s.find? (here ++ [name]) with
      | some (.link target) =>
        let stuck : FilePath := ⟨.slash, here ++ [name] ++ Way.names rest⟩
        match links with
        | 0 => .error stuck
        | n + 1 =>
          if entered.contains (here ++ [name]) then .error stuck
          else s.follow n ((here ++ [name]) :: entered) (if target.isAbsolute then [] else here)
            (target.names.map Way.name ++ .leave (here ++ [name]) :: rest)
      | _ => s.follow links entered (here ++ [name]) rest
termination_by (links, ways.length)

/-- The path without links and double dots, or the path on which links lead in a circle. -/
def realPath (s : Store) (p : FilePath) : Except FilePath FilePath := do
  let l ← s.follow (maxLinks + s.entries.length) [] [] (p.names.map Way.name)
  return ⟨.slash, l⟩

end Store

end TwinModule
