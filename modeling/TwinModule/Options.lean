import TwinModule.Failure
import TwinModule.Text.Identifier
import TwinModule.Text.Split
import TwinModule.Variant
/-!
What can be chosen for a generation. Options are checked before anything is read.
-/
set_option autoImplicit false

namespace TwinModule

structure Options where
  mode : Mode
  /-- Below it modules are looked for; next to the root module if there is none. -/
  sourceRoot : Option FilePath
  /-- Below it files are written; next to the root module if there is none. -/
  outputDir : Option FilePath
  /-- The package that the root module is in, if absolute imports of it count too. -/
  package : Option String
  /-- What relative paths are relative to. -/
  cwd : FilePath
  deriving DecidableEq, Repr

namespace Options

def complain {α : Type} (c : Complaint) : Except Failure α := .error (.complaint c none none)

/-- The mode for the two wishes, which exclude each other. -/
def modeOf (blockingOnly asyncOnly : Bool) : Except Failure Mode :=
  match blockingOnly, asyncOnly with
  | true, true => complain .bothModes
  | true, false => .ok .blockingOnly
  | false, true => .ok .asyncOnly
  | false, false => .ok .both

def isDottedName (s : String) : Bool := (Text.parts '.' s).all fun p => Text.isIdentifier p.toList

/-- A source root has to be relative and a directory. -/
def checkRoot (store : Store) (cwd root : FilePath) : Except Failure FilePath :=
  if root.isAbsolute then complain (.absoluteRoot root.text)
  else
    match store.isDirectory (cwd.join root) with
    | .error problem => .error (.files ⟨problem, cwd.join root⟩)
    | .ok true => .ok (cwd.join root)
    | .ok false => complain (.missingRoot root.text)

def checkPackage (package : String) : Except Failure Unit :=
  if isDottedName package then .ok () else complain (.badPackage package)

/-- The options, once they are checked: first the source root, then the package. -/
def make (store : Store) (cwd : FilePath) (mode : Mode) (sourceRoot outputDir : Option FilePath)
    (package : Option String) : Except Failure Options := do
  let sourceRoot ← match sourceRoot with
    | some root => some <$> checkRoot store cwd root
    | none => pure none
  match package with
  | some package => checkPackage package
  | none => pure ()
  return ⟨mode, sourceRoot, outputDir, package, cwd⟩

end Options

end TwinModule
