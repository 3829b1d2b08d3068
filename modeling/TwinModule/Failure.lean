import TwinModule.Comments.Scan
import TwinModule.Comments.Placement
import TwinModule.Files.Store
import TwinModule.Print.Error
import TwinModule.Text.Quoted
/-!
What can go wrong. A complaint is about the directives, the modules or the options somebody has written, and
may point to a file and a line; other failures come from the text, the files or the printing.
-/
set_option autoImplicit false

namespace TwinModule

/-- Where directives stand that no statement follows. -/
inductive DanglingEnd where
  | module_ (name : String)
  | block
  deriving DecidableEq, Repr

inductive Complaint where
  | bothModes
  | badPackage (package : String)
  | absoluteRoot (root : String)
  | missingRoot (root : String)
  | badScope (scope : String)
  | scopeNotText (shown : String)
  | moduleInBlock (name : String)
  | pathOnStatement (kind : String) (line : Option Nat)
  | notAModule (path : String)
  | badRootName (name : String)
  | notAFunction (kind : String)
  | innerFunction (name : String)
  | homeless (name : String)
  | noSourceRoot (name : String)
  | notFound (name : String) (tried : List String)
  | unreadable (name : String) (problem : PathProblem) (path : String)
  | cycle (owner : String) (chain : List String)
  | unknownFamily (family comment : String)
  | noArgument (family : String)
  | unknownVariant (argument : String)
  | pathNotText (argument : String)
  | badModuleName (name : String)
  | inlineDirective (line : Nat)
  | misplaced (family argument : String)
  | endWithoutStart (name : String) (line : Nat)
  | endOfOther (name : String) (line : Nat) (started : String) (startLine : Nat)
  | dangling (before : DanglingEnd) (line : Nat)
  | neverEnded (name : String) (line : Nat)
  | bodyAndPath (name path : String)
  deriving DecidableEq, Repr

inductive ComplaintKind where
  | option | target | resolution | cycle | malformed
  deriving DecidableEq, Repr

def osText (problem : PathProblem) (path : String) : String :=
  s!"[Errno {problem.number}] {problem.text}: " ++ Text.quote path

namespace Complaint

def kind : Complaint → ComplaintKind
  | bothModes | badPackage _ | absoluteRoot _ | missingRoot _ | badScope _ | scopeNotText _ => .option
  | moduleInBlock _ | pathOnStatement .. | notAModule _ | badRootName _ | notAFunction _ | innerFunction _
  | homeless _ => .target
  | noSourceRoot _ | notFound .. | unreadable .. => .resolution
  | cycle .. => .cycle
  | unknownFamily .. | noArgument _ | unknownVariant _ | pathNotText _ | badModuleName _ | inlineDirective _
  | misplaced .. | endWithoutStart .. | endOfOther .. | dangling .. | neverEnded .. | bodyAndPath .. => .malformed

/-- The module that could not be resolved. -/
def moduleName? : Complaint → Option String
  | noSourceRoot name => some name
  | notFound name _ => some name
  | unreadable name .. => some name
  | cycle owner _ => some owner
  | _ => none

def message : Complaint → String
  | bothModes => "'blocking_only' and 'async_only' are mutually exclusive"
  | badPackage package => s!"Package prefix must be a dotted name, got '{package}'"
  | absoluteRoot root => s!"Source root must be a relative path, got '{root}'"
  | missingRoot root => s!"Source root '{root}' does not exist"
  | badScope scope => s!"Test scope must be a (dotted) module name like \"amphi\", got '{scope}'"
  | scopeNotText shown => s!"Test scope must be a string like \"amphi\", got {shown}"
  | moduleInBlock name => s!"Module declaration '{name}' is only allowed at module level"
  | pathOnStatement kind line =>
    let where_ := (line.map toString).getD "?"
    s!"'amphi-path' can only be attached to a module declaration, not to {kind} (line {where_})"
  | notAModule path => s!"Expected a Python module or a package directory, got '{path}'"
  | badRootName name => s!"'{name}' is not a valid module name"
  | notAFunction kind => s!"Expected a function, got {kind}"
  | innerFunction name => s!"Only module level functions are supported, got '{name}'"
  | homeless name => s!"Can not find the module that defines '{name}'"
  | noSourceRoot name => s!"Module '{name}' is declared out-of-line but no source root is available"
  | notFound name tried => s!"Fail to find module '{name}' (tried: " ++ ", ".intercalate tried ++ ")"
  | unreadable name problem path => s!"Fail to read module '{name}': " ++ osText problem path
  | cycle owner chain => s!"Module '{owner}' includes itself: " ++ " -> ".intercalate chain
  | unknownFamily family comment =>
    s!"Comment looks like an amphi directive but '{family}' is unrecognized. Possible " ++
      s!"spelling error for: '{comment}'?"
  | noArgument family => s!"Directive '{family}' requires an argument"
  | unknownVariant argument =>
    s!"Unknown variant '{argument}' (expected 'blocking' or 'asynchronous')"
  | pathNotText argument =>
    "Source path should be a string literal, like `# amphi-path: \"sub/module.py\"`, " ++ s!"got {argument}"
  | badModuleName name => s!"Module name must be an identifier, got '{name}'"
  | inlineDirective line => s!"amphi directives are not allowed in inline comments (line {line})"
  | misplaced family argument =>
    s!"Unexpected directive '{family}: {argument}': directives must precede a statement"
  | endWithoutStart name line => s!"End directive ('{name}', line {line}) has no matching start directive"
  | endOfOther name line started startLine =>
    s!"End directive ('{name}', line {line}) does not match start directive ('{started}', line {startLine})"
  | dangling before line =>
    let end_ := match before with
      | .module_ name => s!"the end of module '{name}'"
      | .block => "the end of the block"
    s!"One or more amphi directives appear right before {end_} (first at line {line}). " ++
      "Directives must be followed by the statement they apply to."
  | neverEnded name line =>
    s!"Module {name} started on line {line} but never ended (expected an end directive)"
  | bodyAndPath name path => s!"Module '{name}' has a body, it can not also be read from '{path}'"

end Complaint

inductive Failure where
  | complaint (what : Complaint) (file : Option String) (line : Option Nat)
  /-- A text that is not in the grammar. -/
  | ungrammatical (file : String)
  /-- A file that is not encoded as it should be. -/
  | undecodable
  | zeroCharacter
  | printing (why : PrintError)
  | scanning (why : Comments.ScanError)
  | placing (why : Comments.PlaceError)
  /-- A set or a mapping that would have such a value for an element or a key. -/
  | unhashable (kind : String)
  | files (fault : Store.PathFault)
  | linkCircle (path : FilePath)
  | badMode (name : String)
  /-- No module path where one is needed, to take it apart or to take its last name. -/
  | noModulePath
  | noModuleName
  | nothingOpen
  /-- Nothing where one statement is needed, or more than one. -/
  | noStatement
  | manyStatements
  /-- Another statement where a function is needed, or no statement at all. -/
  | otherStatement
  | noDefinition
  | unbound (name : String)
  | noMember (owner name : String)
  | notCallable (kind : String)
  | surplusArguments (given : Nat)
  /-- Work that calls for itself again and again. -/
  | endless
  deriving DecidableEq, Repr

namespace Failure

/-- The same failure, a complaint that has no file yet pointing to the given one. -/
def inFile (file : Option String) : Failure → Failure
  | complaint what none line => complaint what file line
  | f => f

@[simp] theorem inFile_complaint_some (file : Option String) (what : Complaint) (f : String)
    (line : Option Nat) : (complaint what (some f) line).inFile file = complaint what (some f) line := rfl

@[simp] theorem inFile_none (f : Failure) : f.inFile none = f := by
  unfold inFile
  split <;> rfl

def isComplaint : Failure → Bool
  | complaint .. => true
  | _ => false

/-- What is said about a complaint: the file and the line, as far as they are known, and the message. -/
def located (what : Complaint) : Option String → Option Nat → String
  | none, _ => what.message
  | some file, none => s!"{file}: {what.message}"
  | some file, some line => s!"{file}:{line}: {what.message}"

def message : Failure → String
  | complaint what _ _ => what.message
  | ungrammatical _ => "invalid syntax"
  | undecodable => "invalid utf-8"
  | zeroCharacter => "source code string cannot contain null bytes"
  | printing (.missing owner role) => s!"'{owner}' object has no attribute '{role}'"
  | printing .manyForOne => "unhashable type: 'list'"
  | printing .causeAlone => "Node can't use cause without an exception."
  | printing .backslashInField => "Unable to avoid backslash in f-string expression part"
  | printing (.foreignPart kind) => s!"Unexpected node inside JoinedStr, {kind}"
  | printing (.unmatched isShorter) =>
    "zip() argument 2 is " ++ (if isShorter then "shorter" else "longer") ++ " than argument 1"
  | scanning (.openString line column) => s!"('EOF in multi-line string', ({line}, {column}))"
  | scanning (.openStatement line) => s!"('EOF in multi-line statement', ({line}, 0))"
  | scanning .unindent => "unindent does not match any outer indentation level"
  | placing .noSuchLine => "list index out of range"
  | unhashable kind => s!"unhashable type: '{kind}'"
  | files fault => osText fault.problem fault.path.text
  | linkCircle path => "Symlink loop from " ++ Text.quote path.text
  | badMode name => Text.quote name ++ " is not a valid Mode"
  | noModulePath => "not enough values to unpack (expected at least 1, got 0)"
  | noModuleName => "list index out of range"
  | nothingOpen => "pop from empty list"
  | noStatement => "too few items in iterable (expected 1)"
  | manyStatements => "Expected exactly one item in iterable, but got more."
  | otherStatement => ""
  | noDefinition => "list index out of range"
  | unbound name => s!"name '{name}' is not defined"
  | noMember owner name => s!"{owner} has no attribute '{name}'"
  | notCallable kind => s!"'{kind}' object is not callable"
  | surplusArguments given => s!"test() takes from 0 to 1 positional arguments but {given} were given"
  | endless => "maximum recursion depth exceeded"

end Failure

end TwinModule
