import TwinModule.CommandLine.Arguments
import TwinModule.Project
/-!
The command line as a whole: from arguments and a store to what is printed, the exit code and the new store.
-/
set_option autoImplicit false

namespace TwinModule.CommandLine

def usage : String :=
  "usage: python-amphi [-h] [--blocking-only | --async-only] [--path PATH]\n" ++
  "                    [-o OUTPUT] [--package PACKAGE] [--dry-run] [-v]\n" ++
  "                    source\n"

def help : String :=
  usage ++ "\n" ++
  "Generate the blocking and the asynchronous variant of an annotated Python\n" ++
  "module\n" ++
  "\n" ++
  "positional arguments:\n" ++
  "  source                Annotated module: a .py file or a package directory\n" ++
  "\n" ++
  "options:\n" ++
  "  -h, --help            show this help message and exit\n" ++
  "  --blocking-only       Only generate the blocking variant\n" ++
  "  --async-only          Only generate the asynchronous variant\n" ++
  "  --path PATH           Relative directory used to resolve out-of-line modules\n" ++
  "  -o OUTPUT, --output OUTPUT\n" ++
  "                        Output directory (default: next to the source)\n" ++
  "  --package PACKAGE     Dotted package containing the module, for absolute\n" ++
  "                        self imports\n" ++
  "  --dry-run             Print the generated files instead of writing them\n" ++
  "  -v, --verbose         Verbose logging\n"

/-- What a run leaves: its two outputs, the exit code or the failure that was not expected, and the store. -/
structure Outcome where
  output : String
  diagnostics : String
  exit : Except Failure Nat
  store : Store

def logText (verbose : Bool) (notes : List Note) : String :=
  String.join ((notes.filter fun n => verbose || !n.isDetail).map fun n => n.logLine ++ "\n")

/-- Files as a dry run prints them. -/
def filesText (files : FileTexts) : String :=
  String.join (files.map fun f => "### " ++ f.1.text ++ "\n" ++ f.2 ++ "\n")

/-- The outcome of traced work. A complaint is shown and gives exit code 1; any other failure is not caught. -/
def conclude (verbose : Bool) (store : Store) (work : Traced String) : Outcome :=
  let log := logText verbose work.notes
  match work.result with
  | .ok output => ⟨output, log, .ok 0, store⟩
  | .error (.complaint what file line) =>
    ⟨"", log ++ "error: " ++ Failure.located what file line ++ "\n", .ok 1, store⟩
  | .error f => ⟨"", log, .error f, store⟩

def optionsOfArguments (store : Store) (cwd : FilePath) (a : Arguments) : Except Failure Options := do
  let mode ← Options.modeOf a.blockingOnly a.asyncOnly
  Options.make store cwd mode (a.path.map FilePath.read) (a.output.map FilePath.read) a.package

/-- Does what the arguments ask for, the source being given. -/
def perform (store : Store) (cwd : FilePath) (a : Arguments) (source : FilePath) : Outcome :=
  match optionsOfArguments store cwd a with
  | .error f => conclude a.verbose store (Traced.fail f)
  | .ok o =>
    if a.dryRun then
      conclude a.verbose store (do return filesText (← Project.render store o source source.text))
    else
      let (after, written) := Project.generateFiles store o source source.text
      conclude a.verbose after do
        let paths ← written
        Traced.note (.generated paths.length source)
        return ""

def run (store : Store) (cwd : FilePath) (arguments : List String) : Outcome :=
  match read arguments with
  | .error e => ⟨"", usage ++ "python-amphi: error: " ++ e.message ++ "\n", .ok 2, store⟩
  | .ok .help => ⟨help, "", .ok 0, store⟩
  | .ok (.run a) => perform store cwd a (FilePath.read (a.source.getD ""))

end TwinModule.CommandLine
