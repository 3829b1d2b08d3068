import TwinModule.Text.Quoted
import TwinModule.Text.Identifier
/-!
Reading the arguments of the command line. Options may be shortened as long as they stay unique, take their
value after an equals sign or as the next argument, and stand in one argument if they have a letter; after two
dashes everything is a plain argument. The one plain argument that is needed is the source.
-/
set_option autoImplicit false

namespace TwinModule.CommandLine

inductive Opt where
  | help | blockingOnly | asyncOnly | path | output | package | dryRun | verbose
  deriving DecidableEq, Repr

namespace Opt

/-- The names of an option, the short one first. -/
def names : Opt → List String
  | help => ["-h", "--help"]
  | blockingOnly => ["--blocking-only"]
  | asyncOnly => ["--async-only"]
  | path => ["--path"]
  | output => ["-o", "--output"]
  | package => ["--package"]
  | dryRun => ["--dry-run"]
  | verbose => ["-v", "--verbose"]

def all : List Opt := [help, blockingOnly, asyncOnly, path, output, package, dryRun, verbose]

def takesValue : Opt → Bool
  | path => true
  | output => true
  | package => true
  | _ => false

/-- What an option is called when it is talked about. -/
def shown (o : Opt) : String := "/".intercalate o.names

def byName : List (String × Opt) := all.flatMap fun o => o.names.map fun n => (n, o)

end Opt

/-- Why a command line cannot be used. -/
inductive UsageError where
  | noSource
  | unrecognized (arguments : List String)
  | excluded (o rival : Opt)
  | noValue (o : Opt)
  | needlessValue (o : Opt) (value : String)
  | ambiguous (argument : String) (names : List String)
  deriving DecidableEq, Repr

def UsageError.message : UsageError → String
  | noSource => "the following arguments are required: source"
  | unrecognized arguments => "unrecognized arguments: " ++ " ".intercalate arguments
  | excluded o rival => "argument " ++ o.shown ++ ": not allowed with argument " ++ rival.shown
  | noValue o => "argument " ++ o.shown ++ ": expected one argument"
  | needlessValue o value => "argument " ++ o.shown ++ ": ignored explicit argument " ++ Text.quote value
  | ambiguous argument names =>
    "ambiguous option: " ++ argument ++ " could match " ++ ", ".intercalate names

structure Arguments where
  source : Option String
  blockingOnly : Bool
  asyncOnly : Bool
  path : Option String
  output : Option String
  package : Option String
  dryRun : Bool
  verbose : Bool
  deriving DecidableEq, Repr

def Arguments.none : Arguments := ⟨.none, false, false, .none, .none, .none, false, false⟩

inductive Item where
  | word (text : String)
  /-- The two dashes after which there are only words. -/
  | dashes
  /-- An option under the given name, perhaps with a value in the same argument. -/
  | option (text : String) (o : Opt) (name : String) (value : Option String)
  /-- What looks like an option but is none. -/
  | unknown (text : String)
  deriving DecidableEq, Repr

def Item.text : Item → String
  | word text => text
  | dashes => "--"
  | option text _ _ _ => text
  | unknown text => text

/-- A name and the value after its first equals sign. -/
def splitValue (cs : List Char) : List Char × Option (List Char) :=
  (cs.takeWhile (· != '='), if cs.contains '=' then some ((cs.dropWhile (· != '=')).drop 1) else none)

/-- Digits, perhaps with a point among or before them, after a dash. -/
def isNegativeNumber : List Char → Bool
  | '-' :: cs =>
    let whole := cs.takeWhile Text.isDigit
    match cs.dropWhile Text.isDigit with
    | [] => !whole.isEmpty
    | '.' :: fraction => !fraction.isEmpty && fraction.all Text.isDigit
    | _ => false
  | _ => false

/-- The options that an argument which is no option's name may stand for. -/
def meanings (text : List Char) : List (Opt × String × Option String) :=
  match text with
  | '-' :: '-' :: _ =>
    let (name, value) := splitValue text
    (Opt.byName.filter fun n => name.isPrefixOf n.1.toList).map fun n => (n.2, n.1, value.map String.ofList)
  | c :: d :: rest =>
    (Opt.byName.filter fun n => n.1.toList == [c, d]).map fun n => (n.2, n.1, some (String.ofList rest))
  | _ => []

/-- What an argument before the two dashes is taken for. -/
def classify (text : String) : Except UsageError Item :=
  let cs := text.toList
  match cs with
  | '-' :: _ :: _ =>
    match Opt.byName.lookup text with
    | some o => .ok (.option text o text none)
    | none =>
      let (name, value) := splitValue cs
      match value, Opt.byName.lookup (String.ofList name) with
      | some value, some o => .ok (.option text o (String.ofList name) (some (String.ofList value)))
      | _, _ =>
        match meanings cs with
        | [(o, name, value)] => .ok (.option text o name value)
        | [] => .ok (if isNegativeNumber cs || cs.contains ' ' then .word text else .unknown text)
        | many => .error (.ambiguous text (many.map fun m => m.2.1))
  | _ => .ok (.word text)

def classifyAll : List String → Except UsageError (List Item)
  | [] => .ok []
  | "--" :: rest => .ok (.dashes :: rest.map .word)
  | text :: rest => do
    let item ← classify text
    return item :: (← classifyAll rest)

/-- What becomes of a command line: help is asked for, or there are arguments. -/
inductive Wish where
  | help
  | run (a : Arguments)
  deriving DecidableEq, Repr

/-- The state of reading: what has been asked for so far and what could not be used. -/
structure Progress where
  arguments : Arguments
  extras : List String
  deriving Repr

/-- An option takes effect, with its value if it takes one. Nothing else counts once help is asked for. -/
def act (p : Progress) (o : Opt) (value : String) : Except UsageError (Option Progress) :=
  let a := p.arguments
  let set (a : Arguments) : Except UsageError (Option Progress) := .ok (some { p with arguments := a })
  match o with
  | .help => .ok none
  | .blockingOnly =>
    if a.asyncOnly then .error (.excluded .blockingOnly .asyncOnly) else set { a with blockingOnly := true }
  | .asyncOnly =>
    if a.blockingOnly then .error (.excluded .asyncOnly .blockingOnly) else set { a with asyncOnly := true }
  | .path => set { a with path := some value }
  | .output => set { a with output := some value }
  | .package => set { a with package := some value }
  | .dryRun => set { a with dryRun := true }
  | .verbose => set { a with verbose := true }

def actAll (p : Progress) : List (Opt × String) → Except UsageError (Option Progress)
  | [] => .ok (some p)
  | (o, value) :: rest =>
    match act p o value with
    | .ok (some p) => actAll p rest
    | r => r

/-- The options in one argument, given what follows the name of the first one: options with a letter follow each
other until one takes the rest as its value. The last option is given apart if it still needs a value. -/
def cluster (o : Opt) (isShort : Bool) : List Char → Except UsageError (List (Opt × String) × Option Opt)
  | [] => if o.takesValue then .ok ([(o, "")], none) else .error (.needlessValue o "")
  | c :: rest =>
    if o.takesValue then .ok ([(o, String.ofList (c :: rest))], none)
    else
      match if isShort then Opt.byName.lookup (String.ofList ['-', c]) else none with
      | none => .error (.needlessValue o (String.ofList (c :: rest)))
      | some next =>
        if rest.isEmpty then .ok (if next.takesValue then ([(o, "")], some next) else ([(o, ""), (next, "")], none))
        else do
          let (first, last) ← cluster next true rest
          return ((o, "") :: first, last)

/-- The options in one argument, which may come without a value. -/
def optionsOf (o : Opt) (name : String) : Option String → Except UsageError (List (Opt × String) × Option Opt)
  | none => .ok (if o.takesValue then ([], some o) else ([(o, "")], none))
  | some value => cluster o (name.length = 2) value.toList

def skipDashes : List Item → List Item
  | .dashes :: rest => rest
  | rest => rest

/-- The words before the next option, one of which may be the source. -/
def takeSource (p : Progress) (run : List Item) : Progress :=
  match p.arguments.source, skipDashes run with
  | none, .word text :: rest =>
    ⟨{ p.arguments with source := some text }, p.extras ++ (skipDashes rest).map Item.text⟩
  | _, _ => ⟨p.arguments, p.extras ++ run.map Item.text⟩

/-- The options take effect, and unless help is asked for it goes on from there. -/
def proceed (p : Progress) (done : List (Opt × String)) (next : Progress → Except UsageError Wish) :
    Except UsageError Wish := do
  match ← actAll p done with
  | some p => next p
  | none => return .help

/-- What is read once there are no more items. -/
def finish (p : Progress) : Except UsageError Wish :=
  if p.arguments.source.isNone then .error .noSource
  else if p.extras.isEmpty then .ok (.run p.arguments)
  else .error (.unrecognized p.extras)

/-- Reads the items; words wait in `run`, the last one first, until the next option. -/
def readItems (p : Progress) (run : List Item) : List Item → Except UsageError Wish
  | [] => finish (takeSource p run.reverse)
  | .unknown text :: rest =>
    let p := takeSource p run.reverse
    readItems { p with extras := p.extras ++ [text] } [] rest
  | .option _ o name value :: rest =>
    let p := takeSource p run.reverse
    match optionsOf o name value, rest with
    | .error e, _ => .error e
    | .ok (done, none), rest => proceed p done fun p => readItems p [] rest
    | .ok (done, some last), .word text :: rest => proceed p (done ++ [(last, text)]) fun p => readItems p [] rest
    | .ok (_, some last), _ => .error (.noValue last)
  | item :: rest => readItems p (item :: run) rest

def read (arguments : List String) : Except UsageError Wish := do
  readItems ⟨Arguments.none, []⟩ [] (← classifyAll arguments)

end TwinModule.CommandLine
