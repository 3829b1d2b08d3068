import TwinModule.Text.Quoted
/-!
String literals with as few escapes as possible. Four kinds of quotes are open to a literal; its text rules
some of them out, and the first of those left is taken.
-/
set_option autoImplicit false

namespace TwinModule.StringForm
open TwinModule.Text

abbrev Quotes := List Char

def single : List Quotes := [['\''], ['"']]

/-- Quotes that may hold line ends. -/
def triple : List Quotes := [['"', '"', '"'], ['\'', '\'', '\'']]

def all : List Quotes := single ++ triple

/-- Whether a text occurs within another one. -/
def occurs (needle : List Char) : List Char → Bool
  | [] => needle.isEmpty
  | c :: cs => needle.isPrefixOf (c :: cs) || occurs needle cs

/-- The text of a character. Tabs and line ends may stand for themselves. -/
def escape (keepsSpace : Bool) (c : Char) : List Char :=
  if keepsSpace && (c = '\n' || c = '\t') then [c]
  else if c = '\\' || !isPrintable c then escapeChar c
  else [c]

/-- Quotes that do not start with the given character come first. -/
def avoiding (last : Char) (quotes : List Quotes) : List Quotes :=
  quotes.filter (fun q => q.head? != some last) ++ quotes.filter fun q => q.head? == some last

/-- What stands between the quotes, and the quotes that are left. If none is left, the text is quoted in
the common way, between the first quotes of the same mark. -/
def form (keepsSpace : Bool) (quotes : List Quotes) (cs : List Char) : List Char × List Quotes :=
  let body := cs.flatMap (escape keepsSpace)
  let open_ := if body.contains '\n' then quotes.filter triple.contains else quotes
  let open_ := open_.filter fun q => !occurs q body
  match open_ with
  | [] =>
    let mark := chooseQuote cs
    let quoted := cs.flatMap (quoteChar mark)
    (quoted, [(quotes.find? fun q => q.contains mark).getD [mark]])
  | _ =>
    match body.getLast? with
    | none => (body, open_)
    | some last =>
      let sorted := avoiding last open_
      if (sorted.head?.bind List.head?) = some last then (body.dropLast ++ ['\\', last], sorted)
      else (body, sorted)

/-- A literal in one of the given quotes. -/
def write (quotes : List Quotes) (cs : List Char) : String :=
  let (body, left) := form true quotes cs
  let q := left.headD []
  String.ofList (q ++ body ++ q)

/-- A literal made of parts, each of which narrows the choice of quotes for the parts after it. -/
def writeParts : (quotes : List Quotes) → (done : List Char) → List (List Char × Bool) → String
  | quotes, done, [] => let q := quotes.headD []; String.ofList (q ++ done ++ q)
  | quotes, done, (part, keepsSpace) :: rest =>
    let (body, left) := form keepsSpace quotes part
    writeParts left (done ++ body) rest

example : write all "it's".toList = "\"it's\"" := by decide +kernel
example : write triple "a\"".toList = "'''a\"'''" := by decide +kernel

end TwinModule.StringForm
