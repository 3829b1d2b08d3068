import TwinModule.Grammar.Pattern
import TwinModule.Syntax.Stmt
/-!
The grammar of statements and files.
-/
set_option autoImplicit false

namespace TwinModule.Grammar
open Reader

/-- Something and the span of the tokens it was read from. -/
def spanned {α : Type} (p : Reader α) : Reader (Span × α) := do
  let start := (← peek).start
  let a ← p
  let stop ← lastEnd
  return (⟨some start.line, some start.column, some stop.line, some stop.column⟩, a)

/-- A node whose span is that of the tokens it was read from. -/
def located {α : Type} (make : Info → α → Stmt) (p : Reader α) : Reader Stmt := do
  let (span, a) ← spanned p
  return make ⟨span, []⟩ a

def assigned (r : Rules) : Reader Expr := do
  if ← sees "yield" then yielded r else starExpressions r

/-- The values of a chain of assignments, the first sign having been seen. -/
def assignmentsUpTo (r : Rules) : Nat → Reader (List Expr)
  | 0 => pure []
  | n + 1 => do
    if ← accept "=" then
      let e ← assigned r
      return e :: (← assignmentsUpTo r n)
    else return []

/-- The operator of an assignment that combines. -/
def augmented? (t : Token) : Option BinaryOp :=
  BinaryOp.all.find? fun o => t.is (o.symbol ++ "=")

/-- An expression, or an assignment of any kind that starts with one. -/
def expressionStatement (r : Rules) : Reader Simple := do
  let isGrouped ← sees "("
  let first ← assigned r
  let next ← peek
  if next.is ":" then
    word ":"
    let target ← lift (singleTarget? first)
    let isPlain := match target with
      | .name .. => if isGrouped then 0 else 1
      | _ => 0
    let type ← r.expression
    let value ← if ← accept "=" then some <$> assigned r else pure none
    return .annAssign target type value isPlain
  else if next.is "=" then
    let values ← assignmentsUpTo r (← remaining)
    let all := first :: values
    let targets ← lift (all.dropLast.mapM (target? .store))
    return .assign targets (all.getLast?.getD first) none
  else
    match augmented? next with
    | some op =>
      let _ ← take fun _ => true
      let target ← lift (singleTarget? first)
      return .augAssign target op (← assigned r)
    | none => return .expr first

def dotted : Reader String := do
  return ".".intercalate (← sepBy1 "." identifier)

def renamed (name : Reader String) : Reader Alias := do
  let n ← name
  return ⟨n, ← if ← accept "as" then some <$> identifier else pure none⟩

/-- The dots before the name of a module, counted. -/
def dots : Reader Nat := do
  let ds ← many ((do word "."; pure 1) <|> (do word "..."; pure 3))
  return ds.foldl (· + ·) 0

def importedNames : Reader (List Alias) := do
  if ← accept "*" then return [⟨"*", none⟩]
  else if ← accept "(" then
    let (names, _) ← commas (renamed identifier)
    word ")"
    return names
  else sepBy1 "," (renamed identifier)

def importFrom : Reader Simple := do
  word "from"
  let level ← dots
  let module ← if level = 0 then some <$> dotted
    else if ← sees "import" then pure none
    else some <$> dotted
  word "import"
  return .importFrom module (← importedNames) (some level)

def simple (r : Rules) : Reader Simple := do
  let t ← peek
  if t.kind != .name then expressionStatement r
  else match t.text with
  | "pass" => do word "pass"; return .pass
  | "break" => do word "break"; return .break_
  | "continue" => do word "continue"; return .continue_
  | "return" => do word "return"; return .return_ (← maybe (starExpressions r))
  | "raise" => do
    word "raise"
    match ← maybe r.expression with
    | none => return .raise none none
    | some e => return .raise (some e) (← if ← accept "from" then some <$> r.expression else pure none)
  | "global" => do word "global"; return .global (← sepBy1 "," identifier)
  | "nonlocal" => do word "nonlocal"; return .nonlocal (← sepBy1 "," identifier)
  | "del" => do
    word "del"
    let (es, _) ← commas r.primary
    return .delete (← lift (es.mapM (target? .del)))
  | "assert" => do
    word "assert"
    let test ← r.expression
    return .assert test (← if ← accept "," then some <$> r.expression else pure none)
  | "import" => do word "import"; return .import_ (← sepBy1 "," (renamed dotted))
  | "from" => importFrom
  | _ => expressionStatement r

def simpleLine (r : Rules) : Reader (List Stmt) := do
  let first ← located .simple (simple r)
  let rest ← many (do word ";"; located .simple (simple r))
  let _ ← accept ";"
  let _ ← kind .newline
  return first :: rest

/-- A block after its colon: indented lines, or the rest of the line. -/
def blockOf (r : Rules) (statement : Reader (List Stmt)) : Reader (List Stmt) := do
  if (← peek).kind = .newline then
    let _ ← kind .newline
    let _ ← kind .indent
    let ss ← many1 statement
    let _ ← kind .dedent
    return ss.flatten
  else simpleLine r

def body (block : Reader (List Stmt)) : Reader (List Stmt) := do
  word ":"
  block

/-- A block after a word, if the word is there. -/
def clauseBlock (w : String) (block : Reader (List Stmt)) : Reader (List Stmt) := do
  if ← accept w then body block else return []

def decorator (r : Rules) : Reader Decorator := do
  word "@"
  let line := (← peek).start.line
  let (e, _) ← named r
  let _ ← kind .newline
  return ⟨line, e⟩

def function (r : Rules) (block : Reader (List Stmt)) (decorators : List Decorator) : Reader Stmt :=
  located (fun info p => .block info p.1 p.2) do
    let isAsync ← accept "async"
    word "def"
    let name ← identifier
    word "("
    let ps ← params r true ")"
    word ")"
    let returns ← if ← accept "->" then some <$> r.expression else pure none
    return (.function isAsync name ps decorators returns none, ← body block)

def classDefinition (r : Rules) (block : Reader (List Stmt)) (decorators : List Decorator) : Reader Stmt :=
  located (fun info p => .block info p.1 p.2) do
    word "class"
    let name ← identifier
    let (bases, ks) ← if ← accept "(" then do
        let as ← arguments r
        word ")"
        pure as
      else pure ([], [])
    return (.class_ name bases ks decorators, ← body block)

def withItem (r : Rules) : Reader WithItem := do
  let context ← r.expression
  let target ← if ← accept "as" then some <$> starTarget r else pure none
  return ⟨context, target⟩

/-- The items of `with`, all of which may be in parentheses. They are followed by a colon. -/
def withItems (r : Rules) : Reader (List WithItem) :=
  (do
    word "("
    let (items, _) ← commas (withItem r)
    word ")"
    ensure (← sees ":")
    return items) <|>
  sepBy1 "," (withItem r)

def withStatement (r : Rules) (block : Reader (List Stmt)) : Reader Stmt :=
  located (fun info p => .block info p.1 p.2) do
    let isAsync ← accept "async"
    word "with"
    let items ← withItems r
    return (.with_ isAsync items none, ← body block)

def forStatement (r : Rules) (block : Reader (List Stmt)) : Reader Stmt :=
  located (fun info p => .branch info p.1 p.2.1 p.2.2) do
    let isAsync ← accept "async"
    word "for"
    let target ← starTargets r
    word "in"
    let iter ← starExpressions r
    let ss ← body block
    return (.for_ isAsync target iter none, ss, ← clauseBlock "else" block)

def whileStatement (r : Rules) (block : Reader (List Stmt)) : Reader Stmt :=
  located (fun info p => .branch info p.1 p.2.1 p.2.2) do
    word "while"
    let (test, _) ← named r
    let ss ← body block
    return (.while_ test, ss, ← clauseBlock "else" block)

/-- An `if`, or an `elif` as the lone `if` in the `else` block before it. -/
def ifStatementUpTo (r : Rules) (block : Reader (List Stmt)) (w : String) : Nat → Reader Stmt
  | 0 => failure
  | n + 1 => located (fun info p => .branch info p.1 p.2.1 p.2.2) do
    word w
    let (test, _) ← named r
    let ss ← body block
    if ← sees "elif" then
      let orelse ← ifStatementUpTo r block "elif" n
      return (.if_ test, ss, [orelse])
    else return (.if_ test, ss, ← clauseBlock "else" block)

/-- A handler, for groups if `isGroup`. -/
def exceptClause (r : Rules) (block : Reader (List Stmt)) (isGroup : Bool) : Reader Handler := do
  let (span, type, name, ss) ← spanned do
    word "except"
    if isGroup then word "*"
    if !isGroup && (← sees ":") then return (none, none, ← body block)
    let type ← r.expression
    let name ← if ← accept "as" then some <$> identifier else pure none
    return (some type, name, ← body block)
  return .handler span type name ss

def tryStatement (r : Rules) (block : Reader (List Stmt)) : Reader Stmt :=
  located (fun info p => .attempt info p.1 p.2.1 p.2.2.1 p.2.2.2.1 p.2.2.2.2) do
    word "try"
    let ss ← body block
    let isGroup ← fun i => match i.tokens with
      | a :: b :: _ => some (a.is "except" && b.is "*", i)
      | _ => some (false, i)
    let handlers ← many (exceptClause r block isGroup)
    let orelse ← if handlers.isEmpty then pure [] else clauseBlock "else" block
    let isFinal ← sees "finally"
    ensure (isFinal || !handlers.isEmpty)
    return (isGroup, ss, handlers, orelse, ← clauseBlock "finally" block)

def guard (r : Rules) : Reader (Option Expr) := do
  if ← accept "if" then return some (← named r).1 else return none

/-- A word that is a keyword only where a statement may need it. -/
def softWord (text : String) : Reader Unit := do
  let _ ← take fun t => t.kind == .name && t.text == text

def caseBlock (r : Rules) (block : Reader (List Stmt)) : Reader Case := do
  softWord "case"
  let (p, line) ← casePattern (patternUpTo r (← remaining))
  let g ← guard r
  let stop ← lastEnd
  return .case (line, stop.line) p g (← body block)

/-- What is matched: a value, or values with commas. -/
def subject (r : Rules) : Reader Expr := do
  let isStarred ← sees "*"
  let e ← tupled (starNamed r)
  ensure (!isStarred || (match e with
    | .tuple .. => true
    | _ => false))
  return e

def matchStatement (r : Rules) (block : Reader (List Stmt)) : Reader Stmt :=
  located (fun info p => .select info p.1 p.2) do
    softWord "match"
    let s ← subject r
    word ":"
    let _ ← kind .newline
    let _ ← kind .indent
    let cases ← many1 (caseBlock r block)
    let _ ← kind .dedent
    return (s, cases)

/-- One compound statement, or the statements of one line. -/
def statementOf (r : Rules) (block : Reader (List Stmt)) : Reader (List Stmt) := do
  let t ← peek
  let second ← fun i => some (((i.tokens.drop 1).head?.map Token.text).getD "", i)
  let one (p : Reader Stmt) : Reader (List Stmt) := do return [← p]
  if t.is "@" then
    let ds ← many1 (decorator r)
    if ← sees "class" then one (classDefinition r block ds) else one (function r block ds)
  else if t.kind != .name then simpleLine r
  else match t.text with
  | "def" => one (function r block [])
  | "class" => one (classDefinition r block [])
  | "if" => do one (ifStatementUpTo r block "if" (← remaining))
  | "for" => one (forStatement r block)
  | "while" => one (whileStatement r block)
  | "with" => one (withStatement r block)
  | "try" => one (tryStatement r block)
  | "async" =>
    if second = "def" then one (function r block [])
    else if second = "with" then one (withStatement r block)
    else one (forStatement r block)
  | "match" => one (matchStatement r block) <|> simpleLine r
  | _ => simpleLine r

/-- Statements for a number of levels of nesting. -/
def statementUpTo (r : Rules) : Nat → Reader (List Stmt)
  | 0 => failure
  | n + 1 => statementOf r (blockOf r (statementUpTo r n))

def file (r : Rules) (depth : Nat) : Reader (List Stmt) := do
  let ss ← many (statementUpTo r depth)
  let _ ← kind .stop
  return ss.flatten

/-- A file as it is read: a carriage return and a line feed at its end have an empty line after them, so that a
backslash before them joins something. -/
def fileChars (source : List Char) : List Char :=
  if source.reverse.take 2 == ['\n', '\r'] then source ++ ['\n'] else source

/-- The statements of a source text, or nothing if it does not follow the grammar. -/
def parse (source : List Char) : Option (List Stmt) := do
  let tokens ← Token.lex (fileChars source)
  let depth := source.length + 2
  let (ss, _) ← (file (Rules.upTo depth) depth).run ⟨tokens, ⟨1, 0⟩⟩
  return ss

/-- A source text that is one expression. -/
def parseExpression (source : List Char) : Option Expr := do
  let tokens ← Token.lex source
  let r := Rules.upTo (source.length + 2)
  let (e, _) ← (do
    let e ← tupled r.expression
    let _ ← many (kind .newline)
    let _ ← kind .stop
    return e : Reader Expr).run ⟨tokens, ⟨1, 0⟩⟩
  return e

end TwinModule.Grammar
