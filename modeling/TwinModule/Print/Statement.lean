import TwinModule.Syntax.Stmt
import TwinModule.Print.Expression
import TwinModule.Print.Piece
/-!
The source text of statements. Tags and modules are written as directive comments, erased statements as
`pass`. A string that opens a file, a class or a function is written as its documentation.
-/
set_option autoImplicit false

namespace TwinModule.Print

abbrev Pieces := Except PrintError (List Piece)

def declareText : String := "# amphi-mod: "
def beginText : String := "# amphi-begin: "
def endText : String := "# amphi-end: "

def typeCommentText : Option String → String
  | none => ""
  | some text => " # type: " ++ text

def aliasText (a : Alias) : String :=
  match a.asName with
  | none => a.name
  | some n => if n.isEmpty then a.name else a.name ++ " as " ++ n

def targetTexts : List Expr → Text
  | [] => return ""
  | t :: ts => do
    let text ← expr false (some .tuple) t
    return text ++ " = " ++ (← targetTexts ts)

/-- An optional part with what separates it from the text before it. -/
def following (separator : String) : Option Expr → Text
  | none => return ""
  | some e => do return separator ++ (← expr false none e)

/-- The text of a statement without blocks. -/
def simpleText : Simple → Text
  | .return_ value => do return "return" ++ (← following " " value)
  | .delete targets => do return "del " ++ joined ", " (← exprs false none targets)
  | .assign targets value typeComment => do
    let ts ← targetTexts targets
    return ts ++ (← expr false none value) ++ typeCommentText typeComment
  | .augAssign target op value => do
    let t ← expr false none target
    return t ++ " " ++ op.symbol ++ "= " ++ (← expr false none value)
  | .annAssign target type value isPlain => do
    let t ← expr false none target
    let isName := match target with
      | .name .. => true
      | _ => false
    let a ← expr false none type
    return parenthesized (isPlain = 0 && isName) t ++ ": " ++ a ++ (← following " = " value)
  | .raise none none => return "raise"
  | .raise none (some _) => throw .causeAlone
  | .raise (some exception) cause => do
    let e ← expr false none exception
    return "raise " ++ e ++ (← following " from " cause)
  | .assert test message => do
    let t ← expr false none test
    return "assert " ++ t ++ (← following ", " message)
  | .import_ names => return "import " ++ joined ", " (names.map aliasText)
  | .importFrom module names level =>
    return "from " ++ String.ofList (List.replicate (level.getD 0) '.') ++ module.getD "" ++ " import " ++
      joined ", " (names.map aliasText)
  | .global names => return "global " ++ joined ", " names
  | .nonlocal names => return "nonlocal " ++ joined ", " names
  | .expr value => expr false (some .yield) value
  | .pass => return "pass"
  | .break_ => return "break"
  | .continue_ => return "continue"
  | .erased => return "pass"

def itemText (item : WithItem) : Text := do
  let c ← expr false none item.context
  return c ++ (← following " as " item.target)

def itemTexts : List WithItem → Except PrintError (List String)
  | [] => return []
  | i :: is => do
    let text ← itemText i
    return text :: (← itemTexts is)

def decoratorPieces (depth : Nat) : List Decorator → Pieces
  | [] => return []
  | d :: ds => do
    let text ← expr false none d.expr
    return .line depth ("@" ++ text) :: (← decoratorPieces depth ds)

/-- The line that introduces a block, decorators before it; no line for modules. -/
def blockHeadPieces (depth : Nat) : BlockHead → Pieces
  | .function isAsync name ps decorators returns typeComment => do
    let ds ← decoratorPieces depth decorators
    let p ← params false ps
    let r ← following " -> " returns
    return ds ++ [.line depth ((if isAsync then "async def " else "def ") ++ name ++ "(" ++ p ++ ")" ++ r ++
      ":" ++ typeCommentText typeComment)]
  | .class_ name bases ks decorators => do
    let ds ← decoratorPieces depth decorators
    let bs ← exprs false none bases
    let ns ← keywords false ks
    let args := bs ++ ns
    return ds ++ [.line depth ("class " ++ name ++
      (if bases.isEmpty && ks.isEmpty then "" else "(" ++ joined ", " args ++ ")") ++ ":")]
  | .with_ isAsync items typeComment => do
    let is ← itemTexts items
    return [.line depth ((if isAsync then "async with " else "with ") ++ joined ", " is ++ ":" ++
      typeCommentText typeComment)]
  | .module_ _ => return []

def branchHeadPieces (depth : Nat) (word : String) : BranchHead → Pieces
  | .for_ isAsync target iter typeComment => do
    let t ← expr false (some .tuple) target
    let i ← expr false none iter
    return [.line depth ((if isAsync then "async for " else "for ") ++ t ++ " in " ++ i ++ ":" ++
      typeCommentText typeComment)]
  | .while_ test => do return [.line depth ("while " ++ (← expr false none test) ++ ":")]
  | .if_ test => do return [.line depth (word ++ " " ++ (← expr false none test) ++ ":")]

mutual

def pattern (asked : Option Strength) : Pattern → Text
  | .value e => expr false none e
  | .singleton l => return literalText false l
  | .sequence items => do return "[" ++ joined ", " (← patterns none items) ++ "]"
  | .mapping keys items rest => do
    if keys.length < items.length then throw (.unmatched false)
    let ks ← exprs false none (keys.take items.length)
    let ps ← patterns none items
    if items.length < keys.length then throw (.unmatched true)
    let pairs := ks.zipWith (fun k p => k ++ ": " ++ p) ps
    let rest := match rest with
      | none => ""
      | some name => (if keys.isEmpty then "" else ", ") ++ "**" ++ name
    return "\x7b" ++ joined ", " pairs ++ rest ++ "\x7d"
  | .class_ callee items names named => do
    let c ← expr false (some .atom) callee
    let ps ← patterns none items
    let ns ← patterns none named
    if names.length < ns.length && !names.isEmpty then throw (.unmatched false)
    if ns.length < names.length then throw (.unmatched true)
    let pairs := names.zipWith (fun n p => n ++ "=" ++ p) ns
    return c ++ "(" ++ joined ", " (ps ++ pairs) ++ ")"
  | .star name => return "*" ++ name.getD "_"
  | .as_ _ none => return "_"
  | .as_ none (some name) => return name
  | .as_ (some item) (some name) => do
    let text ← pattern (some .bitOr) item
    return parenthesized (.test < asked.getD .test) (text ++ " as " ++ name)
  | .or_ items => do
    let texts ← patterns (some Strength.bitOr.next) items
    return parenthesized (.bitOr < asked.getD .test) (joined " | " texts)

def patterns (asked : Option Strength) : List Pattern → Except PrintError (List String)
  | [] => return []
  | p :: ps => do
    let text ← pattern asked p
    return text :: (← patterns asked ps)

end

/-- Comments and then one `if` and no more. -/
def isChain : List Stmt → Bool
  | .comment _ :: ss => isChain ss
  | [.branch _ (.if_ _) _ _] => true
  | _ => false

def docLine (depth : Nat) : List Stmt → Option Piece
  | .simple _ (.expr (.literal (.text s) mark)) :: _ =>
    some (.line depth ((if mark = some "u" then "u" else "") ++ StringForm.write StringForm.triple s.toList))
  | _ => none

/-- Whether a block opens with its documentation, and whether an empty line goes before it. -/
def BlockHead.isSpaced : BlockHead → Bool
  | .function .. => true
  | .class_ .. => true
  | _ => false

def commentPiece (depth : Nat) (c : Comment) : Piece :=
  if c.isInline then .tail ("  " ++ c.text) else .line depth c.text

def tagPieces (depth : Nat) (ts : List Tag) : List Piece :=
  ts.map fun t => .line depth t.render

mutual

def stmt (depth : Nat) : Stmt → Pieces
  | .simple info what => do
    return tagPieces depth info.tags ++ [.line depth (← simpleText what)]
  | .comment c => return [commentPiece depth c]
  | .block info (.module_ name) body => do
    let ps ← stmts depth body
    return tagPieces depth info.tags ++
      (if body.isEmpty then [.line depth (declareText ++ name)]
       else .line depth (beginText ++ name) :: ps ++ [.line depth (endText ++ name)])
  | .block info head body => do
    let hs ← blockHeadPieces depth head
    let ps ← if BlockHead.isSpaced head then documented (depth + 1) body else stmts (depth + 1) body
    let gap := if BlockHead.isSpaced head then [.gap] else []
    return gap ++ tagPieces depth info.tags ++ hs ++ ps
  | .branch info head body orelse => do
    let hs ← branchHeadPieces depth "if" head
    let ps ← stmts (depth + 1) body
    let es ← match head with
      | .if_ _ => if isChain orelse then chain depth orelse else clausePieces depth "else" orelse
      | _ => clausePieces depth "else" orelse
    return tagPieces depth info.tags ++ hs ++ ps ++ es
  | .attempt info isGroup body handlers orelse finalbody => do
    let ps ← stmts (depth + 1) body
    let hs ← handlerPieces depth isGroup handlers
    let es ← clausePieces depth "else" orelse
    let fs ← clausePieces depth "finally" finalbody
    return tagPieces depth info.tags ++ .line depth "try:" :: ps ++ hs ++ es ++ fs
  | .select info subject cases => do
    let s ← expr false none subject
    let cs ← casePieces (depth + 1) cases
    return tagPieces depth info.tags ++ .line depth ("match " ++ s ++ ":") :: cs

def stmts (depth : Nat) : List Stmt → Pieces
  | [] => return []
  | s :: ss => do
    let ps ← stmt depth s
    return ps ++ (← stmts depth ss)

/-- A body whose first statement may be its documentation. -/
def documented (depth : Nat) : List Stmt → Pieces
  | [] => return []
  | s :: ss => do
    let ps ← match docLine depth [s] with
      | some p => pure [p]
      | none => stmt depth s
    return ps ++ (← stmts depth ss)

/-- A further block of a statement; an empty one is not written. -/
def clausePieces (depth : Nat) (word : String) : List Stmt → Pieces
  | [] => return []
  | s :: ss => do
    let ps ← stmt (depth + 1) s
    return .line depth (word ++ ":") :: ps ++ (← stmts (depth + 1) ss)

/-- What follows the block of an `if` when it is a lone `if`, after comments: that is written as `elif`. -/
def chain (depth : Nat) : List Stmt → Pieces
  | .comment c :: ss => do return commentPiece depth c :: (← chain depth ss)
  | .branch _ head body orelse :: _ => do
    let hs ← branchHeadPieces depth "elif" head
    let ps ← stmts (depth + 1) body
    let es ← if isChain orelse then chain depth orelse else clausePieces depth "else" orelse
    return hs ++ ps ++ es
  | _ => return []

def handler (depth : Nat) (isGroup : Bool) : Handler → Pieces
  | .comment c => return [commentPiece depth c]
  | .handler _ type name body => do
    let t ← following " " type
    let n := match name with
      | none => ""
      | some n => if n.isEmpty then "" else " as " ++ n
    let ps ← stmts (depth + 1) body
    return .line depth ((if isGroup then "except*" else "except") ++ t ++ n ++ ":") :: ps

def handlerPieces (depth : Nat) (isGroup : Bool) : List Handler → Pieces
  | [] => return []
  | h :: hs => do
    let ps ← handler depth isGroup h
    return ps ++ (← handlerPieces depth isGroup hs)

def casePiece (depth : Nat) : Case → Pieces
  | .comment c => return [commentPiece depth c]
  | .case _ p guard body => do
    let t ← pattern none p
    let g ← following " if " guard
    let ps ← stmts (depth + 1) body
    return .line depth ("case " ++ t ++ g ++ ":") :: ps

def casePieces (depth : Nat) : List Case → Pieces
  | [] => return []
  | c :: cs => do
    let ps ← casePiece depth c
    return ps ++ (← casePieces depth cs)

end

def pieces : Tree → Pieces
  | .file body => documented 0 body
  | .module_ info name body => stmt 0 (.block info (.module_ name) body)

/-- The source text of a tree. There is no line end after the last line. -/
def source (t : Tree) : Text := do
  return Piece.text (← pieces t)

end TwinModule.Print
