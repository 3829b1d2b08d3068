import TwinModule.Comments.Extent
import TwinModule.Comments.Scan
/-!
Putting the comments of a text into its tree. A comment goes to the innermost node whose extent holds its
line, into the first block there that does not end before it; the block is then ordered by the lines on which
its items end.
-/
set_option autoImplicit false

namespace TwinModule.Comments

/-- The lists of a node that comments may go into. -/
inductive Block where
  | body | handlers | orelse | finalbody | cases
  deriving DecidableEq, Repr

/-- A node by the way from the root to it. -/
abbrev Path := List (Block × Nat)

/-- A node that comments may go into: its extent, and those of its blocks. -/
structure Site where
  path : Path
  low : Nat
  high : Nat
  blocks : List (Block × Nat × Nat)
  deriving Repr

/-- Why comments cannot be placed: the tree has lines that the page does not have. -/
inductive PlaceError where
  | noSuchLine
  deriving DecidableEq, Repr

abbrev Lines := Nat × Nat

def spanLines (s : Span) : Lines := (s.line.getD 1, s.endLine.getD 1)

def joinLines (a b : Lines) : Lines := (min a.1 b.1, max a.2 b.2)

/-- From the first line of all to the last. -/
def coverLines : List Lines → Option Lines
  | [] => none
  | l :: ls => some (ls.foldl joinLines l)

def stmtLines (s : Stmt) : Lines := spanLines s.span

def handlerLines : Handler → Lines
  | .comment c => spanLines c.span
  | .handler span .. => spanLines span

/-- A case has no lines of its own but those of its parts. -/
def caseLines : Case → Lines
  | .comment c => spanLines c.span
  | .case lines _ _ body => (body.map stmtLines).foldl joinLines lines

/-- The extents of the blocks that are not empty. -/
def blockExtents (page : Page) : List (Block × List Lines) → Except PlaceError (List (Block × Nat × Nat))
  | [] => .ok []
  | (b, items) :: rest =>
    match coverLines items with
    | none => blockExtents page rest
    | some (low, high) =>
      match page.extend? low high with
      | none => .error .noSuchLine
      | some extent => do return (b, extent) :: (← blockExtents page rest)

/-- The extent of a node with lines of its own; its last line has to be on the page. -/
def nodeExtent (page : Page) (span : Span) : Except PlaceError Lines :=
  match page.extend? (spanLines span).1 (spanLines span).2 with
  | none => .error .noSuchLine
  | some extent => if extent.2 ≤ page.lengths.size then .ok extent else .error .noSuchLine

/-- The site of a node that has a span, if one of its blocks has an item. -/
def siteOf (page : Page) (path : Path) (span : Span) (blocks : List (Block × List Lines)) :
    Except PlaceError (List Site) := do
  let bs ← blockExtents page blocks
  if bs.isEmpty then return []
  let (low, high) ← nodeExtent page span
  return [⟨path, low, high, bs⟩]

/-- The site of a node that has no span but items with the given lines. -/
def looseSite (page : Page) (path : Path) (block : Block) (items parts : List Lines) :
    Except PlaceError (List Site) := do
  let bs ← blockExtents page [(block, items)]
  match bs with
  | [(_, extent)] =>
    let (low, high) := parts.foldl joinLines extent
    return [⟨path, low, high, bs⟩]
  | _ => return []

mutual

/-- The sites in a statement, outer ones first. -/
def stmtSites (page : Page) (path : Path) : Stmt → Except PlaceError (List Site)
  | .simple .. => .ok []
  | .comment _ => .ok []
  | .block info _ body => do
    let own ← siteOf page path info.span [(.body, body.map stmtLines)]
    return own ++ (← stmtsSites page path .body 0 body)
  | .branch info _ body orelse => do
    let own ← siteOf page path info.span [(.body, body.map stmtLines), (.orelse, orelse.map stmtLines)]
    return own ++ (← stmtsSites page path .body 0 body) ++ (← stmtsSites page path .orelse 0 orelse)
  | .attempt info _ body handlers orelse finalbody => do
    let own ← siteOf page path info.span
      [(.body, body.map stmtLines), (.handlers, handlers.map handlerLines),
       (.orelse, orelse.map stmtLines), (.finalbody, finalbody.map stmtLines)]
    return own ++ (← stmtsSites page path .body 0 body) ++ (← handlersSites page path 0 handlers) ++
      (← stmtsSites page path .orelse 0 orelse) ++ (← stmtsSites page path .finalbody 0 finalbody)
  | .select info _ cases => do
    let own ← siteOf page path info.span [(.cases, cases.map caseLines)]
    return own ++ (← casesSites page path 0 cases)

def stmtsSites (page : Page) (path : Path) (block : Block) (i : Nat) : List Stmt → Except PlaceError (List Site)
  | [] => .ok []
  | s :: ss => do
    let first ← stmtSites page (path ++ [(block, i)]) s
    return first ++ (← stmtsSites page path block (i + 1) ss)

def handlersSites (page : Page) (path : Path) (i : Nat) : List Handler → Except PlaceError (List Site)
  | [] => .ok []
  | .comment _ :: hs => handlersSites page path (i + 1) hs
  | .handler span _ _ body :: hs => do
    let here := path ++ [(.handlers, i)]
    let own ← siteOf page here span [(.body, body.map stmtLines)]
    return own ++ (← stmtsSites page here .body 0 body) ++ (← handlersSites page path (i + 1) hs)

def casesSites (page : Page) (path : Path) (i : Nat) : List Case → Except PlaceError (List Site)
  | [] => .ok []
  | .comment _ :: cs => casesSites page path (i + 1) cs
  | .case lines _ _ body :: cs => do
    let here := path ++ [(.cases, i)]
    let own ← looseSite page here .body (body.map stmtLines) (lines :: body.map stmtLines)
    return own ++ (← stmtsSites page here .body 0 body) ++ (← casesSites page path (i + 1) cs)

end

/-- All sites of a file, by depth. -/
def sites (page : Page) (body : List Stmt) : Except PlaceError (List Site) := do
  let own ← looseSite page [] .body (body.map stmtLines) (body.map stmtLines)
  let inner ← stmtsSites page [] .body 0 body
  return (own ++ inner).mergeSort fun a b => a.path.length ≤ b.path.length

/-- Whether a line is better kept by `b` than by `a`, which comes before it. -/
def Site.isBetter (a b : Site) : Bool :=
  a.low < b.low || (a.low = b.low && b.high ≤ a.high)

/-- The site for a comment on a line. -/
def siteFor (line : Nat) (ss : List Site) : Option Site :=
  (ss.filter fun s => s.low ≤ line && line ≤ s.high).foldl
    (fun best s => match best with
      | none => some s
      | some b => if b.isBetter s then some s else some b) none

/-- The block of a site for a comment on a line: the first one that does not end before it, or the last. -/
def Site.blockFor (s : Site) (line : Nat) : Block :=
  match s.blocks.find? fun b => line ≤ b.2.2 with
  | some b => b.1
  | none => (s.blocks.getLast?.map Prod.fst).getD .body

/-- A comment and the block it goes into. -/
structure Placed where
  path : Path
  block : Block
  comment : Comment

def place (ss : List Site) (c : Comment) : Placed :=
  let line := c.span.line.getD 1
  match siteFor line ss with
  | some s => ⟨s.path, s.blockFor line, c⟩
  | none => ⟨[], .body, c⟩

/-- What the items of a block have in common here. -/
structure ItemView (α : Type) where
  endLine : α → Nat
  comment? : α → Option Comment
  ofComment : Comment → α

variable {α : Type}

/-- Items end in order, comments after what ends on the same line. -/
def ItemView.le (v : ItemView α) (a b : α) : Bool :=
  v.endLine a < v.endLine b ||
    (v.endLine a = v.endLine b && ((v.comment? a).isNone || (v.comment? b).isSome))

/-- A comment after a comment is on a line of its own. -/
def ItemView.separate (v : ItemView α) : Bool → List α → List α
  | _, [] => []
  | afterComment, a :: as =>
    match v.comment? a with
    | some c => (if afterComment then v.ofComment { c with isInline := false } else a) :: v.separate true as
    | none => a :: v.separate false as

def ItemView.insert (v : ItemView α) (items : List α) (c : Comment) : List α :=
  v.separate false ((items ++ [v.ofComment c]).mergeSort v.le)

def stmtView : ItemView Stmt where
  endLine s := (stmtLines s).2
  comment? | .comment c => some c | _ => none
  ofComment := .comment

def handlerView : ItemView Handler where
  endLine h := (handlerLines h).2
  comment? | .comment c => some c | _ => none
  ofComment := .comment

def caseView : ItemView Case where
  endLine c := (caseLines c).2
  comment? | .comment c => some c | _ => none
  ofComment := .comment

def fill (v : ItemView α) (placed : List Placed) (path : Path) (block : Block) (items : List α) : List α :=
  ((placed.filter fun p => p.path == path && p.block == block).map Placed.comment).foldl v.insert items

/-- The span of a node that reaches as far as its extent. -/
def grown (page : Page) (span : Span) (hasItems : Bool) : Span :=
  if hasItems then
    match page.extend? (spanLines span).1 (spanLines span).2 with
    | some (low, high) =>
      { span with line := some low, endLine := some high, endColumn := page.lengths[high - 1]? }
    | none => span
  else span

mutual

/-- A statement with the comments in its blocks. -/
def fillStmt (page : Page) (placed : List Placed) (path : Path) : Stmt → Stmt
  | .simple info what => .simple info what
  | .comment c => .comment c
  | .block info head body =>
    .block { info with span := grown page info.span !body.isEmpty } head
      (fill stmtView placed path .body (fillStmts page placed path .body 0 body))
  | .branch info head body orelse =>
    .branch { info with span := grown page info.span !(body.isEmpty && orelse.isEmpty) } head
      (fill stmtView placed path .body (fillStmts page placed path .body 0 body))
      (fill stmtView placed path .orelse (fillStmts page placed path .orelse 0 orelse))
  | .attempt info isGroup body handlers orelse finalbody =>
    .attempt { info with span := grown page info.span !body.isEmpty } isGroup
      (fill stmtView placed path .body (fillStmts page placed path .body 0 body))
      (fill handlerView placed path .handlers (fillHandlers page placed path 0 handlers))
      (fill stmtView placed path .orelse (fillStmts page placed path .orelse 0 orelse))
      (fill stmtView placed path .finalbody (fillStmts page placed path .finalbody 0 finalbody))
  | .select info subject cases =>
    .select { info with span := grown page info.span !cases.isEmpty } subject
      (fill caseView placed path .cases (fillCases page placed path 0 cases))

def fillStmts (page : Page) (placed : List Placed) (path : Path) (block : Block) (i : Nat) :
    List Stmt → List Stmt
  | [] => []
  | s :: ss => fillStmt page placed (path ++ [(block, i)]) s :: fillStmts page placed path block (i + 1) ss

def fillHandlers (page : Page) (placed : List Placed) (path : Path) (i : Nat) : List Handler → List Handler
  | [] => []
  | .comment c :: hs => .comment c :: fillHandlers page placed path (i + 1) hs
  | .handler span type name body :: hs =>
    let here := path ++ [(.handlers, i)]
    .handler (grown page span !body.isEmpty) type name
      (fill stmtView placed here .body (fillStmts page placed here .body 0 body)) ::
      fillHandlers page placed path (i + 1) hs

def fillCases (page : Page) (placed : List Placed) (path : Path) (i : Nat) : List Case → List Case
  | [] => []
  | .comment c :: cs => .comment c :: fillCases page placed path (i + 1) cs
  | .case lines pattern guard body :: cs =>
    let here := path ++ [(.cases, i)]
    .case lines pattern guard
      (fill stmtView placed here .body (fillStmts page placed here .body 0 body)) ::
      fillCases page placed path (i + 1) cs

end

/-- A file with its comments. Without any comment, the tree stays as it is. -/
def attach (source : List Char) (comments : List Comment) (body : List Stmt) : Except PlaceError (List Stmt) :=
  if comments.isEmpty then .ok body
  else do
    let page := Page.of source
    let placed := comments.map (place (← sites page body))
    return fill stmtView placed [] .body (fillStmts page placed [] .body 0 body)

end TwinModule.Comments
