import TwinModule.Directive.Basic
import TwinModule.Syntax.Stmt
/-!
Putting directives into effect. In every block the directive comments go away: those for the next statement
become tags of it, a declared module becomes a module without a body, and what stands between the begin and the
end of a module becomes the body of one. Inner blocks come first.
-/
set_option autoImplicit false

namespace TwinModule

/-- A module that has begun, or the block itself. -/
structure OpenBlock where
  /-- The name and the line of the begin; none for the block itself. -/
  start : Option (String × Nat)
  tags : List Tag
  body : List Stmt
  /-- The tags for the next statement. -/
  pending : List Tag
  deriving Inhabited

namespace OpenBlock

/-- A block or a module before its first statement. -/
def fresh (start : Option (String × Nat)) (tags : List Tag) : OpenBlock := ⟨start, tags, [], []⟩

/-- One more item, which takes no tags. -/
def push (b : OpenBlock) (s : Stmt) : OpenBlock := { b with body := b.body ++ [s] }

/-- One more item, which takes the tags that wait. -/
def pushTagged (b : OpenBlock) (s : Stmt) : OpenBlock :=
  { b with body := b.body ++ [s.withTags (s.tags ++ b.pending)], pending := [] }

def await (b : OpenBlock) (t : Tag) : OpenBlock := { b with pending := b.pending ++ [t] }

end OpenBlock

/-- The open modules of a block, innermost first, and the block itself. -/
structure OpenBlocks where
  top : OpenBlock
  below : List OpenBlock
  deriving Inhabited

namespace Directive

/-- A module that is declared by the comment with the given span. -/
def declaredModule (name : String) (tags : List Tag) (comment : Span) : Stmt :=
  .block ⟨⟨comment.line, some (comment.column.getD 0), comment.endLine.or comment.line,
    some (comment.endColumn.getD 0)⟩, tags⟩ (.module_ name) []

/-- A module with a body, from the line of its begin to the comment that ends it. -/
def inlineModule (name : String) (line : Nat) (tags : List Tag) (body : List Stmt) (comment : Span) : Stmt :=
  .block ⟨⟨some line, some 0, comment.endLine.or comment.line, some (comment.endColumn.getD 0)⟩, tags⟩
    (.module_ name) body

/-- Only modules may be given a source. -/
def checkSources (s : Stmt) (pending : List Tag) : Except Failure Unit :=
  match pending.find? fun t => t.family == Tag.sourceFamily with
  | some t => complain t.line (.pathOnStatement s.kindName s.span.line)
  | none => .ok ()

/-- Tags have to be followed by a statement. -/
def checkDangling (pending : List Tag) (before : DanglingEnd) : Except Failure Unit :=
  match pending with
  | t :: _ => complain t.line (.dangling before t.line)
  | [] => .ok ()

/-- The directive in a comment, which has to be on a line of its own. -/
def inComment? (c : Comment) : Except Failure (Option Directive) :=
  let line := c.span.line.getD 1
  match ofComment? line c.text with
  | .ok (some d) => if c.isInline then complain line (.inlineDirective line) else .ok (some d)
  | r => r

def close (name : String) (line : Nat) (comment : Span) (open_ : OpenBlocks) : Except Failure OpenBlocks :=
  match open_.top.start, open_.below with
  | some (started, startLine), outer :: below =>
    if started = name then
      match checkDangling open_.top.pending (.module_ started) with
      | .error f => .error f
      | .ok () => .ok
        ⟨outer.push (inlineModule started startLine open_.top.tags open_.top.body comment), below⟩
    else complain line (.endOfOther name line started startLine)
  | _, _ => complain line (.endWithoutStart name line)

/-- The effect of a directive in a block where modules are allowed or not. -/
def apply (modules : Bool) (d : Directive) (comment : Span) (open_ : OpenBlocks) :
    Except Failure OpenBlocks :=
  match d.tag? with
  | some t => .ok ⟨open_.top.await t, open_.below⟩
  | none =>
    if !modules then complain d.line (.moduleInBlock d.argument)
    else
      match d.request with
      | .declare name => .ok ⟨{ open_.top with
          body := open_.top.body ++ [declaredModule name open_.top.pending comment], pending := [] }, open_.below⟩
      | .begin_ name => .ok ⟨OpenBlock.fresh (some (name, d.line)) open_.top.pending,
          { open_.top with pending := [] } :: open_.below⟩
      | .end_ name => close name d.line comment open_
      | _ => .ok open_

def step (modules : Bool) (open_ : OpenBlocks) : Stmt → Except Failure OpenBlocks
  | .comment c =>
    match inComment? c with
    | .error f => .error f
    | .ok (some d) => apply modules d c.span open_
    | .ok none => .ok ⟨open_.top.push (.comment c), open_.below⟩
  | s =>
    match checkSources s open_.top.pending with
    | .error f => .error f
    | .ok () => .ok ⟨open_.top.pushTagged s, open_.below⟩

def steps (modules : Bool) (open_ : OpenBlocks) : List Stmt → Except Failure OpenBlocks
  | [] => .ok open_
  | s :: ss =>
    match step modules open_ s with
    | .error f => .error f
    | .ok next => steps modules next ss

/-- The block once all its items are in. -/
def finish (open_ : OpenBlocks) : Except Failure (List Stmt) :=
  match open_.top.start with
  | some (name, line) => complain line (.neverEnded name line)
  | none =>
    match checkDangling open_.top.pending .block with
    | .error f => .error f
    | .ok () => .ok open_.top.body

/-- The block with its directives in effect, those of inner blocks aside. -/
def group (modules : Bool) (ss : List Stmt) : Except Failure (List Stmt) :=
  match steps modules ⟨OpenBlock.fresh none [], []⟩ ss with
  | .error f => .error f
  | .ok open_ => finish open_

/-- Comments between handlers or cases must not be directives. -/
def checkLoose (c : Comment) : Except Failure Unit :=
  match inComment? c with
  | .error f => .error f
  | .ok none => .ok ()
  | .ok (some d) => complain d.line (.misplaced d.family d.argument)

def checkHandlers : List Handler → Except Failure Unit
  | [] => .ok ()
  | .comment c :: hs => do
    checkLoose c
    checkHandlers hs
  | .handler .. :: hs => checkHandlers hs

def checkCases : List Case → Except Failure Unit
  | [] => .ok ()
  | .comment c :: cs => do
    checkLoose c
    checkCases cs
  | .case .. :: cs => checkCases cs

end Directive

namespace BlockHead

def isModule : BlockHead → Bool
  | module_ _ => true
  | _ => false

end BlockHead

open Directive

mutual

/-- A statement with the directives in its blocks in effect. -/
def Stmt.attach : Stmt → Except Failure Stmt
  | .simple info what => .ok (.simple info what)
  | .comment c => .ok (.comment c)
  | .block info head body => do
    return .block info head (← group head.isModule (← attachStmts body))
  | .branch info head body orelse => do
    let body ← group false (← attachStmts body)
    return .branch info head body (← group false (← attachStmts orelse))
  | .attempt info isGroup body handlers orelse finalbody => do
    let body ← group false (← attachStmts body)
    let handlers ← attachHandlers handlers
    checkHandlers handlers
    let orelse ← group false (← attachStmts orelse)
    return .attempt info isGroup body handlers orelse (← group false (← attachStmts finalbody))
  | .select info subject cases => do
    let cases ← attachCases cases
    checkCases cases
    return .select info subject cases

def attachStmts : List Stmt → Except Failure (List Stmt)
  | [] => .ok []
  | s :: ss => do
    let s ← s.attach
    return s :: (← attachStmts ss)

def attachHandlers : List Handler → Except Failure (List Handler)
  | [] => .ok []
  | .comment c :: hs => do return .comment c :: (← attachHandlers hs)
  | .handler span type name body :: hs => do
    let body ← group false (← attachStmts body)
    return .handler span type name body :: (← attachHandlers hs)

def attachCases : List Case → Except Failure (List Case)
  | [] => .ok []
  | .comment c :: cs => do return .comment c :: (← attachCases cs)
  | .case lines pattern guard body :: cs => do
    let body ← group false (← attachStmts body)
    return .case lines pattern guard body :: (← attachCases cs)

end

/-- The body of a file or a module with all its directives in effect. -/
def attachBody (body : List Stmt) : Except Failure (List Stmt) := do
  group true (← attachStmts body)

end TwinModule
