import TwinModule.Syntax.Expr
import TwinModule.Syntax.Tag
/-!
Statements of Python with comments, named modules and erased statements among them. A block is a list of
statements in which comments stand between the statements; handlers and cases may have comments between them
too.
-/
set_option autoImplicit false

namespace TwinModule

/-- Where a node starts and ends, as far as that is known. -/
structure Span where
  line : Option Nat
  column : Option Nat
  endLine : Option Nat
  endColumn : Option Nat
  deriving DecidableEq, Repr, Inhabited

namespace Span

def unset : Span := ⟨none, none, none, none⟩

/-- The span of a node made for another one's sake: where that starts, or the start of the text. -/
def forChild (s : Span) : Span :=
  ⟨some (s.line.getD 1), some (s.column.getD 0), s.endLine, s.endColumn⟩

theorem forChild_forChild (s : Span) : s.forChild.forChild = s.forChild := rfl

end Span

/-- A comment with its text from the hash mark on. An inline comment shares its line with code. -/
structure Comment where
  text : String
  isInline : Bool
  span : Span
  deriving DecidableEq, Repr, Inhabited

/-- What every statement carries: its span and its tags. -/
structure Info where
  span : Span
  tags : List Tag
  deriving DecidableEq, Repr, Inhabited

/-- A name of an import, perhaps under another one. -/
structure Alias where
  name : String
  asName : Option String
  deriving DecidableEq, Repr, Inhabited

structure WithItem where
  context : Expr
  target : Option Expr
  deriving Inhabited

/-- A decorator and the line on which its expression starts. -/
structure Decorator where
  line : Nat
  expr : Expr
  deriving Inhabited

inductive Simple where
  | return_ (value : Option Expr)
  | delete (targets : List Expr)
  | assign (targets : List Expr) (value : Expr) (typeComment : Option String)
  | augAssign (target : Expr) (op : BinaryOp) (value : Expr)
  | annAssign (target type : Expr) (value : Option Expr) (isPlain : Nat)
  | raise (exception cause : Option Expr)
  | assert (test : Expr) (message : Option Expr)
  | import_ (names : List Alias)
  | importFrom (module : Option String) (names : List Alias) (level : Option Nat)
  | global (names : List String)
  | nonlocal (names : List String)
  | expr (value : Expr)
  | pass
  | break_
  | continue_
  /-- What is left of a statement that was taken out. -/
  | erased

/-- What introduces a block that stands alone. -/
inductive BlockHead where
  | function (isAsync : Bool) (name : String) (params : Params) (decorators : List Decorator)
      (returns : Option Expr) (typeComment : Option String)
  | class_ (name : String) (bases : List Expr) (keywords : List Keyword) (decorators : List Decorator)
  | with_ (isAsync : Bool) (items : List WithItem) (typeComment : Option String)
  /-- A module in the module around it. -/
  | module_ (name : String)

/-- What introduces a block that may have an `else` block. -/
inductive BranchHead where
  | for_ (isAsync : Bool) (target iter : Expr) (typeComment : Option String)
  | while_ (test : Expr)
  | if_ (test : Expr)

mutual

inductive Stmt where
  | simple (info : Info) (what : Simple)
  | comment (c : Comment)
  | block (info : Info) (head : BlockHead) (body : List Stmt)
  | branch (info : Info) (head : BranchHead) (body orelse : List Stmt)
  /-- `try`; with `isGroup`, its handlers are for exception groups. -/
  | attempt (info : Info) (isGroup : Bool) (body : List Stmt) (handlers : List Handler)
      (orelse finalbody : List Stmt)
  | select (info : Info) (subject : Expr) (cases : List Case)

inductive Handler where
  | comment (c : Comment)
  | handler (span : Span) (type : Option Expr) (name : Option String) (body : List Stmt)

/-- The lines are those from the pattern to the end of the guard. -/
inductive Case where
  | comment (c : Comment)
  | case (lines : Nat × Nat) (pattern : Pattern) (guard : Option Expr) (body : List Stmt)

end

instance : Inhabited Stmt := ⟨.comment default⟩
instance : Inhabited Handler := ⟨.comment default⟩
instance : Inhabited Case := ⟨.comment default⟩

/-- A source file, or a module on its own. -/
inductive Tree where
  | file (body : List Stmt)
  | module_ (info : Info) (name : String) (body : List Stmt)

namespace Tree

def body : Tree → List Stmt
  | file body => body
  | module_ _ _ body => body

def withBody : Tree → List Stmt → Tree
  | file _, body => file body
  | module_ info name _, body => module_ info name body

@[simp] theorem body_withBody (t : Tree) (b : List Stmt) : (t.withBody b).body = b := by
  cases t <;> rfl

@[simp] theorem withBody_withBody (t : Tree) (b c : List Stmt) : (t.withBody b).withBody c = t.withBody c := by
  cases t <;> rfl

@[simp] theorem withBody_body (t : Tree) : t.withBody t.body = t := by
  cases t <;> rfl

end Tree

/-- What the node is called in a syntax tree. -/
def Simple.kindName : Simple → String
  | .return_ .. => "Return"
  | .delete .. => "Delete"
  | .assign .. => "Assign"
  | .augAssign .. => "AugAssign"
  | .annAssign .. => "AnnAssign"
  | .raise .. => "Raise"
  | .assert .. => "Assert"
  | .import_ .. => "Import"
  | .importFrom .. => "ImportFrom"
  | .global .. => "Global"
  | .nonlocal .. => "Nonlocal"
  | .expr .. => "Expr"
  | .pass => "Pass"
  | .break_ => "Break"
  | .continue_ => "Continue"
  | .erased => "Erased"

def BlockHead.kindName : BlockHead → String
  | .function true .. => "AsyncFunctionDef"
  | .function false .. => "FunctionDef"
  | .class_ .. => "ClassDef"
  | .with_ true .. => "AsyncWith"
  | .with_ false .. => "With"
  | .module_ .. => "ModuleDef"

def BranchHead.kindName : BranchHead → String
  | .for_ true .. => "AsyncFor"
  | .for_ false .. => "For"
  | .while_ .. => "While"
  | .if_ .. => "If"

namespace Stmt

def kindName : Stmt → String
  | simple _ what => what.kindName
  | comment .. => "Comment"
  | block _ head _ => head.kindName
  | branch _ head _ _ => head.kindName
  | attempt _ true .. => "TryStar"
  | attempt _ false .. => "Try"
  | select .. => "Match"

def isComment : Stmt → Bool
  | comment _ => true
  | _ => false

/-- A comment is no statement. -/
def isReal (s : Stmt) : Bool := !s.isComment

def isErased : Stmt → Bool
  | simple _ .erased => true
  | _ => false

def span : Stmt → Span
  | simple info _ => info.span
  | comment c => c.span
  | block info _ _ => info.span
  | branch info _ _ _ => info.span
  | attempt info _ _ _ _ _ => info.span
  | select info _ _ => info.span

/-- Comments carry no tags. -/
def tags : Stmt → List Tag
  | simple info _ => info.tags
  | comment _ => []
  | block info _ _ => info.tags
  | branch info _ _ _ => info.tags
  | attempt info _ _ _ _ _ => info.tags
  | select info _ _ => info.tags

def mapInfo (f : Info → Info) : Stmt → Stmt
  | simple info what => simple (f info) what
  | comment c => comment c
  | block info head body => block (f info) head body
  | branch info head body orelse => branch (f info) head body orelse
  | attempt info isGroup body handlers orelse finalbody =>
    attempt (f info) isGroup body handlers orelse finalbody
  | select info subject cases => select (f info) subject cases

def withTags (s : Stmt) (ts : List Tag) : Stmt :=
  s.mapInfo fun info => { info with tags := ts }

def pass (span : Span) : Stmt := simple ⟨span, []⟩ .pass

theorem tags_withTags {s : Stmt} (h : s.isReal = true) (ts : List Tag) : (s.withTags ts).tags = ts := by
  cases s <;> simp_all [isReal, isComment, withTags, mapInfo, tags]

theorem withTags_tags (s : Stmt) : s.withTags s.tags = s := by
  cases s <;> rfl

/-- Definitions and modules are dropped outright where other statements leave a trace. -/
def isDeclaration : Stmt → Bool
  | block _ (.function ..) _ => true
  | block _ (.class_ ..) _ => true
  | block _ (.module_ _) _ => true
  | _ => false

end Stmt

/-- A module is inline if its body has a statement. -/
def isInline (body : List Stmt) : Bool := body.any Stmt.isReal

/-- The modules directly in a body, by name. -/
def submodules : List Stmt → List String
  | [] => []
  | .block _ (.module_ name) _ :: rest => name :: submodules rest
  | _ :: rest => submodules rest

end TwinModule
