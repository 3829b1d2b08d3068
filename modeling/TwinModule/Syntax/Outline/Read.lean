import TwinModule.Syntax.Outline
/-!
Reading a tree from its outline. The parts of a node are read first, each as whatever its kind says, and then
put together; parts that are missing leave a gap.
-/
set_option autoImplicit false

namespace TwinModule

inductive Reading where
  | absent
  | text (value : String)
  | number (value : Int)
  | flag (value : Bool)
  | literal (value : Literal)
  | list (items : List Reading)
  | expr (value : Expr)
  | clause (value : Clause)
  | keyword (value : Keyword)
  | params (value : Params)
  | param (value : Param)
  | pattern (value : Pattern)
  | importName (value : Alias)
  | withItem (value : WithItem)
  | stmt (value : Stmt)
  | handler (value : Handler)
  | case (value : Case)
  deriving Inhabited

namespace Reading

def text? : Reading → Option String
  | text s => some s
  | _ => none

def int? : Reading → Option Int
  | number n => some n
  | _ => none

/-- A truth value, which a number may stand for. -/
def isTrue : Reading → Bool
  | flag b => b
  | number n => n != 0
  | _ => false

def literalValue : Reading → Literal
  | literal v => v
  | _ => .none

def items : Reading → List Reading
  | list ps => ps
  | _ => []

def oneExpr? : Reading → Option Expr
  | expr e => some e
  | _ => none

/-- An expression, or a list where there should be one. -/
def expr? : Reading → Option Expr
  | list ps => some (.several (ps.filterMap oneExpr?))
  | p => p.oneExpr?

def clause? : Reading → Option Clause
  | clause c => some c
  | _ => none

def keyword? : Reading → Option Keyword
  | keyword k => some k
  | _ => none

def params? : Reading → Option Params
  | params ps => some ps
  | _ => none

def param? : Reading → Option Param
  | param p => some p
  | _ => none

def pattern? : Reading → Option Pattern
  | pattern p => some p
  | _ => none

def importName? : Reading → Option Alias
  | importName a => some a
  | _ => none

def withItem? : Reading → Option WithItem
  | withItem i => some i
  | _ => none

def stmt? : Reading → Option Stmt
  | stmt s => some s
  | _ => none

/-- Comments stand among handlers and cases as they do among statements. -/
def handler? : Reading → Option Handler
  | handler h => some h
  | stmt (.comment c) => some (.comment c)
  | _ => none

def case? : Reading → Option Case
  | case c => some c
  | stmt (.comment c) => some (.comment c)
  | _ => none

end Reading

/-- The named parts of a node of a kind. -/
structure Parts where
  kind : String
  entries : List (String × Reading)

namespace Parts

def get (p : Parts) (name : String) : Reading :=
  match p.entries.find? fun e => e.1 == name with
  | some e => e.2
  | none => .absent

def text (p : Parts) (name : String) : String := ((p.get name).text?).getD ""

def texts (p : Parts) (name : String) : List String := (p.get name).items.filterMap Reading.text?

def expr? (p : Parts) (name : String) : Option Expr := (p.get name).expr?

def expr (p : Parts) (name : String) : Expr := (p.expr? name).getD (.gap p.kind name)

def exprs (p : Parts) (name : String) : List Expr := (p.get name).items.filterMap Reading.expr?

def optionals (p : Parts) (name : String) : List (Option Expr) := (p.get name).items.map Reading.expr?

def clauses (p : Parts) : List Clause := (p.get "generators").items.filterMap Reading.clause?

def keywords (p : Parts) : List Keyword := (p.get "keywords").items.filterMap Reading.keyword?

def params (p : Parts) : Params := ((p.get "args").params?).getD default

def paramList (p : Parts) (name : String) : List Param := (p.get name).items.filterMap Reading.param?

def patterns (p : Parts) (name : String) : List Pattern := (p.get name).items.filterMap Reading.pattern?

def aliases (p : Parts) : List Alias := (p.get "names").items.filterMap Reading.importName?

def stmts (p : Parts) (name : String) : List Stmt := (p.get name).items.filterMap Reading.stmt?

def typeComment (p : Parts) : Option String := (p.get "type_comment").text?

/-- The one of several that is called so. -/
def named {α : Type} (kindName : α → String) (all : List α) (other : α) (name : String) : α :=
  (all.find? fun x => kindName x == name).getD other

def binaryOp (p : Parts) : BinaryOp := named BinaryOp.kindName BinaryOp.all .add (p.text "op")

def usage (p : Parts) : Usage := named Usage.kindName Usage.all .load (p.text "ctx")

/-- The expression with these parts, if the kind is one of an expression. -/
def toExpr? (p : Parts) : Option Expr :=
  match p.kind with
  | "BoolOp" => some (.boolOp (named BoolOp.kindName BoolOp.all .and (p.text "op")) (p.exprs "values"))
  | "NamedExpr" => some (.walrus (p.expr "target") (p.expr "value"))
  | "BinOp" => some (.binary (p.expr "left") p.binaryOp (p.expr "right"))
  | "UnaryOp" => some (.unary (named UnaryOp.kindName UnaryOp.all .not (p.text "op")) (p.expr "operand"))
  | "Lambda" => some (.lambda p.params (p.expr "body"))
  | "IfExp" => some (.ifElse (p.expr "test") (p.expr "body") (p.expr "orelse"))
  | "Dict" => some (.dict (p.optionals "keys") (p.exprs "values"))
  | "Set" => some (.set (p.exprs "elts"))
  | "ListComp" => some (.listComp (p.expr "elt") p.clauses)
  | "SetComp" => some (.setComp (p.expr "elt") p.clauses)
  | "DictComp" => some (.dictComp (p.expr "key") (p.expr "value") p.clauses)
  | "GeneratorExp" => some (.generator (p.expr "elt") p.clauses)
  | "Await" => some (.await (p.expr "value"))
  | "Yield" => some (.yield (p.expr? "value"))
  | "YieldFrom" => some (.yieldFrom (p.expr "value"))
  | "Compare" =>
    some (.compare (p.expr "left") ((p.texts "ops").map (named CompareOp.kindName CompareOp.all .eq))
      (p.exprs "comparators"))
  | "Call" => some (.call (p.expr "func") (p.exprs "args") p.keywords)
  | "FormattedValue" =>
    some (.formatted (p.expr "value") ((p.get "conversion").int?.getD (-1)) (p.expr? "format_spec"))
  | "JoinedStr" => some (.format (p.exprs "values"))
  | "Constant" => some (.literal (p.get "value").literalValue (p.get "kind").text?)
  | "Attribute" => some (.member (p.expr "value") (p.text "attr") p.usage)
  | "Subscript" => some (.index (p.expr "value") (p.expr "slice") p.usage)
  | "Starred" => some (.starred (p.expr "value") p.usage)
  | "Name" => some (.name (p.text "id") p.usage)
  | "List" => some (.list (p.exprs "elts") p.usage)
  | "Tuple" => some (.tuple (p.exprs "elts") p.usage)
  | "Slice" => some (.slice (p.expr? "lower") (p.expr? "upper") (p.expr? "step"))
  | _ => none

def toPattern? (p : Parts) : Option Pattern :=
  match p.kind with
  | "MatchValue" => some (.value (p.expr "value"))
  | "MatchSingleton" => some (.singleton (p.get "value").literalValue)
  | "MatchSequence" => some (.sequence (p.patterns "patterns"))
  | "MatchMapping" => some (.mapping (p.exprs "keys") (p.patterns "patterns") (p.get "rest").text?)
  | "MatchClass" =>
    some (.class_ (p.expr "cls") (p.patterns "patterns") (p.texts "kwd_attrs") (p.patterns "kwd_patterns"))
  | "MatchStar" => some (.star (p.get "name").text?)
  | "MatchAs" => some (.as_ (p.get "pattern").pattern? (p.get "name").text?)
  | "MatchOr" => some (.or_ (p.patterns "patterns"))
  | _ => none

def toSimple? (p : Parts) : Option Simple :=
  match p.kind with
  | "Return" => some (.return_ (p.expr? "value"))
  | "Delete" => some (.delete (p.exprs "targets"))
  | "Assign" => some (.assign (p.exprs "targets") (p.expr "value") p.typeComment)
  | "AugAssign" => some (.augAssign (p.expr "target") p.binaryOp (p.expr "value"))
  | "AnnAssign" =>
    some (.annAssign (p.expr "target") (p.expr "annotation") (p.expr? "value")
      ((p.get "simple").int?.getD 0).toNat)
  | "Raise" => some (.raise (p.expr? "exc") (p.expr? "cause"))
  | "Assert" => some (.assert (p.expr "test") (p.expr? "msg"))
  | "Import" => some (.import_ p.aliases)
  | "ImportFrom" =>
    some (.importFrom (p.get "module").text? p.aliases ((p.get "level").int?.map Int.toNat))
  | "Global" => some (.global (p.texts "names"))
  | "Nonlocal" => some (.nonlocal (p.texts "names"))
  | "Expr" => some (.expr (p.expr "value"))
  | "Pass" => some .pass
  | "Break" => some .break_
  | "Continue" => some .continue_
  | "Erased" => some .erased
  | _ => none

/-- Decorators stand on the line of what they decorate. -/
def decorators (p : Parts) (info : Info) : List Decorator :=
  (p.exprs "decorator_list").map fun e => ⟨info.span.line.getD 1, e⟩

def toFunction (p : Parts) (info : Info) (isAsync : Bool) : BlockHead :=
  .function isAsync (p.text "name") p.params (p.decorators info) (p.expr? "returns") p.typeComment

def toBlockHead? (p : Parts) (info : Info) : Option BlockHead :=
  let items := (p.get "items").items.filterMap Reading.withItem?
  match p.kind with
  | "FunctionDef" => some (p.toFunction info false)
  | "AsyncFunctionDef" => some (p.toFunction info true)
  | "ClassDef" => some (.class_ (p.text "name") (p.exprs "bases") p.keywords (p.decorators info))
  | "With" => some (.with_ false items p.typeComment)
  | "AsyncWith" => some (.with_ true items p.typeComment)
  | "ModuleDef" => some (.module_ (p.text "name"))
  | _ => none

def toBranchHead? (p : Parts) : Option BranchHead :=
  match p.kind with
  | "For" => some (.for_ false (p.expr "target") (p.expr "iter") p.typeComment)
  | "AsyncFor" => some (.for_ true (p.expr "target") (p.expr "iter") p.typeComment)
  | "While" => some (.while_ (p.expr "test"))
  | "If" => some (.if_ (p.expr "test"))
  | _ => none

def toAttempt (p : Parts) (info : Info) (isGroup : Bool) : Stmt :=
  .attempt info isGroup (p.stmts "body") ((p.get "handlers").items.filterMap Reading.handler?) (p.stmts "orelse")
    (p.stmts "finalbody")

def toStmt? (p : Parts) (info : Info) : Option Stmt :=
  match p.toSimple? with
  | some what => some (.simple info what)
  | none =>
    match p.toBlockHead? info with
    | some head => some (.block info head (p.stmts "body"))
    | none =>
      match p.toBranchHead? with
      | some head => some (.branch info head (p.stmts "body") (p.stmts "orelse"))
      | none =>
        match p.kind with
        | "Try" => some (p.toAttempt info false)
        | "TryStar" => some (p.toAttempt info true)
        | "Match" => some (.select info (p.expr "subject") ((p.get "cases").items.filterMap Reading.case?))
        | "Comment" => some (.comment ⟨p.text "value", (p.get "inline").isTrue, info.span⟩)
        | _ => none

/-- What the node with these parts is. One of no other kind is as good as a word. -/
def toReading (p : Parts) (info : Info) : Reading :=
  match p.kind with
  | "comprehension" =>
    .clause (.mk (p.expr "target") (p.expr "iter") (p.exprs "ifs") (p.get "is_async").isTrue)
  | "keyword" => .keyword (.mk (p.get "arg").text? (p.expr "value"))
  | "arguments" =>
    .params (.mk (p.paramList "posonlyargs") (p.paramList "args") (p.get "vararg").param? (p.paramList "kwonlyargs")
      (p.optionals "kw_defaults") (p.get "kwarg").param? (p.exprs "defaults"))
  | "arg" => .param (.mk (p.text "arg") (p.expr? "annotation") p.typeComment)
  | "alias" => .importName ⟨p.text "name", (p.get "asname").text?⟩
  | "withitem" => .withItem ⟨p.expr "context_expr", p.expr? "optional_vars"⟩
  | "ExceptHandler" => .handler (.handler info.span (p.expr? "type") (p.get "name").text? (p.stmts "body"))
  | "match_case" =>
    .case (.case (1, 1) ((p.get "pattern").pattern?.getD (.value (.gap p.kind "pattern"))) (p.expr? "guard")
      (p.stmts "body"))
  | _ =>
    match p.toExpr? with
    | some e => .expr e
    | none =>
      match p.toPattern? with
      | some q => .pattern q
      | none =>
        match p.toStmt? info with
        | some s => .stmt s
        | none => .text p.kind

end Parts

namespace Outline

mutual

def reading : Outline → Reading
  | absent => .absent
  | text s => .text s
  | number n => .number n
  | flag b => .flag b
  | literal v => .literal v
  | list items => .list (readings items)
  | node kind place tags parts => Parts.toReading ⟨kind, namedReadings parts⟩ ⟨place.getD Span.unset, tags⟩

def readings : List Outline → List Reading
  | [] => []
  | o :: os => reading o :: readings os

def namedReadings : List (String × Outline) → List (String × Reading)
  | [] => []
  | (name, o) :: rest => (name, reading o) :: namedReadings rest

end

/-- The tree that an outline shows. Only a module has the form of a tree of its own; of anything else, the body
is taken. -/
def tree (o : Outline) : Tree :=
  match o with
  | node "ModuleDef" place tags parts =>
    let p : Parts := ⟨"ModuleDef", namedReadings parts⟩
    .module_ ⟨place.getD Span.unset, tags⟩ (p.text "name") (p.stmts "body")
  | node kind _ _ parts => .file (Parts.stmts ⟨kind, namedReadings parts⟩ "body")
  | _ => .file []

end Outline

end TwinModule
