import TwinModule.Syntax.Stmt
/-!
Outlines: trees in which every node has the same form, with its kind and its named parts. They show a tree in
full, and what is missing in a tree is missing in its outline.
-/
set_option autoImplicit false

namespace TwinModule

/-- A node with its kind, its place if it has one, its tags and its parts; or the data in a part. -/
inductive Outline where
  | absent
  | text (value : String)
  | number (value : Int)
  | flag (value : Bool)
  | literal (value : Literal)
  | list (items : List Outline)
  | node (kind : String) (place : Option Span) (tags : List Tag) (parts : List (String × Outline))
  deriving Inhabited

namespace Outline

def ofText? : Option String → Outline
  | none => absent
  | some s => text s

/-- A part that a node has to have. It is left out where it was taken out of the tree. -/
def required (name : String) : Outline → List (String × Outline)
  | absent => []
  | o => [(name, o)]

/-- A node without a place of its own. -/
def inner (kind : String) (parts : List (String × Outline)) : Outline := node kind none [] parts

def placed (kind : String) (info : Info) (parts : List (String × Outline)) : Outline :=
  node kind (some info.span) info.tags parts

theorem required_eq_nil_iff (name : String) (o : Outline) : required name o = [] ↔ o = absent := by
  cases o <;> simp [required]

end Outline

open Outline

mutual

def Expr.outline : Expr → Outline
  | .boolOp op values => inner "BoolOp" [("op", text op.kindName), ("values", list (outlines values))]
  | .walrus target value => inner "NamedExpr" (required "target" target.outline ++ required "value" value.outline)
  | .binary left op right =>
    inner "BinOp" (required "left" left.outline ++ [("op", text op.kindName)] ++ required "right" right.outline)
  | .unary op operand => inner "UnaryOp" (("op", text op.kindName) :: required "operand" operand.outline)
  | .lambda params body => inner "Lambda" (("args", params.outline) :: required "body" body.outline)
  | .ifElse test body orelse =>
    inner "IfExp" (required "test" test.outline ++ required "body" body.outline ++
      required "orelse" orelse.outline)
  | .dict keys values => inner "Dict" [("keys", list (optionals keys)), ("values", list (outlines values))]
  | .set elements => inner "Set" [("elts", list (outlines elements))]
  | .listComp element clauses =>
    inner "ListComp" (required "elt" element.outline ++ [("generators", list (clauseOutlines clauses))])
  | .setComp element clauses =>
    inner "SetComp" (required "elt" element.outline ++ [("generators", list (clauseOutlines clauses))])
  | .dictComp key value clauses =>
    inner "DictComp" (required "key" key.outline ++ required "value" value.outline ++
      [("generators", list (clauseOutlines clauses))])
  | .generator element clauses =>
    inner "GeneratorExp" (required "elt" element.outline ++ [("generators", list (clauseOutlines clauses))])
  | .await value => inner "Await" (required "value" value.outline)
  | .yield value => inner "Yield" [("value", optional value)]
  | .yieldFrom value => inner "YieldFrom" (required "value" value.outline)
  | .compare left ops rights =>
    inner "Compare" (required "left" left.outline ++
      [("ops", list (ops.map fun op => text op.kindName)), ("comparators", list (outlines rights))])
  | .call callee args keywords =>
    inner "Call" (required "func" callee.outline ++
      [("args", list (outlines args)), ("keywords", list (keywordOutlines keywords))])
  | .formatted value conversion spec =>
    inner "FormattedValue" (required "value" value.outline ++
      [("conversion", number conversion), ("format_spec", optional spec)])
  | .format parts => inner "JoinedStr" [("values", list (outlines parts))]
  | .literal value mark => inner "Constant" [("value", literal value), ("kind", ofText? mark)]
  | .member value name usage =>
    inner "Attribute" (required "value" value.outline ++ [("attr", text name), ("ctx", text usage.kindName)])
  | .index value key usage =>
    inner "Subscript" (required "value" value.outline ++ required "slice" key.outline ++
      [("ctx", text usage.kindName)])
  | .starred value usage => inner "Starred" (required "value" value.outline ++ [("ctx", text usage.kindName)])
  | .name id usage => inner "Name" [("id", text id), ("ctx", text usage.kindName)]
  | .list elements usage => inner "List" [("elts", list (outlines elements)), ("ctx", text usage.kindName)]
  | .tuple elements usage => inner "Tuple" [("elts", list (outlines elements)), ("ctx", text usage.kindName)]
  | .slice lower upper step =>
    inner "Slice" [("lower", optional lower), ("upper", optional upper), ("step", optional step)]
  | .gap .. => absent
  | .several items => list (outlines items)

def outlines : List Expr → List Outline
  | [] => []
  | e :: es => e.outline :: outlines es

def optional : Option Expr → Outline
  | none => absent
  | some e => e.outline

def optionals : List (Option Expr) → List Outline
  | [] => []
  | e :: es => optional e :: optionals es

def clauseOutlines : List Clause → List Outline
  | [] => []
  | .mk target iter conditions isAsync :: cs =>
    inner "comprehension" (required "target" target.outline ++ required "iter" iter.outline ++
      [("ifs", list (outlines conditions)), ("is_async", number (if isAsync then 1 else 0))]) ::
      clauseOutlines cs

def keywordOutlines : List Keyword → List Outline
  | [] => []
  | .mk name value :: ks =>
    inner "keyword" (("arg", ofText? name) :: required "value" value.outline) :: keywordOutlines ks

def Params.outline : Params → Outline
  | .mk posOnly args variadic kwOnly kwDefaults kwVariadic defaults =>
    inner "arguments" [("posonlyargs", list (paramOutlines posOnly)), ("args", list (paramOutlines args)),
      ("vararg", optionalParam variadic), ("kwonlyargs", list (paramOutlines kwOnly)),
      ("kw_defaults", list (optionals kwDefaults)), ("kwarg", optionalParam kwVariadic),
      ("defaults", list (outlines defaults))]

def Param.outline : Param → Outline
  | .mk name type typeComment =>
    inner "arg" [("arg", text name), ("annotation", optional type), ("type_comment", ofText? typeComment)]

def paramOutlines : List Param → List Outline
  | [] => []
  | p :: ps => p.outline :: paramOutlines ps

def optionalParam : Option Param → Outline
  | none => absent
  | some p => p.outline

end

mutual

def Pattern.outline : Pattern → Outline
  | .value value => inner "MatchValue" (required "value" value.outline)
  | .singleton value => inner "MatchSingleton" [("value", literal value)]
  | .sequence items => inner "MatchSequence" [("patterns", list (patternOutlines items))]
  | .mapping keys items rest =>
    inner "MatchMapping" [("keys", list (outlines keys)), ("patterns", list (patternOutlines items)),
      ("rest", ofText? rest)]
  | .class_ callee items names named =>
    inner "MatchClass" (required "cls" callee.outline ++ [("patterns", list (patternOutlines items)),
      ("kwd_attrs", list (names.map text)), ("kwd_patterns", list (patternOutlines named))])
  | .star name => inner "MatchStar" [("name", ofText? name)]
  | .as_ none name => inner "MatchAs" [("pattern", absent), ("name", ofText? name)]
  | .as_ (some item) name => inner "MatchAs" [("pattern", item.outline), ("name", ofText? name)]
  | .or_ items => inner "MatchOr" [("patterns", list (patternOutlines items))]

def patternOutlines : List Pattern → List Outline
  | [] => []
  | p :: ps => p.outline :: patternOutlines ps

end

def Alias.outline (a : Alias) : Outline := inner "alias" [("name", text a.name), ("asname", ofText? a.asName)]

def WithItem.outline (i : WithItem) : Outline :=
  inner "withitem" (required "context_expr" i.context.outline ++ [("optional_vars", optional i.target)])

def Simple.parts : Simple → List (String × Outline)
  | .return_ value => [("value", optional value)]
  | .delete targets => [("targets", list (outlines targets))]
  | .assign targets value typeComment =>
    [("targets", list (outlines targets))] ++ required "value" value.outline ++
      [("type_comment", ofText? typeComment)]
  | .augAssign target op value =>
    required "target" target.outline ++ [("op", text op.kindName)] ++ required "value" value.outline
  | .annAssign target type value isPlain =>
    required "target" target.outline ++ required "annotation" type.outline ++
      [("value", optional value), ("simple", number isPlain)]
  | .raise exception cause => [("exc", optional exception), ("cause", optional cause)]
  | .assert test message => required "test" test.outline ++ [("msg", optional message)]
  | .import_ names => [("names", list (names.map Alias.outline))]
  | .importFrom module names level =>
    [("module", ofText? module), ("names", list (names.map Alias.outline)),
      ("level", match level with | none => absent | some n => number n)]
  | .global names => [("names", list (names.map text))]
  | .nonlocal names => [("names", list (names.map text))]
  | .expr value => required "value" value.outline
  | .pass | .break_ | .continue_ | .erased => []

def Comment.outline (c : Comment) : Outline :=
  node "Comment" (some c.span) [] [("value", .text c.text), ("inline", flag c.isInline)]

def decoratorOutlines (ds : List Decorator) : Outline := list (ds.map fun d => d.expr.outline)

/-- The parts of a block but its body. -/
def BlockHead.parts : BlockHead → List (String × Outline)
  | .function _ name params decorators returns typeComment =>
    [("name", text name), ("args", params.outline), ("decorator_list", decoratorOutlines decorators),
      ("returns", optional returns), ("type_comment", ofText? typeComment)]
  | .class_ name bases keywords decorators =>
    [("name", text name), ("bases", list (outlines bases)), ("keywords", list (keywordOutlines keywords)),
      ("decorator_list", decoratorOutlines decorators)]
  | .with_ _ items typeComment =>
    [("items", list (items.map WithItem.outline)), ("type_comment", ofText? typeComment)]
  | .module_ name => [("name", text name)]

def BranchHead.parts : BranchHead → List (String × Outline)
  | .for_ _ target iter typeComment =>
    required "target" target.outline ++ required "iter" iter.outline ++ [("type_comment", ofText? typeComment)]
  | .while_ test => required "test" test.outline
  | .if_ test => required "test" test.outline

mutual

def Stmt.outline : Stmt → Outline
  | .simple info what => placed what.kindName info what.parts
  | .comment c => c.outline
  | .block info head body => placed head.kindName info (("body", list (stmtOutlines body)) :: head.parts)
  | .branch info head body orelse =>
    placed head.kindName info
      (head.parts ++ [("body", list (stmtOutlines body)), ("orelse", list (stmtOutlines orelse))])
  | .attempt info isGroup body handlers orelse finalbody =>
    placed (if isGroup then "TryStar" else "Try") info
      [("body", list (stmtOutlines body)), ("handlers", list (handlerOutlines handlers)),
        ("orelse", list (stmtOutlines orelse)), ("finalbody", list (stmtOutlines finalbody))]
  | .select info subject cases =>
    placed "Match" info (required "subject" subject.outline ++ [("cases", list (caseOutlines cases))])

def stmtOutlines : List Stmt → List Outline
  | [] => []
  | s :: ss => s.outline :: stmtOutlines ss

def handlerOutlines : List Handler → List Outline
  | [] => []
  | .comment c :: hs => c.outline :: handlerOutlines hs
  | .handler span type name body :: hs =>
    node "ExceptHandler" (some span) []
      [("type", optional type), ("name", ofText? name), ("body", list (stmtOutlines body))] :: handlerOutlines hs

def caseOutlines : List Case → List Outline
  | [] => []
  | .comment c :: cs => c.outline :: caseOutlines cs
  | .case _ pattern guard body :: cs =>
    inner "match_case" [("pattern", pattern.outline), ("guard", optional guard),
      ("body", list (stmtOutlines body))] :: caseOutlines cs

end

def Tree.outline : Tree → Outline
  | .file body => inner "Module" [("body", list (stmtOutlines body)), ("type_ignores", list [])]
  | .module_ info name body => placed "ModuleDef" info [("name", text name), ("body", list (stmtOutlines body))]

theorem stmtOutlines_eq_map (ss : List Stmt) : stmtOutlines ss = ss.map Stmt.outline := by
  induction ss with
  | nil => simp [stmtOutlines]
  | cons s ss ih => simp [stmtOutlines, ih]

end TwinModule
