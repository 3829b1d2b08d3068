import TwinModule.Syntax.Operator
import TwinModule.Syntax.Literal
/-!
Expressions of Python. They carry no places: only statements do.
-/
set_option autoImplicit false

namespace TwinModule

mutual

inductive Expr where
  | boolOp (op : BoolOp) (values : List Expr)
  | walrus (target value : Expr)
  | binary (left : Expr) (op : BinaryOp) (right : Expr)
  | unary (op : UnaryOp) (operand : Expr)
  | lambda (params : Params) (body : Expr)
  | ifElse (test body orelse : Expr)
  /-- A key that is missing stands for the entries of another mapping. -/
  | dict (keys : List (Option Expr)) (values : List Expr)
  | set (elements : List Expr)
  | listComp (element : Expr) (clauses : List Clause)
  | setComp (element : Expr) (clauses : List Clause)
  | dictComp (key value : Expr) (clauses : List Clause)
  | generator (element : Expr) (clauses : List Clause)
  | await (value : Expr)
  | yield (value : Option Expr)
  | yieldFrom (value : Expr)
  | compare (left : Expr) (ops : List CompareOp) (rights : List Expr)
  | call (callee : Expr) (args : List Expr) (keywords : List Keyword)
  /-- A replaced field of a format string; `conversion` is the code of its letter, or -1. -/
  | formatted (value : Expr) (conversion : Int) (spec : Option Expr)
  | format (parts : List Expr)
  /-- `mark` is `u` for a text literal written with that letter. -/
  | literal (value : Literal) (mark : Option String)
  | member (value : Expr) (name : String) (usage : Usage)
  | index (value key : Expr) (usage : Usage)
  | starred (value : Expr) (usage : Usage)
  | name (id : String) (usage : Usage)
  | list (elements : List Expr) (usage : Usage)
  | tuple (elements : List Expr) (usage : Usage)
  | slice (lower upper step : Option Expr)
  /-- The place of an expression that was taken out: the node it belonged to and its role there. -/
  | gap (owner role : String)
  /-- Several expressions in the place of one. -/
  | several (items : List Expr)

/-- A `for` clause of a comprehension with its conditions. -/
inductive Clause where
  | mk (target iter : Expr) (conditions : List Expr) (isAsync : Bool)

/-- A named argument of a call, or the entries of a mapping if there is no name. -/
inductive Keyword where
  | mk (name : Option String) (value : Expr)

/-- The parameters of a function. The defaults belong to the last of the positional parameters; each
keyword-only parameter has its own default or none. -/
inductive Params where
  | mk (posOnly args : List Param) (variadic : Option Param) (kwOnly : List Param)
      (kwDefaults : List (Option Expr)) (kwVariadic : Option Param) (defaults : List Expr)

inductive Param where
  | mk (name : String) (type : Option Expr) (typeComment : Option String)

end

instance : Inhabited Expr := ⟨.literal .none none⟩
instance : Inhabited Params := ⟨.mk [] [] none [] [] none []⟩
instance : Inhabited Param := ⟨.mk "" none none⟩
instance : Inhabited Clause := ⟨.mk default default [] false⟩
instance : Inhabited Keyword := ⟨.mk none default⟩

namespace Expr

/-- What the node is called in a syntax tree. -/
def kindName : Expr → String
  | boolOp .. => "BoolOp"
  | walrus .. => "NamedExpr"
  | binary .. => "BinOp"
  | unary .. => "UnaryOp"
  | lambda .. => "Lambda"
  | ifElse .. => "IfExp"
  | dict .. => "Dict"
  | set .. => "Set"
  | listComp .. => "ListComp"
  | setComp .. => "SetComp"
  | dictComp .. => "DictComp"
  | generator .. => "GeneratorExp"
  | await .. => "Await"
  | yield .. => "Yield"
  | yieldFrom .. => "YieldFrom"
  | compare .. => "Compare"
  | call .. => "Call"
  | formatted .. => "FormattedValue"
  | format .. => "JoinedStr"
  | literal .. => "Constant"
  | member .. => "Attribute"
  | index .. => "Subscript"
  | starred .. => "Starred"
  | name .. => "Name"
  | list .. => "List"
  | tuple .. => "Tuple"
  | slice .. => "Slice"
  | gap .. => ""
  | several .. => "list"

end Expr

inductive Pattern where
  | value (value : Expr)
  | singleton (value : Literal)
  | sequence (items : List Pattern)
  | mapping (keys : List Expr) (items : List Pattern) (rest : Option String)
  | class_ (callee : Expr) (items : List Pattern) (names : List String) (named : List Pattern)
  | star (name : Option String)
  /-- A name for what matches; without one, anything matches and nothing is bound. -/
  | as_ (item : Option Pattern) (name : Option String)
  | or_ (items : List Pattern)

instance : Inhabited Pattern := ⟨.as_ none none⟩

/-- What the node is called in a syntax tree. -/
def Pattern.kindName : Pattern → String
  | value .. => "MatchValue"
  | singleton .. => "MatchSingleton"
  | sequence .. => "MatchSequence"
  | mapping .. => "MatchMapping"
  | class_ .. => "MatchClass"
  | star .. => "MatchStar"
  | as_ .. => "MatchAs"
  | or_ .. => "MatchOr"

end TwinModule
