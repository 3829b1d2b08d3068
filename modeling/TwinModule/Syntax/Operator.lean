/-!
Operators of Python expressions: how each is written and what it is called in a syntax tree.
-/
set_option autoImplicit false

namespace TwinModule

inductive BoolOp where
  | and | or
  deriving DecidableEq, Repr, Inhabited

inductive BinaryOp where
  | add | sub | mult | matMult | div | mod | pow | lShift | rShift | bitOr | bitXor | bitAnd | floorDiv
  deriving DecidableEq, Repr, Inhabited

inductive UnaryOp where
  | invert | not | plus | minus
  deriving DecidableEq, Repr, Inhabited

inductive CompareOp where
  | eq | notEq | lt | ltE | gt | gtE | is | isNot | in_ | notIn
  deriving DecidableEq, Repr, Inhabited

/-- What a name, member, index or display is for: read, bound or deleted. -/
inductive Usage where
  | load | store | del
  deriving DecidableEq, Repr, Inhabited

namespace BoolOp

def symbol : BoolOp → String
  | and => "and"
  | or => "or"

def kindName : BoolOp → String
  | and => "And"
  | or => "Or"

def all : List BoolOp := [and, or]

end BoolOp

namespace BinaryOp

def symbol : BinaryOp → String
  | add => "+"
  | sub => "-"
  | mult => "*"
  | matMult => "@"
  | div => "/"
  | mod => "%"
  | pow => "**"
  | lShift => "<<"
  | rShift => ">>"
  | bitOr => "|"
  | bitXor => "^"
  | bitAnd => "&"
  | floorDiv => "//"

def kindName : BinaryOp → String
  | add => "Add"
  | sub => "Sub"
  | mult => "Mult"
  | matMult => "MatMult"
  | div => "Div"
  | mod => "Mod"
  | pow => "Pow"
  | lShift => "LShift"
  | rShift => "RShift"
  | bitOr => "BitOr"
  | bitXor => "BitXor"
  | bitAnd => "BitAnd"
  | floorDiv => "FloorDiv"

def all : List BinaryOp :=
  [add, sub, mult, matMult, div, mod, pow, lShift, rShift, bitOr, bitXor, bitAnd, floorDiv]

theorem symbol_injective (a b : BinaryOp) (h : a.symbol = b.symbol) : a = b := by
  cases a <;> cases b <;> first | rfl | exact absurd h (by decide)

end BinaryOp

namespace UnaryOp

def symbol : UnaryOp → String
  | invert => "~"
  | not => "not"
  | plus => "+"
  | minus => "-"

def kindName : UnaryOp → String
  | invert => "Invert"
  | not => "Not"
  | plus => "UAdd"
  | minus => "USub"

def all : List UnaryOp := [invert, not, plus, minus]

end UnaryOp

namespace CompareOp

def symbol : CompareOp → String
  | eq => "=="
  | notEq => "!="
  | lt => "<"
  | ltE => "<="
  | gt => ">"
  | gtE => ">="
  | is => "is"
  | isNot => "is not"
  | in_ => "in"
  | notIn => "not in"

def kindName : CompareOp → String
  | eq => "Eq"
  | notEq => "NotEq"
  | lt => "Lt"
  | ltE => "LtE"
  | gt => "Gt"
  | gtE => "GtE"
  | is => "Is"
  | isNot => "IsNot"
  | in_ => "In"
  | notIn => "NotIn"

def all : List CompareOp := [eq, notEq, lt, ltE, gt, gtE, is, isNot, in_, notIn]

theorem symbol_injective (a b : CompareOp) (h : a.symbol = b.symbol) : a = b := by
  cases a <;> cases b <;> first | rfl | exact absurd h (by decide)

end CompareOp

namespace Usage

def kindName : Usage → String
  | load => "Load"
  | store => "Store"
  | del => "Del"

def all : List Usage := [load, store, del]

end Usage

end TwinModule
