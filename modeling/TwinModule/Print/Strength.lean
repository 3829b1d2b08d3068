import TwinModule.Syntax.Operator
/-!
How strongly the parts of an expression hold together. A part is put in parentheses if its own strength is
less than its place asks for.
-/
set_option autoImplicit false

namespace TwinModule

/-- From the weakest to the strongest. -/
abbrev Strength := Nat

namespace Strength

def walrus : Strength := 1
def tuple : Strength := 2
def yield : Strength := 3
def test : Strength := 4
def or : Strength := 5
def and : Strength := 6
def not : Strength := 7
def compare : Strength := 8
def bitOr : Strength := 9
def bitXor : Strength := 10
def bitAnd : Strength := 11
def shift : Strength := 12
def sum : Strength := 13
def term : Strength := 14
def factor : Strength := 15
def power : Strength := 16
def await : Strength := 17
def atom : Strength := 18

/-- The next strength; nothing is stronger than an atom. -/
def next (s : Strength) : Strength := min (s + 1) atom

end Strength

def BoolOp.strength : BoolOp → Strength
  | .and => .and
  | .or => .or

def BinaryOp.strength : BinaryOp → Strength
  | .add | .sub => .sum
  | .mult | .matMult | .div | .mod | .floorDiv => .term
  | .pow => .power
  | .lShift | .rShift => .shift
  | .bitOr => .bitOr
  | .bitXor => .bitXor
  | .bitAnd => .bitAnd

def UnaryOp.strength : UnaryOp → Strength
  | .not => .not
  | _ => .factor

/-- What an operator asks of its two sides: powers group to the right, all others to the left. -/
def BinaryOp.sides (op : BinaryOp) : Strength × Strength :=
  if op = .pow then (op.strength.next, op.strength) else (op.strength, op.strength.next)

end TwinModule
