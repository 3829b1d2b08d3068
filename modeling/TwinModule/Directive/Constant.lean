import TwinModule.Grammar.Statement
/-!
Texts that spell out a constant: literals, signed and complex numbers, and tuples, lists, sets and mappings of
constants. Only a text constant has a use here, but a set or mapping is refused for its elements before that is
known.
-/
set_option autoImplicit false

namespace TwinModule

/-- As much of a constant as has to be known. -/
inductive Constant where
  | text (value : String)
  | number (isComplex : Bool)
  | tuple (items : List Constant)
  /-- A list, a set or a mapping, by what it is called. -/
  | changeable (kind : String)
  | other
  deriving Repr, Inhabited

inductive ConstantError where
  | notConstant
  /-- A value that changes is an element of a set or a key. -/
  | unhashable (kind : String)
  deriving DecidableEq, Repr

namespace Constant

mutual

/-- The first part of a constant that can change, which cannot be in a set. -/
def changing? : Constant → Option String
  | changeable kind => some kind
  | tuple items => firstChanging? items
  | _ => none

def firstChanging? : List Constant → Option String
  | [] => none
  | c :: cs => (changing? c).or (firstChanging? cs)

end

/-- A constant as an element or a key. -/
def asKey (c : Constant) : Except ConstantError Unit :=
  match c.changing? with
  | some kind => .error (.unhashable kind)
  | none => .ok ()

def ofLiteral : Literal → Constant
  | .text s => text s
  | .int _ => number false
  | .float _ => number false
  | .complex _ _ => number true
  | _ => other

def unsigned? : Expr → Option Bool
  | .literal (.int _) _ => some false
  | .literal (.float _) _ => some false
  | .literal (.complex _ _) _ => some true
  | _ => none

/-- A number that may have a sign; whether it is complex. -/
def signed? : Expr → Option Bool
  | .unary .plus e => unsigned? e
  | .unary .minus e => unsigned? e
  | e => unsigned? e

/-- What becomes of each of several expressions. -/
abbrev Results := List (Except ConstantError Constant)

/-- All the constants, if there is no error among them. -/
def gather : Results → Except ConstantError (List Constant)
  | [] => .ok []
  | r :: rs => do
    let c ← r
    return c :: (← gather rs)

/-- The elements of a set, each of which is looked at before the next one. -/
def checkElements : Results → Except ConstantError Unit
  | [] => .ok ()
  | r :: rs => do
    asKey (← r)
    checkElements rs

/-- The entries of a mapping, each key being looked at after its value. -/
def checkEntries : (keys values : Results) → Except ConstantError Unit
  | key :: keys, value :: values => do
    let c ← key
    let _ ← value
    asKey c
    checkEntries keys values
  | _, _ => .ok ()

mutual

/-- The constant that an expression spells out. -/
def ofExpr : Expr → Except ConstantError Constant
  | .literal value _ => .ok (ofLiteral value)
  | .tuple es _ => (gather (ofExprs es)).map tuple
  | .list es _ => (gather (ofExprs es)).map fun _ => changeable "list"
  | .set es => (checkElements (ofExprs es)).map fun _ => changeable "set"
  | .call (.name "set" _) [] [] => .ok (changeable "set")
  | .dict keys values => (checkEntries (ofKeys keys) (ofExprs values)).map fun _ => changeable "dict"
  | .binary left op right =>
    if (op == .add || op == .sub) && signed? left == some false && unsigned? right == some true then
      .ok (number true)
    else .error .notConstant
  | e =>
    match signed? e with
    | some isComplex => .ok (number isComplex)
    | none => .error .notConstant

def ofExprs : List Expr → Results
  | [] => []
  | e :: es => ofExpr e :: ofExprs es

def ofKeys : List (Option Expr) → Results
  | [] => []
  | none :: ks => .error .notConstant :: ofKeys ks
  | some e :: ks => ofExpr e :: ofKeys ks

end

/-- The constant that a text spells out, blanks before it not counting. -/
def read (text : List Char) : Except ConstantError Constant :=
  if text.contains '\x00' then .error .notConstant
  else
    match Grammar.parseExpression (text.dropWhile fun c => c == ' ' || c == '\t') with
    | none => .error .notConstant
    | some e => ofExpr e

/-- The text that a text spells out, if it does; an error only for what cannot be an element or a key. -/
def readText? (text : List Char) : Except String (Option String) :=
  match read text with
  | .ok (.text value) => .ok (some value)
  | .ok _ => .ok none
  | .error .notConstant => .ok none
  | .error (.unhashable kind) => .error kind

end Constant

end TwinModule
