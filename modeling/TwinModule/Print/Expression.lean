import TwinModule.Syntax.Expr
import TwinModule.Print.Error
import TwinModule.Print.StringForm
import TwinModule.Print.Strength
/-!
The source text of expressions. A place asks for a strength, or for none in particular; an expression in the
field of a format string avoids backslashes.
-/
set_option autoImplicit false

namespace TwinModule.Print

/-- The text of an expression or why there is none. -/
abbrev Text := Except PrintError String

def parenthesized (needed : Bool) (text : String) : String :=
  if needed then "(" ++ text ++ ")" else text

def joined (separator : String) (texts : List String) : String :=
  separator.intercalate texts

/-- One text gets a comma after it, several get commas between them. -/
def commaList : List String → String
  | [text] => text ++ ","
  | texts => joined ", " texts

/-- Braces are doubled in the text of a format string. -/
def doubleBraces (cs : List Char) : List Char :=
  cs.flatMap fun c => if c = '{' || c = '}' then [c, c] else [c]

def fieldText (value : String) (conversion : Int) (spec : Option String) : Text :=
  if value.toList.contains '\\' then throw .backslashInField
  else
    let space := if value.toList.head? = some '{' then " " else ""
    let mark := if conversion = -1 then "" else "!" ++ String.singleton (Char.ofNat conversion.toNat)
    let spec := match spec with
      | none => ""
      | some text => ":" ++ text
    return "\x7b" ++ space ++ value ++ mark ++ spec ++ "\x7d"

def literalText (flat : Bool) (value : Literal) : String :=
  match value with
  | .text s => if flat then StringForm.write StringForm.all s.toList else value.spelling
  | _ => value.spelling

/-- Parameters with their defaults, right-aligned. -/
def withDefaults (count : Nat) (defaults : List String) : List (Option String) :=
  List.replicate (count - defaults.length) none ++ defaults.map some

def paramTexts : List String → List (Option String) → List String
  | p :: ps, some d :: ds => (p ++ "=" ++ d) :: paramTexts ps ds
  | p :: ps, none :: ds => p :: paramTexts ps ds
  | _, _ => []

/-- The parameter list of a function from the texts of its parts. -/
def paramList (posOnly args : List String) (variadic : Option String) (kwOnly : List String)
    (kwDefaults : List (Option String)) (kwVariadic : Option String) (defaults : List String) : String :=
  let positional := paramTexts (posOnly ++ args) (withDefaults (posOnly.length + args.length) defaults)
  let positional := if posOnly.isEmpty then positional
    else positional.take posOnly.length ++ "/" :: positional.drop posOnly.length
  let star := match variadic with
    | some text => ["*" ++ text]
    | none => if kwOnly.isEmpty then [] else ["*"]
  let doubleStar := match kwVariadic with
    | some text => ["**" ++ text]
    | none => []
  joined ", " (positional ++ star ++ paramTexts kwOnly kwDefaults ++ doubleStar)

def compareText (left : String) : List CompareOp → List String → String
  | op :: ops, right :: rights => compareText (left ++ " " ++ op.symbol ++ " " ++ right) ops rights
  | _, _ => left

def dictItems : List (Option String) → List String → List String
  | some k :: ks, v :: vs => (k ++ ": " ++ v) :: dictItems ks vs
  | none :: ks, v :: vs => ("**" ++ v) :: dictItems ks vs
  | _, _ => []

mutual

/-- The text of an expression in a place that asks for strength `asked`. -/
def expr (flat : Bool) (asked : Option Strength) : Expr → Text
  | .boolOp op values => do
    let texts ← rising flat op.strength values
    return parenthesized (op.strength < asked.getD .test) (joined (" " ++ op.symbol ++ " ") texts)
  | .walrus target value => do
    let t ← expr flat (some .atom) target
    let v ← expr flat (some .atom) value
    return parenthesized (.walrus < asked.getD .test) (t ++ " := " ++ v)
  | .binary left op right => do
    let l ← expr flat (some op.sides.1) left
    let r ← expr flat (some op.sides.2) right
    return parenthesized (op.strength < asked.getD .test) (l ++ " " ++ op.symbol ++ " " ++ r)
  | .unary op operand => do
    let text ← expr flat (some op.strength) operand
    let space := if op = .not then " " else ""
    return parenthesized (op.strength < asked.getD .test) (op.symbol ++ space ++ text)
  | .lambda ps body => do
    let p ← params flat ps
    let b ← expr flat (some .test) body
    let p := if p.isEmpty then "" else " " ++ p
    return parenthesized (.test < asked.getD .test) ("lambda" ++ p ++ ": " ++ b)
  | .ifElse test body orelse => do
    let b ← expr flat (some Strength.test.next) body
    let t ← expr flat (some Strength.test.next) test
    let e ← expr flat (some .test) orelse
    return parenthesized (.test < asked.getD .test) (b ++ " if " ++ t ++ " else " ++ e)
  | .dict keys values => do
    let ks ← dictKeys flat keys
    let vs ← dictValues flat keys values
    return "\x7b" ++ joined ", " (dictItems ks vs) ++ "\x7d"
  | .set elements => do
    let texts ← exprs flat none elements
    return if texts.isEmpty then "\x7b*()\x7d" else "\x7b" ++ joined ", " texts ++ "\x7d"
  | .listComp element cs => do
    return "[" ++ (← expr flat none element) ++ (← clauses flat cs) ++ "]"
  | .setComp element cs => do
    return "\x7b" ++ (← expr flat none element) ++ (← clauses flat cs) ++ "\x7d"
  | .dictComp key value cs => do
    return "\x7b" ++ (← expr flat none key) ++ ": " ++ (← expr flat none value) ++ (← clauses flat cs) ++ "\x7d"
  | .generator element cs => do
    return "(" ++ (← expr flat none element) ++ (← clauses flat cs) ++ ")"
  | .await value => do
    let text ← expr flat (some .atom) value
    return parenthesized (.await < asked.getD .test) ("await " ++ text)
  | .yield value => do
    let text ← match value with
      | none => pure "yield"
      | some e => do pure ("yield " ++ (← expr flat (some .atom) e))
    return parenthesized (.yield < asked.getD .test) text
  | .yieldFrom value => do
    let text ← expr flat (some .atom) value
    return parenthesized (.yield < asked.getD .test) ("yield from " ++ text)
  | .compare left ops rights => do
    let l ← expr flat (some Strength.compare.next) left
    let rs ← exprs flat (some Strength.compare.next) rights
    return parenthesized (.compare < asked.getD .test) (compareText l ops rs)
  | .call callee args ks => do
    let c ← expr flat (some .atom) callee
    let as ← exprs flat none args
    let ns ← keywords flat ks
    return c ++ "(" ++ joined ", " (as ++ ns) ++ ")"
  | .formatted value conversion spec => do
    let v ← expr true (some Strength.test.next) value
    let s ← match spec with
      | none => pure none
      | some e => do pure (some (← formatInner e))
    fieldText v conversion s
  | .format parts => do
    if flat then
      let inner ← formatInners parts
      return "f" ++ StringForm.write StringForm.all (String.join inner).toList
    else
      let pieces ← formatParts parts
      return "f" ++ StringForm.writeParts StringForm.all [] pieces
  | .literal value mark =>
    return (if mark = some "u" && value != .ellipsis then "u" else "") ++ literalText flat value
  | .member value name _ => do
    let v ← expr flat (some .atom) value
    let space := match value with
      | .literal (.int _) _ => " "
      | .literal (.bool _) _ => " "
      | _ => ""
    return v ++ space ++ "." ++ name
  | .index value (.tuple (e :: es) _) _ => do
    let v ← expr flat (some .atom) value
    let texts ← exprs flat none (e :: es)
    return v ++ "[" ++ commaList texts ++ "]"
  | .index value key _ => do
    let v ← expr flat (some .atom) value
    let k ← expr flat none key
    return v ++ "[" ++ k ++ "]"
  | .starred value _ => do
    return "*" ++ (← expr flat (some .bitOr) value)
  | .name id _ => return id
  | .list elements _ => do
    return "[" ++ joined ", " (← exprs flat none elements) ++ "]"
  | .tuple elements _ => do
    let texts ← exprs flat none elements
    return parenthesized (texts.isEmpty || .tuple < asked.getD .test) (commaList texts)
  | .slice lower upper step => do
    let l ← optional flat lower
    let u ← optional flat upper
    let s ← match step with
      | none => pure ""
      | some e => do pure (":" ++ (← expr flat none e))
    return l ++ ":" ++ u ++ s
  | .gap owner role => throw (.missing owner role)
  | .several items =>
    match asked with
    | some _ => throw .manyForOne
    | none => do return String.join (← exprs flat none items)

/-- The texts of expressions in places that ask for the same. -/
def exprs (flat : Bool) (asked : Option Strength) : List Expr → Except PrintError (List String)
  | [] => return []
  | e :: es => do
    let text ← expr flat asked e
    return text :: (← exprs flat asked es)

/-- The sides of `and` and `or`: each is asked for more than the one before it. -/
def rising (flat : Bool) (last : Strength) : List Expr → Except PrintError (List String)
  | [] => return []
  | e :: es => do
    let text ← expr flat (some last.next) e
    return text :: (← rising flat last.next es)

def optional (flat : Bool) : Option Expr → Text
  | none => return ""
  | some e => expr flat none e

def optionals (flat : Bool) : List (Option Expr) → Except PrintError (List (Option String))
  | [] => return []
  | none :: es => return none :: (← optionals flat es)
  | some e :: es => do
    let text ← expr flat none e
    return some text :: (← optionals flat es)

def dictKeys (flat : Bool) : List (Option Expr) → Except PrintError (List (Option String))
  | [] => return []
  | none :: es => return none :: (← dictKeys flat es)
  | some e :: es => do
    let text ← expr flat none e
    return some text :: (← dictKeys flat es)

/-- The values of a mapping; the entries of another mapping are asked for the strength of an operand. -/
def dictValues (flat : Bool) : List (Option Expr) → List Expr → Except PrintError (List String)
  | none :: ks, v :: vs => do
    let text ← expr flat (some .bitOr) v
    return text :: (← dictValues flat ks vs)
  | some _ :: ks, v :: vs => do
    let text ← expr flat none v
    return text :: (← dictValues flat ks vs)
  | _, _ => return []

def clause (flat : Bool) : Clause → Text
  | .mk target iter conditions isAsync => do
    let t ← expr flat (some .tuple) target
    let i ← expr flat (some Strength.test.next) iter
    let cs ← exprs flat (some Strength.test.next) conditions
    return (if isAsync then " async for " else " for ") ++ t ++ " in " ++ i ++
      String.join (cs.map (" if " ++ ·))

def clauses (flat : Bool) : List Clause → Text
  | [] => return ""
  | c :: cs => do
    let text ← clause flat c
    return text ++ (← clauses flat cs)

def keyword (flat : Bool) : Keyword → Text
  | .mk none value => do return "**" ++ (← expr flat none value)
  | .mk (some name) value => do return name ++ "=" ++ (← expr flat none value)

def keywords (flat : Bool) : List Keyword → Except PrintError (List String)
  | [] => return []
  | k :: ks => do
    let text ← keyword flat k
    return text :: (← keywords flat ks)

def param (flat : Bool) : Param → Text
  | .mk name none _ => return name
  | .mk name (some type) _ => do return name ++ ": " ++ (← expr flat none type)

def paramsOf (flat : Bool) : List Param → Except PrintError (List String)
  | [] => return []
  | p :: ps => do
    let text ← param flat p
    return text :: (← paramsOf flat ps)

def paramOf (flat : Bool) : Option Param → Except PrintError (Option String)
  | none => return none
  | some p => do return some (← param flat p)

def params (flat : Bool) : Params → Text
  | .mk posOnly args variadic kwOnly kwDefaults kwVariadic defaults => do
    let po ← paramsOf flat posOnly
    let ar ← paramsOf flat args
    let ds ← exprs flat none defaults
    let va ← paramOf flat variadic
    let ko ← paramsOf flat kwOnly
    let kd ← optionals flat kwDefaults
    let kv ← paramOf flat kwVariadic
    return paramList po ar va ko kd kv ds

/-- What stands for a part between the quotes of a format string. -/
def formatInner : Expr → Text
  | .format parts => do return String.join (← formatInners parts)
  | .literal (.text s) _ => return String.ofList (doubleBraces s.toList)
  | .formatted value conversion spec => do
    let v ← expr true (some Strength.test.next) value
    let s ← match spec with
      | none => pure none
      | some e => do pure (some (← formatInner e))
    fieldText v conversion s
  | e => throw (.foreignPart e.kindName)

def formatInners : List Expr → Except PrintError (List String)
  | [] => return []
  | e :: es => do
    let text ← formatInner e
    return text :: (← formatInners es)

/-- The parts of a format string; line ends stand for themselves only inside replaced fields. -/
def formatParts : List Expr → Except PrintError (List (List Char × Bool))
  | [] => return []
  | e :: es => do
    let text ← formatInner e
    let keepsSpace := match e with
      | .literal .. => false
      | _ => true
    return (text.toList, keepsSpace) :: (← formatParts es)

end

def exprText (e : Expr) : Text := expr false none e

end TwinModule.Print
