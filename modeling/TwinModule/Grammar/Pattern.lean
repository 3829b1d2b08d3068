import TwinModule.Grammar.Expression
/-!
The grammar of patterns. Every reader also gives the line on which the pattern starts; parentheses around a
pattern do not belong to it.
-/
set_option autoImplicit false

namespace TwinModule.Grammar
open Reader

abbrev PatternReader := Reader (Pattern × Nat)

def Pattern.isStar : Pattern → Bool
  | .star _ => true
  | _ => false

/-- A number, perhaps with a minus sign. -/
def signedNumber : Reader Expr := do
  if ← accept "-" then return .unary .minus (← numberAtom) else numberAtom

def isImaginary : Expr → Bool
  | .literal (.complex ..) _ => true
  | .unary _ (.literal (.complex ..) _) => true
  | _ => false

/-- A number, or a real and an imaginary part. -/
def numberLiteral : Reader Expr := do
  let real ← signedNumber
  if ← seesAny ["+", "-"] then
    ensure !(isImaginary real)
    let op ← operatorOf [.add, .sub]
    let imaginary ← numberAtom
    ensure (isImaginary imaginary)
    return .binary real op imaginary
  else return real

def valueLiteral (r : Rules) : Reader Expr := do
  let t ← peek
  if t.kind = .number || t.is "-" then numberLiteral
  else if t.kind = .string then strings r
  else
    ensure (t.is "None" || t.is "True" || t.is "False")
    nameAtom

def dottedName : Reader Expr := do
  let id ← identifier
  let members ← many (do word "."; identifier)
  return members.foldl (fun e m => .member e m .load) (.name id .load)

def captureName : Reader String := do
  let id ← identifier
  ensure (id != "_" && !(← seesAny [".", "(", "="]))
  return id

def starPattern : Reader Pattern := do
  word "*"
  let id ← identifier
  if id = "_" then return .star none
  else
    ensure (!(← seesAny [".", "(", "="]))
    return .star (some id)

def maybeStar (pattern : PatternReader) : PatternReader := do
  let t ← peek
  if t.is "*" then return (← starPattern, t.start.line) else pattern

/-- The other items of a sequence, after a comma. -/
def moreItems (pattern : PatternReader) : Reader (List Pattern) := do
  let rest ← maybe (commas (maybeStar pattern))
  return (rest.map fun r => r.1.map Prod.fst).getD []

/-- A group or a sequence in parentheses. -/
def parenthesizedPattern (pattern : PatternReader) : PatternReader := do
  let start := (← peek).start.line
  word "("
  if ← accept ")" then return (.sequence [], start)
  let (first, line) ← maybeStar pattern
  if ← accept "," then
    let rest ← moreItems pattern
    word ")"
    return (.sequence (first :: rest), start)
  ensure !(Pattern.isStar first)
  word ")"
  return (first, line)

def bracketedPattern (pattern : PatternReader) : Reader Pattern := do
  word "["
  let items ← moreItems pattern
  word "]"
  return .sequence items

def mappingItem (r : Rules) (pattern : PatternReader) : Reader (Expr × Pattern) := do
  let key ← valueLiteral r <|> (do
    let e ← dottedName
    ensure (match e with
      | .member .. => true
      | _ => false)
    return e)
  word ":"
  return (key, (← pattern).1)

def mappingPattern (r : Rules) (pattern : PatternReader) : Reader Pattern := do
  word "\x7b"
  let items ← maybe (commas (mappingItem r pattern))
  let isOpen := match items with
    | none => true
    | some (_, isOpen) => isOpen
  let rest ← if isOpen && (← accept "**") then
      let id ← captureName
      let _ ← accept ","
      pure (some id)
    else pure none
  word "\x7d"
  let pairs := (items.map Prod.fst).getD []
  return .mapping (pairs.map Prod.fst) (pairs.map Prod.snd) rest

/-- An item of a class pattern; named ones come last. -/
def classItem (pattern : PatternReader) : Reader (Option String × Pattern) := do
  if ← seesKeyword then
    let id ← identifier
    word "="
    return (some id, (← pattern).1)
  else return (none, (← pattern).1)

def namedLast : List (Option String × Pattern) → Bool
  | [] => true
  | (none, _) :: items => namedLast items
  | (some _, _) :: items => items.all fun i => i.1.isSome

def classPattern (pattern : PatternReader) (callee : Expr) : Reader Pattern := do
  word "("
  let items ← maybe (commas (classItem pattern))
  word ")"
  let items := (items.map Prod.fst).getD []
  ensure (namedLast items)
  let positional := items.filter fun i => i.1.isNone
  return .class_ callee (positional.map Prod.snd) (items.filterMap Prod.fst)
    ((items.filter fun i => i.1.isSome).map Prod.snd)

/-- A pattern that starts with a name. -/
def namePattern (pattern : PatternReader) : Reader Pattern := do
  if (← peek).text = "_" then
    let _ ← identifier
    return .as_ none none
  let e ← dottedName
  if ← sees "(" then classPattern pattern e
  else
    ensure (!(← sees "="))
    match e with
    | .name id _ => return .as_ none (some id)
    | _ => return .value e

def closedPattern (r : Rules) (pattern : PatternReader) : PatternReader := do
  let t ← peek
  let line := t.start.line
  if t.is "(" then parenthesizedPattern pattern
  else if t.is "[" then return (← bracketedPattern pattern, line)
  else if t.is "\x7b" then return (← mappingPattern r pattern, line)
  else if t.isIdentifier then return (← namePattern pattern, line)
  else
    match ← valueLiteral r with
    | .literal .none _ => return (.singleton .none, line)
    | .literal (.bool b) _ => return (.singleton (.bool b), line)
    | e => return (.value e, line)

def orPattern (r : Rules) (pattern : PatternReader) : PatternReader := do
  let start := (← peek).start.line
  let items ← sepBy1 "|" (closedPattern r pattern)
  let (p, line) := match items with
    | [(p, line)] => (p, line)
    | items => (.or_ (items.map Prod.fst), start)
  if ← accept "as" then return (.as_ (some p) (some (← captureName)), start)
  else return (p, line)

/-- Patterns for a number of levels of nesting. -/
def patternUpTo (r : Rules) : Nat → PatternReader
  | 0 => failure
  | n + 1 => orPattern r (patternUpTo r n)

/-- The pattern of a case; a sequence needs no brackets there. -/
def casePattern (pattern : PatternReader) : PatternReader := do
  let start := (← peek).start.line
  let (first, line) ← maybeStar pattern
  if ← accept "," then return (.sequence (first :: (← moreItems pattern)), start)
  ensure !(Pattern.isStar first)
  return (first, line)

end TwinModule.Grammar
