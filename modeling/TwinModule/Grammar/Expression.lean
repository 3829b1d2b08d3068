import TwinModule.Grammar.Reader
import TwinModule.Grammar.Format
import TwinModule.Token.Lexer
/-!
The grammar of expressions. Each rule is a reader that takes the rules for what is nested in it; the rules
for one more level of nesting are built from the rules for one level less, so that a text needs no more
levels than it has characters.
-/
set_option autoImplicit false

namespace TwinModule.Grammar
open Reader

/-- The rules that other rules come back to. -/
structure Rules where
  expression : Reader Expr
  disjunction : Reader Expr
  inversion : Reader Expr
  bitOr : Reader Expr
  factor : Reader Expr
  primary : Reader Expr

/-- The rules for no nesting at all. -/
def Rules.none : Rules := ⟨failure, failure, failure, failure, failure, failure⟩

/-- A place that can be bound or deleted, as a node of that usage. Only what is bound may be starred. -/
def target? (usage : Usage) : Expr → Option Expr
  | .name id _ => some (.name id usage)
  | .member value name _ => some (.member value name usage)
  | .index value key _ => some (.index value key usage)
  | .tuple elements _ => (targets? usage elements).map fun es => .tuple es usage
  | .list elements _ => (targets? usage elements).map fun es => .list es usage
  | .starred value _ => if usage = .store then (target? usage value).map fun e => .starred e usage else none
  | _ => none
where
  targets? (usage : Usage) : List Expr → Option (List Expr)
    | [] => some []
    | e :: es => do
      let t ← target? usage e
      return t :: (← targets? usage es)

/-- A place that is bound by itself. -/
def singleTarget? : Expr → Option Expr
  | .name id _ => some (.name id .store)
  | .member value name _ => some (.member value name .store)
  | .index value key _ => some (.index value key .store)
  | _ => none

/-- An expression that may be bound to a name on the way, and whether it is. -/
def named (r : Rules) : Reader (Expr × Bool) :=
  (do
    let id ← identifier
    word ":="
    let value ← r.expression
    return (.walrus (.name id .store) value, true)) <|>
  (do
    let e ← r.expression
    ensure (!(← sees ":="))
    return (e, false))

def starred (operand : Reader Expr) : Reader Expr := do
  word "*"
  return .starred (← operand) .load

def starNamed (r : Rules) : Reader Expr :=
  starred r.bitOr <|> (Prod.fst <$> named r)

def starExpression (r : Rules) : Reader Expr :=
  starred r.bitOr <|> r.expression

/-- Several things with commas are a tuple, and so is one with a comma. -/
def tupled (p : Reader Expr) : Reader Expr := do
  let (es, isOpen) ← commas p
  return if isOpen then .tuple es .load else single (fun es => .tuple es .load) es

def starExpressions (r : Rules) : Reader Expr := tupled (starExpression r)

def yielded (r : Rules) : Reader Expr := do
  word "yield"
  (do word "from"; return .yieldFrom (← r.expression)) <|>
    (do return .yield (← maybe (starExpressions r)))

/-- A parameter may have an annotation if `typed`. -/
def param (r : Rules) (typed : Bool) : Reader Param := do
  let name ← identifier
  let type ← if typed then maybe (do word ":"; r.expression) else pure none
  return .mk name type none

/-- The parameter after a star; its type may be starred itself. -/
def variadicParam (r : Rules) (typed : Bool) : Reader Param := do
  let name ← identifier
  let type ← if typed then maybe (do word ":"; starExpression r) else pure none
  return .mk name type none

def defaultValue (r : Rules) : Reader (Option Expr) :=
  maybe (do word "="; r.expression)

/-- After a parameter comes a comma or the end of the list. -/
def paramEnd (close : String) : Reader Unit := do
  if !(← accept ",") then ensure (← sees close)

def defaultedParams (r : Rules) (typed : Bool) (close : String) : Reader (List (Param × Option Expr)) :=
  many (do
    let p ← param r typed
    let d ← defaultValue r
    paramEnd close
    return (p, d))

/-- After a parameter with a default, all have one. -/
def defaultsLast : List (Param × Option Expr) → Bool
  | [] => true
  | (_, none) :: ps => defaultsLast ps
  | (_, some _) :: ps => ps.all fun p => p.2.isSome

def kwVariadicParam (r : Rules) (typed : Bool) (close : String) : Reader (Option Param) := do
  if ← accept "**" then
    let p ← param r typed
    paramEnd close
    return some p
  else return none

/-- The parameters of a function up to the token that closes them. -/
def params (r : Rules) (typed : Bool) (close : String) : Reader Params := do
  let first ← defaultedParams r typed close
  let isSlashed ← if first.isEmpty then pure false else accept "/"
  if isSlashed then paramEnd close
  let second ← if isSlashed then defaultedParams r typed close else pure []
  ensure (defaultsLast (first ++ second))
  let (variadic, kwOnly) ← (do
    if ← accept "*" then
      if ← accept "," then
        let kw ← defaultedParams r typed close
        ensure !kw.isEmpty
        return (none, kw)
      else
        let p ← variadicParam r typed
        paramEnd close
        return (some p, ← defaultedParams r typed close)
    else return (none, []))
  let kwVariadic ← kwVariadicParam r typed close
  ensure (← sees close)
  let posOnly := if isSlashed then first.map Prod.fst else []
  let args := if isSlashed then second.map Prod.fst else first.map Prod.fst
  return .mk posOnly args variadic (kwOnly.map Prod.fst) (kwOnly.map Prod.snd) kwVariadic
    ((first ++ second).filterMap Prod.snd)

def starTarget (r : Rules) : Reader Expr := do
  let isStarred ← accept "*"
  let e ← r.primary
  let t ← lift (match e with
    | .starred .. => none
    | e => target? .store e)
  return if isStarred then .starred t .store else t

def starTargets (r : Rules) : Reader Expr := do
  let (es, isOpen) ← commas (starTarget r)
  return if isOpen then .tuple es .store else single (fun es => .tuple es .store) es

def clause (r : Rules) : Reader Clause := do
  let isAsync ← accept "async"
  word "for"
  let target ← starTargets r
  word "in"
  let iter ← r.disjunction
  let conditions ← many (do word "if"; r.disjunction)
  return .mk target iter conditions isAsync

def clauses (r : Rules) : Reader (List Clause) := many1 (clause r)

def seesClause : Reader Bool := seesAny ["for", "async"]

/-- What may stand between parentheses: nothing, a group, a tuple or a generator. -/
def parenthesized (r : Rules) : Reader Expr := do
  word "("
  if ← accept ")" then return .tuple [] .load
  if ← sees "yield" then
    let e ← yielded r
    word ")"
    return e
  let isStarred ← sees "*"
  let first ← starNamed r
  if !isStarred && (← seesClause) then
    let cs ← clauses r
    word ")"
    return .generator first cs
  if ← accept "," then
    let rest ← maybe (commas (starNamed r))
    word ")"
    return .tuple (first :: (rest.map Prod.fst).getD []) .load
  ensure !isStarred
  word ")"
  return first

def bracketed (r : Rules) : Reader Expr := do
  word "["
  if ← accept "]" then return .list [] .load
  let isStarred ← sees "*"
  let first ← starNamed r
  if !isStarred && (← seesClause) then
    let cs ← clauses r
    word "]"
    return .listComp first cs
  let rest ← if ← accept "," then maybe (commas (starNamed r)) else pure none
  word "]"
  return .list (first :: (rest.map Prod.fst).getD []) .load

def dictItem (r : Rules) : Reader (Option Expr × Expr) :=
  (do word "**"; return (none, ← r.bitOr)) <|>
  (do
    let k ← r.expression
    word ":"
    return (some k, ← r.expression))

/-- The rest of a mapping after its first item. -/
def dictRest (r : Rules) (first : Option Expr × Expr) : Reader Expr := do
  let rest ← if ← accept "," then maybe (commas (dictItem r)) else pure none
  word "\x7d"
  let items := first :: (rest.map Prod.fst).getD []
  return .dict (items.map Prod.fst) (items.map Prod.snd)

def setRest (r : Rules) (first : Expr) : Reader Expr := do
  let rest ← if ← accept "," then maybe (commas (starNamed r)) else pure none
  word "\x7d"
  return .set (first :: (rest.map Prod.fst).getD [])

def braced (r : Rules) : Reader Expr := do
  word "\x7b"
  if ← accept "\x7d" then return .dict [] []
  if ← sees "**" then dictRest r (← dictItem r)
  else if ← sees "*" then setRest r (← starNamed r)
  else
    let (first, isNamed) ← named r
    if !isNamed && (← accept ":") then
      let value ← r.expression
      if ← seesClause then
        let cs ← clauses r
        word "\x7d"
        return .dictComp first value cs
      else dictRest r (some first, value)
    else if ← seesClause then
      let cs ← clauses r
      word "\x7d"
      return .setComp first cs
    else setRest r first

/-- The expression in the field of a format string, which is read as if it stood in parentheses. -/
def fieldExpr (r : Rules) (source : List Char) : Option Expr := do
  let tokens ← Token.lex ('(' :: source ++ [')'])
  let (e, _) ← (starExpressions r).run ⟨tokens, ⟨1, 0⟩⟩
  return e

def strings (r : Rules) : Reader Expr := do
  let ts ← many1 (kind .string)
  lift (stringNode (fieldExpr r) (ts.map fun t => StringToken.of t.text.toList))

def nameAtom : Reader Expr := do
  let t ← kind .name
  if t.text = "None" then return .literal .none none
  else if t.text = "True" then return .literal (.bool true) none
  else if t.text = "False" then return .literal (.bool false) none
  else
    ensure t.isIdentifier
    return .name t.text .load

def numberAtom : Reader Expr := do
  let t ← kind .number
  return .literal (← lift (number? t.text.toList)) none

def atom (r : Rules) : Reader Expr := do
  let t ← peek
  match t.kind with
  | .name => nameAtom
  | .number => numberAtom
  | .string => strings r
  | _ =>
    if t.is "(" then parenthesized r
    else if t.is "[" then bracketed r
    else if t.is "\x7b" then braced r
    else do word "..."; return .literal .ellipsis none

/-- How far the arguments of a call have got: only positional ones so far, named ones, or the entries of a
mapping. -/
inductive ArgStage where
  | positional | named | mapping
  deriving DecidableEq

/-- An argument, or one that is named or spread. -/
inductive Arg where
  | positional (value : Expr)
  | keyword (k : Keyword)

def seesKeyword : Reader Bool := fun i =>
  match i.tokens with
  | a :: b :: _ => some (a.isIdentifier && b.is "=", i)
  | _ => some (false, i)

/-- One argument and the stage after it. -/
def arg (r : Rules) (stage : ArgStage) : Reader (Arg × ArgStage) := do
  if ← accept "**" then
    return (.keyword (.mk none (← r.expression)), .mapping)
  else if ← sees "*" then
    ensure (stage != .mapping)
    return (.positional (← starred r.expression), stage)
  else if ← seesKeyword then
    let id ← identifier
    word "="
    let value ← r.expression
    return (.keyword (.mk (some id) value), if stage = .positional then .named else stage)
  else
    ensure (stage = .positional)
    let (e, _) ← named r
    ensure (!(← sees "="))
    return (.positional e, stage)

/-- The arguments up to the closing parenthesis; a comma may come after the last. -/
def argsUpTo (r : Rules) (stage : ArgStage) : Nat → Reader (List Arg)
  | 0 => pure []
  | n + 1 => do
    if ← sees ")" then return []
    let (a, stage) ← arg r stage
    if ← accept "," then return a :: (← argsUpTo r stage n)
    else return [a]

/-- The arguments of a call as positional and named ones. -/
def arguments (r : Rules) : Reader (List Expr × List Keyword) := do
  let as ← argsUpTo r .positional (← remaining)
  let positional := as.filterMap fun
    | .positional e => some e
    | _ => none
  let keywords := as.filterMap fun
    | .keyword k => some k
    | _ => none
  return (positional, keywords)

/-- What a call has between its parentheses. A generator that is the only argument needs no parentheses of
its own. -/
def callArguments (r : Rules) : Reader (List Expr × List Keyword) := do
  if (← seesAny [")", "*", "**"]) || (← seesKeyword) then arguments r
  else
    let (first, _) ← named r
    if ← seesClause then return ([.generator first (← clauses r)], [])
    ensure (!(← sees "="))
    if ← accept "," then
      let (as, ks) ← arguments r
      return (first :: as, ks)
    else return ([first], [])

def slice (r : Rules) : Reader Expr := do
  let lower ← if ← sees ":" then pure none else some <$> named r
  match lower with
  | some (e, true) => return e
  | _ =>
    if ← accept ":" then
      let upper ← maybe r.expression
      let step ← if ← accept ":" then maybe r.expression else pure none
      return .slice (lower.map Prod.fst) upper step
    else lift (lower.map Prod.fst)

/-- The key of an index: one slice, or a tuple of slices and starred expressions. -/
def slices (r : Rules) : Reader Expr := do
  let isStarred ← sees "*"
  let (es, isOpen) ← commas (starred r.expression <|> slice r)
  return if isOpen || isStarred then .tuple es .load else single (fun es => .tuple es .load) es

def trailer (r : Rules) (e : Expr) : Reader Expr := do
  if ← accept "." then
    return .member e (← identifier) .load
  else if ← accept "[" then
    let key ← slices r
    word "]"
    return .index e key .load
  else
    word "("
    let (as, ks) ← callArguments r
    word ")"
    return .call e as ks

def trailersUpTo (r : Rules) : Nat → Expr → Reader Expr
  | 0, e => pure e
  | n + 1, e => do
    if ← seesAny [".", "[", "("] then trailersUpTo r n (← trailer r e)
    else return e

def primary (r : Rules) : Reader Expr := do
  let e ← atom r
  trailersUpTo r (← remaining) e

def power (r : Rules) : Reader Expr := do
  let isAwait ← accept "await"
  let e ← primary r
  let base := if isAwait then .await e else e
  if ← accept "**" then return .binary base .pow (← r.factor) else return base

def factor (r : Rules) : Reader Expr := do
  if ← accept "+" then return .unary .plus (← r.factor)
  else if ← accept "-" then return .unary .minus (← r.factor)
  else if ← accept "~" then return .unary .invert (← r.factor)
  else power r

def operatorOf (ops : List BinaryOp) : Reader BinaryOp := do
  let t ← take fun t => ops.any fun o => t.is o.symbol
  lift (ops.find? fun o => t.is o.symbol)

def binaryLevel (ops : List BinaryOp) (operand : Reader Expr) : Reader Expr :=
  leftAssoc (operatorOf ops) operand .binary

def term (r : Rules) : Reader Expr := binaryLevel [.mult, .div, .floorDiv, .mod, .matMult] (factor r)
def sum (r : Rules) : Reader Expr := binaryLevel [.add, .sub] (term r)
def shift (r : Rules) : Reader Expr := binaryLevel [.lShift, .rShift] (sum r)
def bitAnd (r : Rules) : Reader Expr := binaryLevel [.bitAnd] (shift r)
def bitXor (r : Rules) : Reader Expr := binaryLevel [.bitXor] (bitAnd r)
def bitOr (r : Rules) : Reader Expr := binaryLevel [.bitOr] (bitXor r)

/-- A comparison is written in one word or in two. -/
def compareOp : Reader CompareOp := do
  if ← accept "not" then
    word "in"
    return .notIn
  else if ← accept "is" then
    return if ← accept "not" then .isNot else .is
  else
    let t ← take fun t => CompareOp.all.any fun o => t.is o.symbol
    lift (CompareOp.all.find? fun o => t.is o.symbol)

def comparison (r : Rules) : Reader Expr := do
  let left ← bitOr r
  let rest ← many (do let op ← compareOp; let e ← bitOr r; pure (op, e))
  return if rest.isEmpty then left else .compare left (rest.map Prod.fst) (rest.map Prod.snd)

def inversion (r : Rules) : Reader Expr := do
  if ← accept "not" then return .unary .not (← r.inversion) else comparison r

def conjunction (r : Rules) : Reader Expr := do
  return single (.boolOp .and) (← sepBy1 "and" (inversion r))

def disjunction (r : Rules) : Reader Expr := do
  return single (.boolOp .or) (← sepBy1 "or" (conjunction r))

def lambda (r : Rules) : Reader Expr := do
  word "lambda"
  let ps ← params r false ":"
  word ":"
  return .lambda ps (← r.expression)

def expression (r : Rules) : Reader Expr := do
  if ← sees "lambda" then lambda r
  else
    let body ← disjunction r
    (do
      word "if"
      let test ← disjunction r
      word "else"
      return .ifElse test body (← r.expression)) <|> pure body

/-- The rules for one more level of nesting. -/
def Rules.next (r : Rules) : Rules :=
  ⟨Grammar.expression r, Grammar.disjunction r, Grammar.inversion r, Grammar.bitOr r, Grammar.factor r,
    Grammar.primary r⟩

/-- The rules for a number of levels of nesting. -/
def Rules.upTo : Nat → Rules
  | 0 => Rules.none
  | n + 1 => (Rules.upTo n).next

end TwinModule.Grammar
