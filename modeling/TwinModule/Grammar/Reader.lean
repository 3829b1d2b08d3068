import TwinModule.Token.Basic
/-!
Readers of token lists. A reader gives a result and the tokens it left, or nothing if the tokens do not
start with what it reads; alternatives start over from the same tokens.
-/
set_option autoImplicit false

namespace TwinModule.Grammar

/-- The tokens still to be read, and the end of the last token that was text. -/
structure Input where
  tokens : List Token
  last : Place
  deriving Inhabited

abbrev Reader := StateT Input Option

namespace Reader

/-- The next token, or the end of all. -/
def peek : Reader Token := fun i =>
  some (i.tokens.headD ⟨.stop, "", i.last, i.last⟩, i)

/-- The next token has to pass a test. -/
def take (ok : Token → Bool) : Reader Token := fun i =>
  match i.tokens with
  | t :: ts => if ok t then some (t, ⟨ts, if t.isLayout then i.last else t.stop⟩) else none
  | [] => none

def word (text : String) : Reader Unit := do
  let _ ← take (·.is text)

/-- Whether a keyword or an operator comes next; it is not read. -/
def sees (text : String) : Reader Bool := do
  return (← peek).is text

/-- Whether one of some keywords or operators comes next; it is not read. -/
def seesAny (texts : List String) : Reader Bool := do
  let t ← peek
  return texts.any t.is

/-- A keyword or an operator, if it comes next. -/
def accept (text : String) : Reader Bool := do
  if ← sees text then word text; return true else return false

def kind (k : Token.Kind) : Reader Token := take (·.kind == k)

def identifier : Reader String := do
  return (← take Token.isIdentifier).text

def lastEnd : Reader Place := fun i => some (i.last, i)

def ensure (condition : Bool) : Reader Unit :=
  if condition then pure () else failure

def lift {α : Type} (x : Option α) : Reader α := fun i => x.map fun a => (a, i)

def maybe {α : Type} (p : Reader α) : Reader (Option α) :=
  (some <$> p) <|> pure none

/-- As often as it is there, but not more often than there are tokens. -/
def manyUpTo {α : Type} (p : Reader α) : Nat → Reader (List α)
  | 0 => pure []
  | n + 1 => do
    match ← maybe p with
    | none => return []
    | some a => return a :: (← manyUpTo p n)

def remaining : Reader Nat := fun i => some (i.tokens.length, i)

def many {α : Type} (p : Reader α) : Reader (List α) := do
  manyUpTo p (← remaining)

def many1 {α : Type} (p : Reader α) : Reader (List α) := do
  let a ← p
  return a :: (← many p)

/-- One or more, with a separator between them. -/
def sepBy1 {α : Type} (separator : String) (p : Reader α) : Reader (List α) := do
  let a ← p
  return a :: (← many (do word separator; p))

/-- One or more with commas between them, and whether a comma comes after the last. -/
def commas {α : Type} (p : Reader α) : Reader (List α × Bool) := do
  let as ← sepBy1 "," p
  return (as, ← accept ",")

/-- Operands that group to the left, with operators between them. -/
def leftAssocUpTo {α β : Type} (op : Reader β) (operand : Reader α) (join : α → β → α → α) :
    Nat → α → Reader α
  | 0, a => pure a
  | n + 1, a => do
    match ← maybe (do let o ← op; let b ← operand; pure (o, b)) with
    | none => return a
    | some (o, b) => leftAssocUpTo op operand join n (join a o b)

def leftAssoc {α β : Type} (op : Reader β) (operand : Reader α) (join : α → β → α → α) : Reader α := do
  let a ← operand
  leftAssocUpTo op operand join (← remaining) a

/-- A single thing stands for itself, several are put together. -/
def single {α : Type} (together : List α → α) : List α → α
  | [a] => a
  | as => together as

end Reader

end TwinModule.Grammar
