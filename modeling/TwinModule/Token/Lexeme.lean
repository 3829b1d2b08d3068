import TwinModule.Text.Identifier
/-!
The spelling of single tokens: numbers, string literals and operators. Each reader takes the text from the
first character of the token and gives the text after it, or nothing if no such token is spelled there.
-/
set_option autoImplicit false

namespace TwinModule.Lexeme
open TwinModule.Text

/-- A character that a name may go on with, before the name as a whole is checked. -/
def isWordChar (c : Char) : Bool :=
  isLetter c || isDigit c || c == '_' || 128 ≤ c.toNat

/-- A character that a name may start with, before the name as a whole is checked. -/
def isWordStart (c : Char) : Bool :=
  isLetter c || c == '_' || 128 ≤ c.toNat

/-- The rest after digits with single underscores between them. The digit before has been read. -/
def digitRun (ok : Char → Bool) : List Char → Option (List Char)
  | [] => some []
  | '_' :: cs =>
    match cs with
    | d :: ds => if ok d then digitRun ok ds else none
    | [] => none
  | c :: cs => if ok c then digitRun ok cs else some (c :: cs)

/-- Digits of another radix, after its mark; one underscore may come first. -/
def radixDigits (ok : Char → Bool) : List Char → Option (List Char)
  | '_' :: d :: ds => if ok d then digitRun ok ds else none
  | d :: ds => if ok d then digitRun ok ds else none
  | [] => none

/-- A number may touch one of the words `and`, `else`, `for`, `if`, `in`, `is`, `not` and `or`. -/
def touchesOperator (cs : List Char) : Bool :=
  ["and", "else", "for", "if", "in", "is", "not", "or"].any fun w => w.toList.isPrefixOf cs

def endsNumber : List Char → Bool
  | [] => true
  | c :: cs => touchesOperator (c :: cs) || !isWordChar c

def ended (cs : List Char) : Option (List Char) :=
  if endsNumber cs then some cs else none

/-- The mark of an imaginary number, if there is one, and the end. -/
def imaginaryEnd : List Char → Option (List Char)
  | 'j' :: cs => ended cs
  | 'J' :: cs => ended cs
  | cs => ended cs

/-- An exponent, if there is one, and the end. -/
def exponentEnd : List Char → Option (List Char)
  | e :: cs =>
    if e = 'e' || e = 'E' then
      match cs with
      | [] => none
      | s :: ds =>
        if s = '+' || s = '-' then
          match ds with
          | d :: ds => if isDigit d then (digitRun isDigit ds).bind imaginaryEnd else none
          | [] => none
        else if isDigit s then (digitRun isDigit ds).bind imaginaryEnd
        else ended (e :: cs)
    else imaginaryEnd (e :: cs)
  | [] => some []

/-- The part of a number after its point. -/
def fractionEnd : List Char → Option (List Char)
  | d :: ds => if isDigit d then (digitRun isDigit ds).bind exponentEnd else exponentEnd (d :: ds)
  | [] => some []

/-- What may follow the digits before the point. -/
def wholeEnd : List Char → Option (List Char)
  | '.' :: cs => fractionEnd cs
  | cs => exponentEnd cs

def isHexDigit (c : Char) : Bool :=
  isDigit c || ('a' ≤ c && c ≤ 'f') || ('A' ≤ c && c ≤ 'F')

def isOctalDigit (c : Char) : Bool :=
  '0' ≤ c && c ≤ '7'

def isBinaryDigit (c : Char) : Bool :=
  c == '0' || c == '1'

/-- A number of radix 8 or 2 is not followed by a digit that is too large. -/
def endedRadix : List Char → Option (List Char)
  | c :: cs => if isDigit c then none else ended (c :: cs)
  | [] => some []

/-- A number in decimal notation. Only zeros may follow a leading zero of a whole number. -/
def decimalEnd (c : Char) (cs : List Char) : Option (List Char) := do
  let rest ← digitRun isDigit cs
  let digits := cs.take (cs.length - rest.length)
  if c = '0' && digits.any (fun d => d != '0' && d != '_') then
    match rest with
    | d :: _ => if d = '.' || d = 'e' || d = 'E' || d = 'j' || d = 'J' then wholeEnd rest else none
    | [] => none
  else wholeEnd rest

/-- The rest after a number that starts with a digit. -/
def numberEnd : List Char → Option (List Char)
  | '0' :: m :: cs =>
    if m = 'x' || m = 'X' then (radixDigits isHexDigit cs).bind ended
    else if m = 'o' || m = 'O' then (radixDigits isOctalDigit cs).bind endedRadix
    else if m = 'b' || m = 'B' then (radixDigits isBinaryDigit cs).bind endedRadix
    else decimalEnd '0' (m :: cs)
  | c :: cs => decimalEnd c cs
  | [] => none

/-- The rest after a string in single marks, its opening mark having been read. -/
def closeLine (q : Char) : List Char → Option (List Char)
  | [] => none
  | '\\' :: _ :: cs => closeLine q cs
  | c :: cs => if c = q then some cs else if c = '\n' || c = '\\' then none else closeLine q cs

/-- The rest after a string in triple marks, its opening marks having been read. -/
def closeBlock (q : Char) : List Char → Option (List Char)
  | [] => none
  | '\\' :: _ :: cs => closeBlock q cs
  | c :: cs =>
    if c = q && cs.take 2 == [q, q] then some (cs.drop 2) else closeBlock q cs

/-- The rest after a string whose first mark is `q`. -/
def stringEnd (q : Char) : List Char → Option (List Char)
  | a :: b :: cs =>
    if a = q then if b = q then closeBlock q cs else some (b :: cs)
    else closeLine q (a :: b :: cs)
  | cs => closeLine q cs

/-- The letters that may stand before the marks of a string. Their order and case are free. -/
def isStringPrefix (cs : List Char) : Bool :=
  ["", "b", "r", "u", "f", "br", "rb", "fr", "rf"].contains (String.ofList (cs.map Char.toLower))

/-- Letters before a mark that make it a string literal: how many, and the mark. -/
def stringStart (cs : List Char) : Option (Nat × Char) :=
  let letters := cs.takeWhile isLetter
  match cs.drop letters.length with
  | q :: _ => if (q = '"' || q = '\'') && isStringPrefix letters then some (letters.length, q) else none
  | [] => none

def operators : List String :=
  ["**=", "//=", ">>=", "<<=", "...",
   "!=", "<>", "==", "<=", ">=", "->", ":=", "+=", "-=", "*=", "/=", "%=", "&=", "|=", "^=", "@=",
   "**", "//", "<<", ">>",
   "(", ")", "[", "]", "\x7b", "\x7d", ":", ",", ";", "+", "-", "*", "/", "|", "&", "<", ">", "=", ".",
   "%", "~", "^", "@"]

/-- The longest operator at the head of a text. -/
def operator? (cs : List Char) : Option String :=
  operators.find? fun o => o.toList.isPrefixOf cs

end TwinModule.Lexeme
