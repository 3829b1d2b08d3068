import TwinModule.Syntax.Literal
import TwinModule.Token.Lexeme
/-!
What literals mean: numbers in their notations, and the text between the quotes of a string.
-/
set_option autoImplicit false

namespace TwinModule.Grammar
open TwinModule.Text TwinModule.Lexeme

def digitValue (c : Char) : Nat :=
  if isDigit c then c.toNat - 48
  else if 'a' ≤ c && c ≤ 'f' then c.toNat - 87
  else c.toNat - 55

/-- The value of digits in a radix; underscores do not count. -/
def natOf (radix : Nat) (cs : List Char) : Nat :=
  cs.foldl (fun n c => if c = '_' then n else radix * n + digitValue c) 0

/-- A decimal number may not have more digits than this. -/
def maxDigits : Nat := 4300

/-- The value of a number that is spelled as a token. -/
def number? (cs : List Char) : Option Literal :=
  match cs with
  | '0' :: m :: ds =>
    if m = 'x' || m = 'X' then some (.int (natOf 16 ds))
    else if m = 'o' || m = 'O' then some (.int (natOf 8 ds))
    else if m = 'b' || m = 'B' then some (.int (natOf 2 ds))
    else decimal cs
  | _ => decimal cs
where
  decimal (cs : List Char) : Option Literal :=
    if cs.any fun c => c = 'j' || c = 'J' then some (.complex ⟨0⟩ (Binary64.read cs.dropLast))
    else if cs.any fun c => c = '.' || c = 'e' || c = 'E' then some (.float (Binary64.read cs))
    else if maxDigits < (cs.filter (· != '_')).length then none
    else some (.int (natOf 10 cs))

/-- A character by its code in a fixed number of hexadecimal digits. -/
def codeChar? (width : Nat) (cs : List Char) : Option Char :=
  let ds := cs.take width
  if ds.length = width && ds.all isHexDigit then
    let n := natOf 16 ds
    if h : n.isValidChar then some ⟨n.toUInt32, by
      have : n < UInt32.size := by
        rcases h with h | h <;> simp [UInt32.size] <;> omega
      simpa [UInt32.isValidChar, Nat.toUInt32, UInt32.toNat_ofNat_of_lt' this] using h⟩
    else none
  else none

/-- The characters after a backslash that stand for one control character or for themselves. -/
def namedEscape? : Char → Option (List Char)
  | '\n' => some []
  | '\\' => some ['\\']
  | '\'' => some ['\'']
  | '"' => some ['"']
  | 'a' => some ['\x07']
  | 'b' => some ['\x08']
  | 'f' => some ['\x0c']
  | 'n' => some ['\n']
  | 'r' => some ['\r']
  | 't' => some ['\t']
  | 'v' => some ['\x0b']
  | _ => none

/-- The meaning of an escape, from the character after the backslash on, and how many characters more
it takes. In bytes, characters beyond 255 have no code. An escape that means nothing stands for itself. -/
def escape? (isBytes : Bool) (c : Char) (cs : List Char) : Option (List Char × Nat) :=
  match namedEscape? c with
  | some out => some (out, 0)
  | none =>
    if isOctalDigit c then
      let ds := c :: (cs.take 2).takeWhile isOctalDigit
      let n := natOf 8 ds
      some ([Char.ofNat (if isBytes then n % 256 else n)], ds.length - 1)
    else if c = 'x' then (codeChar? 2 cs).map fun d => ([d], 2)
    else if isBytes then some (['\\', c], 0)
    else if c = 'u' then (codeChar? 4 cs).map fun d => ([d], 4)
    else if c = 'U' then (codeChar? 8 cs).map fun d => ([d], 8)
    else if c = 'N' then none
    else some (['\\', c], 0)

/-- The text that is written with escapes; `skip` characters have been used up by an escape. -/
def unescape (isBytes : Bool) : (skip : Nat) → List Char → Option (List Char)
  | _, [] => some []
  | n + 1, _ :: cs => unescape isBytes n cs
  | 0, '\\' :: c :: cs => do
    let (out, n) ← escape? isBytes c cs
    return out ++ (← unescape isBytes n cs)
  | 0, c :: cs => do return c :: (← unescape isBytes 0 cs)

def content? (isRaw : Bool) (cs : List Char) : Option (List Char) :=
  if isRaw then some cs else unescape false 0 cs

/-- The bytes between quotes: plain characters of ASCII and escapes. -/
def byteContent? (isRaw : Bool) (cs : List Char) : Option (List UInt8) :=
  if cs.all fun c => c.toNat < 128 then
    (if isRaw then some cs else unescape true 0 cs).map fun out => out.map fun c => UInt8.ofNat c.toNat
  else none

structure StringToken where
  isRaw : Bool
  isBytes : Bool
  isFormat : Bool
  /-- Whether it starts with a small `u`. -/
  isMarked : Bool
  content : List Char
  deriving Repr, Inhabited

/-- The parts of a token that is spelled as a string. -/
def StringToken.of (cs : List Char) : StringToken :=
  let letters := cs.takeWhile isLetter
  let has (c : Char) := letters.any fun d => d.toLower == c
  let quoted := cs.drop letters.length
  let q := quoted.headD '\''
  let size := if 6 ≤ quoted.length && quoted.take 3 == [q, q, q] then 3 else 1
  { isRaw := has 'r', isBytes := has 'b', isFormat := has 'f', isMarked := letters.head? == some 'u'
    content := (quoted.drop size).take (quoted.length - 2 * size) }

example : number? "0x_fF".toList = some (.int 255) := by decide +kernel
example : content? false "a\\x41\\101\\\n\\q".toList = some "aAA\\q".toList := by decide +kernel
example : (StringToken.of "Rb'''x'''".toList).content = ['x'] := by decide +kernel

end TwinModule.Grammar
