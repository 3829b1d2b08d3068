import TwinModule.Text.Unprintable
/-!
Quoted text: single quotes unless they would need escapes and double quotes would not, a backslash before
the quote and the backslash, letters for tab and line ends, and code numbers for what cannot be shown.
-/
set_option autoImplicit false

namespace TwinModule.Text

def hexDigit (n : Nat) : Char :=
  if n < 10 then Char.ofNat (48 + n) else Char.ofNat (87 + n)

/-- The last `width` hexadecimal digits of a number. -/
def hexDigits : (width n : Nat) → List Char
  | 0, _ => []
  | width + 1, n => hexDigits width (n / 16) ++ [hexDigit (n % 16)]

theorem length_hexDigits (width n : Nat) : (hexDigits width n).length = width := by
  induction width generalizing n with
  | zero => rfl
  | succ w ih => simp [hexDigits, ih]

/-- The shortest code escape that can hold a code point. -/
def escapeCode (n : Nat) : List Char :=
  if n < 0x100 then '\\' :: 'x' :: hexDigits 2 n
  else if n < 0x10000 then '\\' :: 'u' :: hexDigits 4 n
  else '\\' :: 'U' :: hexDigits 8 n

/-- The escape of a character that cannot stand for itself. -/
def escapeChar (c : Char) : List Char :=
  if c = '\\' then ['\\', '\\']
  else if c = '\t' then ['\\', 't']
  else if c = '\n' then ['\\', 'n']
  else if c = '\r' then ['\\', 'r']
  else escapeCode c.toNat

def quoteChar (q c : Char) : List Char :=
  if c = q then ['\\', c]
  else if c = '\\' || !isPrintable c then escapeChar c
  else [c]

/-- The quote that needs no escape if there is one, a single quote otherwise. -/
def chooseQuote (cs : List Char) : Char :=
  if cs.contains '\'' && !cs.contains '"' then '"' else '\''

def quoteChars (cs : List Char) : List Char :=
  let q := chooseQuote cs
  q :: cs.flatMap (quoteChar q) ++ [q]

def quote (s : String) : String :=
  String.ofList (quoteChars s.toList)

/-- The text of a literal for bytes, which are all shown as ASCII. -/
def quoteBytes (bytes : List UInt8) : String :=
  let cs := bytes.map fun b => Char.ofNat b.toNat
  let q := chooseQuote cs
  let show_ (c : Char) : List Char :=
    if c = q then ['\\', c]
    else if c = '\\' || c.toNat < 32 || 127 ≤ c.toNat then escapeChar c
    else [c]
  String.ofList ('b' :: q :: cs.flatMap show_ ++ [q])

example : quote "a'b" = "\"a'b\"" := by decide +kernel
example : quote "a'\"\n\x00é" = "'a\\'\"\\n\\x00é'" := by decide +kernel
example : quoteBytes [39, 200] = "b\"'\\xc8\"" := by decide +kernel

end TwinModule.Text
