import TwinModule.Number.Binary64
/-!
Numbers as they are written in source text.
-/
set_option autoImplicit false

namespace TwinModule

/-- How floating-point numbers are written: in positions if the point stands after `low` and at most at
`high`, with an exponent of at least two digits otherwise. -/
structure FloatStyle where
  low : Int
  high : Int
  /-- Whether a whole number gets a zero after a point. -/
  fraction : Bool
  /-- The text of an infinite number without its sign. -/
  infinite : String
  undefined : String
  deriving DecidableEq, Repr

namespace FloatStyle

def real : FloatStyle := ⟨-4, 16, true, "inf", "nan"⟩

def part : FloatStyle := { real with fraction := false }

/-- Numbers that have no literal are spelled by one that is too large, or by a difference of two such. -/
def inSource (style : FloatStyle) : FloatStyle :=
  { style with infinite := "1e309", undefined := "(1e309-1e309)" }

def digitText (ds : List Nat) : String :=
  String.ofList (ds.map fun d => Char.ofNat (48 + d))

def writeDecimal (style : FloatStyle) (d : Decimal) : String :=
  if style.low < d.point && d.point ≤ style.high then
    if d.point ≤ 0 then "0." ++ digitText (List.replicate (-d.point).toNat 0 ++ d.digits)
    else
      let n := d.point.toNat
      let whole := digitText (d.digits.take n ++ List.replicate (n - d.digits.length) 0)
      match d.digits.drop n with
      | [] => if style.fraction then whole ++ ".0" else whole
      | rest => whole ++ "." ++ digitText rest
  else
    let exponent := d.point - 1
    let size := toString exponent.natAbs
    let size := if exponent.natAbs < 10 then "0" ++ size else size
    let mantissa := match d.digits with
      | [] => "0"
      | [a] => digitText [a]
      | a :: rest => digitText [a] ++ "." ++ digitText rest
    mantissa ++ "e" ++ (if exponent < 0 then "-" else "+") ++ size

/-- The text of a number, infinite ones and undefined ones by name. -/
def write (style : FloatStyle) (x : Binary64) : String :=
  if x.isNaN then style.undefined
  else
    let sign := if x.isNegative then "-" else ""
    let size : Binary64 := if x.isNegative then x.negate else x
    sign ++
      (if size.isInfinite then style.infinite
       else if size.isZero then (if style.fraction then "0.0" else "0")
       else writeDecimal style size.shortest)

end FloatStyle

namespace Binary64

/-- The value of decimal digits, and how many there are; underscores do not count. -/
def readDigits : List Char → Nat × Nat
  | [] => (0, 0)
  | cs => cs.foldl (fun (n, k) c => if c = '_' then (n, k) else (10 * n + (c.toNat - 48), k + 1)) (0, 0)

/-- A number in decimal notation without a sign: digits, perhaps a point and digits, perhaps an exponent. -/
def read (cs : List Char) : Binary64 :=
  let isMark (c : Char) := c == 'e' || c == 'E'
  let body := cs.takeWhile fun c => !isMark c
  let exponent := (cs.dropWhile fun c => !isMark c).drop 1
  let whole := body.takeWhile (· != '.')
  let fraction := (body.dropWhile (· != '.')).drop 1
  let (m, _) := readDigits (whole ++ fraction)
  let (_, places) := readDigits fraction
  let e : Int := match exponent with
    | '-' :: ds => -((readDigits ds).1 : Int)
    | '+' :: ds => (readDigits ds).1
    | ds => (readDigits ds).1
  ofDecimal m (e - places)

/-- A number as it is written by `FloatStyle.write`. -/
def readSigned (cs : List Char) : Binary64 :=
  let size (cs : List Char) : Binary64 :=
    if cs = ['i', 'n', 'f'] then infinity
    else if cs = ['n', 'a', 'n'] then notANumber
    else read cs
  match cs with
  | '-' :: cs => (size cs).negate
  | '+' :: cs => size cs
  | cs => size cs

end Binary64

example : FloatStyle.real.write (Binary64.read "1e16".toList) = "1e+16" := by decide +kernel
example : FloatStyle.real.write (Binary64.read "1234567.5".toList) = "1234567.5" := by decide +kernel
example : FloatStyle.real.write (Binary64.read "1E15".toList) = "1000000000000000.0" := by decide +kernel
example : FloatStyle.real.write (Binary64.read "0.00001".toList) = "1e-05" := by decide +kernel
example : FloatStyle.real.write (Binary64.read "0.0001".toList) = "0.0001" := by decide +kernel
example : FloatStyle.part.write (Binary64.read "2.".toList) = "2" := by decide +kernel

end TwinModule
