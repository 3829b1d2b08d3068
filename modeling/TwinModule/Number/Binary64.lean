/-!
Floating-point numbers of 64 bits, read from and written to decimal notation in exact arithmetic. A decimal
is rounded to the nearest number, to the even one on a tie; a number is written with the fewest digits that
round back to it, the nearest such digits to it.
-/
set_option autoImplicit false

namespace TwinModule

/-- A number by its 64 bits: sign, eleven bits of exponent, fifty-two of fraction. -/
structure Binary64 where
  bits : UInt64
  deriving DecidableEq, Repr, Inhabited

/-- Digits `d₁ d₂ …` and a power, standing for `0.d₁d₂… · 10 ^ point`. -/
structure Decimal where
  digits : List Nat
  point : Int
  deriving DecidableEq, Repr, Inhabited

namespace Binary64

def infinity : Binary64 := ⟨0x7ff0000000000000⟩

def notANumber : Binary64 := ⟨0x7ff8000000000000⟩

def negate (x : Binary64) : Binary64 := ⟨x.bits ^^^ 0x8000000000000000⟩

def isNegative (x : Binary64) : Bool := 0x8000000000000000 ≤ x.bits

def exponentField (x : Binary64) : Nat := (x.bits.toNat / Nat.pow 2 52) % Nat.pow 2 11

def fractionField (x : Binary64) : Nat := x.bits.toNat % Nat.pow 2 52

def isNaN (x : Binary64) : Bool := x.exponentField == 2047 && x.fractionField != 0

def isInfinite (x : Binary64) : Bool := x.exponentField == 2047 && x.fractionField == 0

def isZero (x : Binary64) : Bool := x.exponentField == 0 && x.fractionField == 0

/-- A quotient times a power of two, as a quotient. -/
def scale2 (num den : Nat) (q : Int) : Nat × Nat :=
  if 0 ≤ q then (num * Nat.pow 2 q.toNat, den) else (num, den * Nat.pow 2 (-q).toNat)

/-- The quotient rounded to the nearest natural number, a half to the even one. -/
def roundHalfEven (num den : Nat) : Nat :=
  let n := num / den
  let r := 2 * (num % den)
  if r < den then n else if den < r then n + 1 else if n % 2 = 0 then n else n + 1

theorem roundHalfEven_near (num den : Nat) (h : 0 < den) :
    2 * (roundHalfEven num den * den) ≤ 2 * num + den ∧ 2 * num ≤ 2 * (roundHalfEven num den * den) + den := by
  have hd : num / den * den + num % den = num := by
    rw [Nat.mul_comm]; exact Nat.div_add_mod num den
  have hm := Nat.mod_lt num h
  unfold roundHalfEven
  simp only
  split
  · omega
  · split
    · rw [Nat.add_mul]; omega
    · split
      · omega
      · rw [Nat.add_mul]; omega

/-- The number whose significand `m` counts units of `2 ^ q`. -/
def ofSignificand (m : Nat) (q : Int) : Binary64 :=
  if m < Nat.pow 2 52 then ⟨UInt64.ofNat m⟩
  else if m = Nat.pow 2 53 then
    if 971 ≤ q then infinity else ⟨UInt64.ofNat ((q + 1076).toNat * Nat.pow 2 52)⟩
  else if 971 < q then infinity
  else ⟨UInt64.ofNat ((q + 1075).toNat * Nat.pow 2 52 + (m - Nat.pow 2 52))⟩

/-- The number nearest to a quotient of natural numbers. -/
def ofQuotient (num den : Nat) : Binary64 :=
  if num = 0 then ⟨0⟩
  else
    let k : Int := (num.log2 : Int) - (den.log2 : Int)
    let q₀ : Int := k - 53
    let (n, d) := scale2 num den (-q₀)
    let q := max (if Nat.pow 2 53 ≤ n / d then q₀ + 1 else q₀) (-1074)
    let (n, d) := scale2 num den (-q)
    ofSignificand (roundHalfEven n d) q

/-- The number nearest to `m · 10 ^ e`. -/
def ofDecimal (m : Nat) (e : Int) : Binary64 :=
  let size : Int := (Nat.toDigits 10 m).length
  if m = 0 || size + e < -400 then ⟨0⟩
  else if 400 < size + e then infinity
  else if 0 ≤ e then ofQuotient (m * Nat.pow 10 e.toNat) 1
  else ofQuotient m (Nat.pow 10 (-e).toNat)

/-- Significand and power of two of a finite number. -/
def significand (x : Binary64) : Nat × Int :=
  if x.exponentField = 0 then (x.fractionField, -1074)
  else (Nat.pow 2 52 + x.fractionField, (x.exponentField : Int) - 1075)

/-- The quotient `num / den` as a multiple of `10 ^ p`. -/
def scale10 (num den : Nat) (p : Int) : Nat × Nat :=
  if 0 ≤ p then (num, den * Nat.pow 10 p.toNat) else (num * Nat.pow 10 (-p).toNat, den)

/-- The power of ten at or below a positive quotient. -/
def leading10 (num den : Nat) : Int :=
  let d : Int := ((Nat.toDigits 10 num).length : Int) - ((Nat.toDigits 10 den).length : Int)
  let (n, m) := scale10 num den d
  if m ≤ n then d else d - 1

/-- Whether `c · 10 ^ p` rounds to the number with significand `m` and power `q`. -/
def roundsTo (m : Nat) (q : Int) (c : Nat) (p : Int) : Bool :=
  let low := if m = Nat.pow 2 52 && -1074 < q then 4 * m - 1 else 4 * m - 2
  let high := 4 * m + 2
  -- `c · 10 ^ p` in units of `2 ^ (q - 2)`
  let (num, den) := if 0 ≤ p then (c * Nat.pow 10 p.toNat, 1) else (c, Nat.pow 10 (-p).toNat)
  let (num, den) := scale2 num den (2 - q)
  if m % 2 = 0 then low * den ≤ num && num ≤ high * den else low * den < num && num < high * den

/-- The better of two neighbours on a decimal grid, if one of them rounds back. -/
def pick (m : Nat) (q : Int) (num den : Nat) (p : Int) : Option Nat :=
  let (n, d) := scale10 num den p
  let c := n / d
  match roundsTo m q c p, roundsTo m q (c + 1) p with
  | true, true =>
    let r := 2 * (n % d)
    some (if r < d then c else if d < r then c + 1 else if c % 2 = 0 then c else c + 1)
  | true, false => some c
  | false, true => some (c + 1)
  | false, false => none

/-- The first grid, from coarse to fine, with a hit. -/
def search (m : Nat) (q : Int) (num den : Nat) (lead : Int) : (tries : Nat) → (size : Int) → Nat × Int
  | 0, size => (num, lead - size)
  | tries + 1, size =>
    let p := lead - size + 1
    match pick m q num den p with
    | some c => (c, p)
    | none => search m q num den lead tries (size + 1)

/-- The digits of a natural number without the zeros at its end. -/
def digitsOf (c : Nat) : List Nat :=
  (((Nat.toDigits 10 c).map fun d => d.toNat - 48).reverse.dropWhile (· = 0)).reverse

/-- The fewest digits that round back to a positive finite number. -/
def shortest (x : Binary64) : Decimal :=
  let (m, q) := x.significand
  let (num, den) := scale2 m 1 q
  let lead := leading10 num den
  let (c, p) := search m q num den lead 17 1
  ⟨digitsOf c, p + (Nat.toDigits 10 c).length⟩

example : ofDecimal 1 0 = ⟨0x3ff0000000000000⟩ := by decide +kernel
example : ofDecimal 1 (-1) = ⟨0x3fb999999999999a⟩ := by decide +kernel
example : ofDecimal 5 (-324) = ⟨1⟩ := by decide +kernel
example : ofDecimal 17976931348623157 292 = ⟨0x7fefffffffffffff⟩ := by decide +kernel
example : ofDecimal 18 307 = infinity := by decide +kernel
example : shortest ⟨0x3fb999999999999a⟩ = ⟨[1], 0⟩ := by decide +kernel
example : shortest ⟨1⟩ = ⟨[5], -323⟩ := by decide +kernel
example : shortest ⟨0x7fefffffffffffff⟩ = ⟨[1, 7, 9, 7, 6, 9, 3, 1, 3, 4, 8, 6, 2, 3, 1, 5, 7], 309⟩ := by
  decide +kernel

end Binary64

end TwinModule
