import TwinModule.Number.Notation
import TwinModule.Text.Quoted
/-!
The values that source text can spell out, and their spelling.
-/
set_option autoImplicit false

namespace TwinModule

inductive Literal where
  | none
  | ellipsis
  | bool (value : Bool)
  | text (value : String)
  | bytes (value : List UInt8)
  | int (value : Int)
  | float (value : Binary64)
  | complex (re im : Binary64)
  deriving DecidableEq, Repr, Inhabited

namespace Literal

/-- A complex number is its imaginary part alone if the real part is plain zero. -/
def complexText (style : FloatStyle) (re im : Binary64) : String :=
  if re.isZero && !re.isNegative then style.write im ++ "j"
  else
    let sign := if im.isNegative && !im.isNaN then "" else "+"
    "(" ++ style.write re ++ sign ++ style.write im ++ "j)"

/-- The value as it is shown, numbers without end by name. -/
def plain : Literal → String
  | none => "None"
  | ellipsis => "Ellipsis"
  | bool true => "True"
  | bool false => "False"
  | text s => Text.quote s
  | bytes bs => Text.quoteBytes bs
  | int n => toString n
  | float x => FloatStyle.real.write x
  | complex re im => complexText .part re im

/-- The value as source text spells it. -/
def spelling : Literal → String
  | ellipsis => "..."
  | float x => FloatStyle.real.inSource.write x
  | complex re im => complexText FloatStyle.part.inSource re im
  | l => l.plain

example : spelling (.float Binary64.infinity.negate) = "-1e309" := by decide +kernel
example : spelling (.complex ⟨0⟩ (Binary64.read "2.5".toList)) = "2.5j" := by decide +kernel

end Literal

end TwinModule
