import TwinModule.Grammar.Statement
import TwinModule.Proofs.Beside.Expression
import TwinModule.Proofs.Beside.Layout
/-!
The grammar of patterns does the same beside itself, whatever comes after the text, and that of statements does so as
long as it stays in the same blocks.
-/
set_option autoImplicit false

namespace TwinModule.Grammar
open Reader

section

variable {R : Frame} {S : Stretches} {r r' : Rules} {p p' : PatternReader}

section

variable (hp : Strict R S p p')
include hp

end

section

variable (hp : Strict R S.below p p')
include hp

end

end

/-- An expression with a type. -/
def typed (r : Rules) (isGrouped : Bool) (first : Expr) : Reader Simple := do
  word ":"
  let target ← lift (singleTarget? first)
  let isPlain := match target with
    | .name .. => if isGrouped then 0 else 1
    | _ => 0
  let type ← r.expression
  let value ← if ← accept "=" then some <$> assigned r else pure none
  return .annAssign target type value isPlain

section

variable {R : Frame} {S : Stretches} {α : Type} {p p' : Reader α} {r r' : Rules}

variable (hr : r.Agree S r')
include hr

end

section

variable {d : Nat} {vs vs' : List Token} {h : 0 < d ∨ Stops vs vs'} {S : Stretches} {r r' : Rules}

variable {block block' : Reader (List Stmt)}

section

variable (hb : Agree (.nested d vs vs' h) S block block')
include hb

end

variable (hr : r.Agree S r')
include hr

variable (hb : Agree (.nested d vs vs' h) S.below block block')
include hb

omit hr hb

end

end TwinModule.Grammar
