import TwinModule.Proofs.Beside.Statement
import TwinModule.Proofs.Token.Steps
/-!
How deep the grammar may go: as deep as its tokens have characters. Beyond that, more levels make no difference.
-/
set_option autoImplicit false

namespace TwinModule.Grammar
open Reader Token

namespace Stretches

end Stretches

/-- Some text, the layout that ends it, and what comes after that. -/
def Laid (t t' : Token) (vs vs' us ts ts' : List Token) : Prop :=
  (∀ u ∈ us, u.isLayout = false) ∧ ts = us ++ t :: vs ∧ ts' = us ++ t' :: vs'

namespace Laid

variable {t t' : Token} {vs vs' us ts ts' : List Token}

theorem heads (hts : Laid t t' vs vs' us ts ts') (ht : t.isLayout = true) (hkind : t'.kind = t.kind)
    (htext : t'.text = t.text) : Heads (Laid t t' vs vs') us ts ts' := by
  obtain ⟨hus, rfl, rfl⟩ := hts
  cases us with
  | nil => exact .layout ht hkind htext
  | cons u us =>
    exact .text (hus u (List.mem_cons_self ..)) ⟨fun u hu => hus u (List.mem_cons_of_mem _ hu), rfl, rfl⟩

theorem length_lt (hts : Laid t t' vs vs' us ts ts') : us.length < ts.length ∧ us.length < ts'.length := by
  obtain ⟨-, rfl, rfl⟩ := hts
  simp

end Laid

/-- A line with some text at its start, and what comes after the text. -/
def Frame.line (t t' : Token) (vs vs' : List Token) (ht : t.isLayout = true) (hkind : t'.kind = t.kind)
    (htext : t'.text = t.text) : Frame where
  rel := Laid t t' vs vs'
  heads hts := hts.heads ht hkind htext
  length_lt hts := hts.length_lt

section

variable {d : Nat} {vs vs' : List Token} {h : 0 < d ∨ Stops vs vs'}

end

end TwinModule.Grammar
