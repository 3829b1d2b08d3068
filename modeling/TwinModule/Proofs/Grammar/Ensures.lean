import TwinModule.Grammar.Statement
/-!
What is true of everything that a reader reads, whatever the tokens are.
-/
set_option autoImplicit false

namespace TwinModule.Grammar.Reader

variable {α β : Type} {P : α → Prop} {Q : β → Prop}

/-- Whatever the reader reads has the property. -/
def Ensures (p : Reader α) (P : α → Prop) : Prop :=
  ∀ i a j, p i = some (a, j) → P a

namespace Ensures

theorem pure {a : α} (h : P a) : Ensures (pure a) P := by
  intro i b j hb
  cases hb
  exact h

theorem failure : Ensures failure P := by
  intro i a j h
  cases h

theorem bind {p : Reader α} {f : α → Reader β} (hp : Ensures p P) (hf : ∀ a, P a → Ensures (f a) Q) :
    Ensures (p >>= f) Q := by
  intro i b k h
  cases hpi : p i with
  | none => simp [Bind.bind, StateT.bind, hpi] at h
  | some result =>
    obtain ⟨a, j⟩ := result
    simp only [Bind.bind, StateT.bind, hpi, Option.bind] at h
    exact hf a (hp i a j hpi) j b k h

/-- What comes first does not matter. -/
theorem after {p : Reader α} {f : α → Reader β} (hf : ∀ a, Ensures (f a) Q) : Ensures (p >>= f) Q :=
  bind (P := fun _ => True) (fun _ _ _ _ => trivial) fun a _ => hf a

/-- Nor does it matter which of two things comes first. -/
theorem afterIf {c : Prop} [Decidable c] {p q : Reader α} {f : α → Reader β} (hf : ∀ a, Ensures (f a) Q) :
    Ensures (if c then p >>= f else q >>= f) Q := by
  split
  · exact after hf
  · exact after hf

theorem orElse {p q : Reader α} (hp : Ensures p P) (hq : Ensures q P) : Ensures (p <|> q) P := by
  intro i a j h
  cases hpi : p i with
  | none =>
    refine hq i a j ?_
    simpa [HOrElse.hOrElse, OrElse.orElse, Alternative.orElse, StateT.orElse, hpi] using h
  | some result =>
    refine hp i a j ?_
    simpa [HOrElse.hOrElse, OrElse.orElse, Alternative.orElse, StateT.orElse, hpi] using h

theorem imp {p : Reader α} {P' : α → Prop} (hp : Ensures p P) (h : ∀ a, P a → P' a) : Ensures p P' :=
  fun i a j hi => h a (hp i a j hi)

theorem maybe {p : Reader α} (hp : Ensures p P) : Ensures (maybe p) fun o => ∀ a ∈ o, P a := by
  refine orElse (bind hp fun a ha => pure ?_) (pure (by simp))
  simpa using ha

theorem manyUpTo {p : Reader α} (hp : Ensures p P) (n : Nat) :
    Ensures (manyUpTo p n) fun as => ∀ a ∈ as, P a := by
  induction n with
  | zero => exact pure (by simp)
  | succ n ih =>
    refine bind (maybe hp) fun o ho => ?_
    cases o with
    | none => exact pure (by simp)
    | some a =>
      refine bind ih fun as has => pure ?_
      intro b hb
      rcases List.mem_cons.1 hb with rfl | hb
      · exact ho b rfl
      · exact has b hb

theorem many {p : Reader α} (hp : Ensures p P) : Ensures (many p) fun as => ∀ a ∈ as, P a :=
  after fun n => manyUpTo hp n

theorem many1 {p : Reader α} (hp : Ensures p P) :
    Ensures (many1 p) fun as => as ≠ [] ∧ ∀ a ∈ as, P a := by
  refine bind hp fun a ha => bind (many hp) fun as has => pure ⟨by simp, ?_⟩
  intro b hb
  rcases List.mem_cons.1 hb with rfl | hb
  · exact ha
  · exact has b hb

end Ensures

/-- Looking at the next token reads nothing. -/
theorem sees_bind (w : String) (f : Bool → Reader β) (i : Input) :
    (sees w >>= f) i = f ((i.tokens.headD ⟨.stop, "", i.last, i.last⟩).is w) i := rfl

theorem ensure_true_bind (f : Unit → Reader β) : (ensure true >>= f) = f () := rfl

theorem ensure_false_bind (f : Unit → Reader β) (i : Input) : (ensure false >>= f) i = none := rfl

end TwinModule.Grammar.Reader
