/-!
Results that agree: either both are errors, or what matters of them is the same.
-/
set_option autoImplicit false

namespace TwinModule

variable {ε ε' α β γ δ : Type} {f : α → γ} {g : β → δ}

/-- Both give nothing, or both give something that is the same under a function. -/
def AgreeOn (f : α → γ) (x : Except ε α) (y : Except ε' α) : Prop := x.toOption.map f = y.toOption.map f

namespace AgreeOn

theorem refl (f : α → γ) (x : Except ε α) : AgreeOn f x x := rfl

theorem symm {x : Except ε α} {y : Except ε' α} (h : AgreeOn f x y) : AgreeOn f y x := Eq.symm h

theorem trans {ε'' : Type} {x : Except ε α} {y : Except ε' α} {z : Except ε'' α} (h : AgreeOn f x y)
    (h' : AgreeOn f y z) : AgreeOn f x z := Eq.trans h h'

theorem ok {a b : α} (h : f a = f b) : AgreeOn f (.ok a : Except ε α) (.ok b : Except ε' α) :=
  congrArg some h

theorem cases {x : Except ε α} {y : Except ε' α} (h : AgreeOn f x y) :
    (∃ e e', x = .error e ∧ y = .error e') ∨ ∃ a b, x = .ok a ∧ y = .ok b ∧ f a = f b := by
  cases x with
  | error e =>
    cases y with
    | error e' => exact .inl ⟨e, e', rfl, rfl⟩
    | ok b => cases h
  | ok a =>
    cases y with
    | error e' => cases h
    | ok b => exact .inr ⟨a, b, rfl, rfl, Option.some.inj h⟩

/-- Results agree if their first parts do and whatever comes after them. -/
theorem bind {x : Except ε α} {y : Except ε' α} {k : α → Except ε β} {l : α → Except ε' β} (h : AgreeOn f x y)
    (hk : ∀ a b, f a = f b → AgreeOn g (k a) (l b)) : AgreeOn g (x >>= k) (y >>= l) := by
  rcases h.cases with ⟨e, e', rfl, rfl⟩ | ⟨a, b, rfl, rfl, hab⟩
  · rfl
  · exact hk a b hab

/-- Results agree after one and the same first part. -/
theorem after {x : Except ε α} {k l : α → Except ε β} (hk : ∀ a, AgreeOn g (k a) (l a)) :
    AgreeOn g (x >>= k) (x >>= l) := by
  cases x with
  | error e => rfl
  | ok a => exact hk a

/-- A last part that does not touch what matters may be left out. -/
theorem before {x : Except ε α} {y : Except ε' α} {k : α → α} (h : AgreeOn f x y) (hk : ∀ a, f (k a) = f a) :
    AgreeOn f (x >>= fun a => pure (k a)) y := by
  rcases h.cases with ⟨e, e', rfl, rfl⟩ | ⟨a, b, rfl, rfl, hab⟩
  · rfl
  · exact .ok ((hk a).trans hab)

theorem exists_of_ok {a : α} {y : Except ε' α} (h : AgreeOn f (.ok a : Except ε α) y) :
    ∃ b, y = .ok b ∧ f b = f a := by
  cases y with
  | error e => cases h
  | ok b => exact ⟨b, rfl, (Option.some.inj h).symm⟩

end AgreeOn

end TwinModule
