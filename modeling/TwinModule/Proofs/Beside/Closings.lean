import TwinModule.Proofs.Beside.Depth
/-!
A statement ends with the end of a line or of a block.
-/
set_option autoImplicit false

namespace TwinModule.Grammar
open Reader Token

namespace Reader

variable {α β : Type}

/-- What a reader takes away, as long as there is more. -/
structure Takes (p : Reader α) (P : List Token → Prop) : Prop where
  reads : ∀ {stop : Token} {m : List Token} {last : Place} {a : α} {j : Input}, stop.kind = .stop →
    p ⟨m ++ [stop], last⟩ = some (a, j) → ∃ front back, m = front ++ back ∧ j.tokens = back ++ [stop] ∧ P front

/-- A reader that ends with layout. -/
abbrev Closes (p : Reader α) : Prop := p.Takes IsClosed

/-- A reader that ends with layout or takes nothing. -/
abbrev MayClose (p : Reader α) : Prop := p.Takes fun ts => ts = [] ∨ IsClosed ts

/-- A reader that takes tokens from the start. -/
abbrev Advances (p : Reader α) : Prop := p.Takes fun _ => True

namespace Takes

variable {P Q W : List Token → Prop} {p q : Reader α} {f : α → Reader β}

theorem pure {a : α} (h : P []) : Takes (pure a) P := by
  refine ⟨fun {_ m _ _ _} _ hb => ?_⟩
  cases hb
  exact ⟨[], m, rfl, rfl, h⟩

/-- Looking takes nothing. -/
theorem still (h : ∀ {i : Input} {a : α} {j : Input}, p i = some (a, j) → j.tokens = i.tokens) (hP : P []) :
    p.Takes P :=
  ⟨fun {_ m _ _ _} _ hpa => ⟨[], m, rfl, h hpa, hP⟩⟩

theorem failure : Takes (failure : Reader α) P := by
  refine ⟨fun _ h => ?_⟩
  cases h

theorem bind (hp : p.Takes P) (hf : ∀ a, (f a).Takes Q) (hW : ∀ us vs, P us → Q vs → W (us ++ vs)) :
    (p >>= f).Takes W := by
  refine ⟨fun {stop m last b k} hstop h => ?_⟩
  obtain ⟨a, ⟨ts, last'⟩, hpa, hfb⟩ := Reader.bind_eq_some h
  obtain ⟨us, back, rfl, hts, hus⟩ := hp.reads hstop hpa
  obtain rfl : ts = back ++ [stop] := hts
  obtain ⟨vs, back, rfl, hk, hvs⟩ := (hf a).reads hstop hfb
  exact ⟨us ++ vs, back, (List.append_assoc ..).symm, hk, hW us vs hus hvs⟩

theorem imp (hp : p.Takes P) (h : ∀ us, P us → Q us) : p.Takes Q := by
  refine ⟨fun hstop hpa => ?_⟩
  obtain ⟨us, back, hm, hj, hus⟩ := hp.reads hstop hpa
  exact ⟨us, back, hm, hj, h us hus⟩

theorem orElse (hp : p.Takes P) (hq : q.Takes P) : (p <|> q).Takes P := by
  refine ⟨fun {stop m last a j} hstop h => ?_⟩
  cases hpa : p ⟨m ++ [stop], last⟩ with
  | none =>
    rw [orElse_of_none hpa] at h
    exact hq.reads hstop h
  | some r =>
    rw [orElse_of_some hpa] at h
    exact hp.reads hstop (hpa.trans h)

end Takes

namespace Closes

variable {p : Reader α} {f : α → Reader β}

theorem mayClose (h : Closes p) : MayClose p := h.imp fun _ h => .inr h

/-- What comes last closes. -/
theorem after (hp : Advances p) (hf : ∀ a, Closes (f a)) : Closes (p >>= f) := by
  refine hp.bind hf ?_
  rintro us _ - ⟨vs, n, rfl, hn⟩
  exact ⟨us ++ vs, n, (List.append_assoc ..).symm, hn⟩

theorem afterIf {c : Prop} [Decidable c] {q : Reader α} (hp : Advances p) (hq : Advances q) (hf : ∀ a, Closes (f a)) :
    Closes (if c then p >>= f else q >>= f) := by
  split
  · exact after hp hf
  · exact after hq hf

/-- What comes after it closes as well, or is nothing. -/
theorem bind (hp : Closes p) (hf : ∀ a, MayClose (f a)) : Closes (p >>= f) := by
  refine Takes.bind hp hf ?_
  rintro _ vs ⟨us, n, rfl, hn⟩ (rfl | ⟨vs, n', rfl, hn'⟩)
  · exact ⟨us, n, by simp, hn⟩
  · exact ⟨us ++ n :: vs, n', by simp, hn'⟩

theorem kind {k : Token.Kind} (hk : ∀ t : Token, t.kind = k → t.isLayout = true) (hstop : k ≠ .stop) :
    Closes (kind k) := by
  refine ⟨fun {stop m last a j} hkind h => ?_⟩
  cases m with
  | nil => simp [Reader.kind, take, hkind, hstop.symm] at h
  | cons t m =>
    simp only [List.cons_append, Reader.kind, take] at h
    split at h
    · rename_i ht
      cases h
      exact ⟨[_], m, rfl, rfl, [], _, rfl, hk _ (by simpa using ht)⟩
    · cases h

theorem newline : Closes (Reader.kind .newline) := kind (fun t h => by simp [isLayout, h]) (by decide)

theorem indent : Closes (Reader.kind .indent) := kind (fun t h => by simp [isLayout, h]) (by decide)

theorem dedent : Closes (Reader.kind .dedent) := kind (fun t h => by simp [isLayout, h]) (by decide)

end Closes

namespace MayClose

variable {p : Reader α} {f : α → Reader β}

theorem pure (a : α) : MayClose (pure a) := Takes.pure (.inl rfl)

theorem bind (hp : MayClose p) (hf : ∀ a, MayClose (f a)) : MayClose (p >>= f) := by
  refine Takes.bind hp hf ?_
  rintro us vs hus (rfl | ⟨vs, n, rfl, hn⟩)
  · simpa using hus
  · exact .inr ⟨us ++ vs, n, by simp, hn⟩

theorem maybe (hp : MayClose p) : MayClose (maybe p) := by
  refine Takes.orElse ?_ (pure none)
  rw [map_eq_pure_bind]
  exact bind hp fun a => pure _

theorem manyUpTo (hp : MayClose p) (n : Nat) : MayClose (manyUpTo p n) := by
  induction n with
  | zero => exact pure []
  | succ n ih =>
    refine hp.maybe.bind fun o => ?_
    cases o with
    | none => exact pure []
    | some a => exact ih.bind fun as => pure _

theorem many (hp : MayClose p) : MayClose (many p) :=
  bind (p := remaining) (.still (fun h => by cases h; rfl) (.inl rfl)) fun n => manyUpTo hp n

theorem ite {c : Prop} [Decidable c] {q : Reader α} (hp : MayClose p) (hq : MayClose q) :
    MayClose (if c then p else q) := by
  split
  · exact hp
  · exact hq

end MayClose

theorem Closes.many1 {p : Reader α} (hp : Closes p) : Closes (many1 p) :=
  hp.bind fun _ => (MayClose.many hp.mayClose).bind fun _ => .pure _

end Reader

variable {n : Nat}

section

variable {block : Reader (List Stmt)} (hb : Closes block)
include hb

end

end TwinModule.Grammar
