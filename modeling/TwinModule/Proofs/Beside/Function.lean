import TwinModule.Proofs.Beside.Closings
import TwinModule.Proofs.Grammar.Bare
import TwinModule.Proofs.Paired.Trimmed
/-!
A function at the margin is read from its own tokens alone, with its decorators: what comes after it is not looked at.
-/
set_option autoImplicit false

namespace TwinModule.Grammar
open Reader Token

/-- Token lists that start alike up to some layout, and what comes after them. -/
def Ended (vs vs' us ts ts' : List Token) : Prop :=
  ∃ m m', Nest 0 us m m' ∧ IsClosed m ∧ ts = m ++ vs ∧ ts' = m' ++ vs'

namespace Ended

variable {vs vs' us ts ts' : List Token}

theorem heads (hts : Ended vs vs' us ts ts') : Heads (Ended vs vs') us ts ts' := by
  obtain ⟨m, m', hm, hclosed, rfl, rfl⟩ := hts
  cases hm with
  | nil => exact absurd rfl hclosed.ne_nil
  | text ht hm => exact .text ht ⟨_, _, hm, hclosed.tail ht, rfl, rfl⟩
  | newline ht hkind htext _ => exact .layout (by simp [Token.isLayout, ht]) hkind htext
  | indent ht hkind htext _ => exact .layout (by simp [Token.isLayout, ht]) hkind htext

theorem length_lt (hts : Ended vs vs' us ts ts') : us.length < ts.length ∧ us.length < ts'.length := by
  obtain ⟨m, m', hm, hclosed, rfl, rfl⟩ := hts
  have hlt : us.length < m.length := by
    obtain ⟨front, n, rfl, hn⟩ := hclosed
    exact hm.length_lt_of_mem (by simp) hn
  have heq := hm.length_eq
  simp only [List.length_append]
  omega

end Ended

/-- In tokens that end with layout, whatever comes after them. -/
def Frame.closed (vs vs' : List Token) : Frame where
  rel := Ended vs vs'
  heads hts := hts.heads
  length_lt hts := hts.length_lt

variable {α β : Type} {vs vs' : List Token} {S : Stretches}

/-- What one reader reads up to the end, the other reads as well. -/
structure Finishes (vs vs' : List Token) (S : Stretches) (p p' : Reader α) : Prop where
  reads : ∀ {us m m' : List Token} {last last' : Place} {a : α}, S.mem us → Nest 0 us m m' → IsClosed m →
    p ⟨m ++ vs, last⟩ = some (a, ⟨vs, last'⟩) → p' ⟨m' ++ vs', last⟩ = some (a, ⟨vs', last'⟩)

namespace Finishes

variable {p p' : Reader α} {f f' : α → Reader β}

theorem bind (hp : Agree (.closed vs vs') S p p') (hf : ∀ a, Finishes vs vs' S (f a) (f' a)) :
    Finishes vs vs' S (p >>= f) (p' >>= f') := by
  refine ⟨fun {us m m' last last' b} hus hm hclosed h => ?_⟩
  obtain ⟨a, i, hpa, hfb⟩ := Reader.bind_eq_some h
  have hboth := hp.reads last hus ⟨m, m', hm, hclosed, rfl, rfl⟩
  generalize hx : p' ⟨m' ++ vs', last⟩ = x at hboth
  rw [hpa] at hboth
  cases hboth with
  | read hleft hrel =>
    obtain ⟨m, m', hm, hclosed, rfl, rfl⟩ := hrel
    rw [bind_of_some hx]
    exact (hf a).reads (Stretches.of_suffix hus hleft.suffix) hm hclosed hfb

theorem ite {c : Prop} [Decidable c] {q q' : Reader α} (hp : c → Finishes vs vs' S p p')
    (hq : ¬c → Finishes vs vs' S q q') : Finishes vs vs' S (if c then p else q) (if c then p' else q') := by
  by_cases h : c
  · rw [if_pos h, if_pos h]
    exact hp h
  · rw [if_neg h, if_neg h]
    exact hq h

/-- After a token of layout, which may be the last one. -/
theorem exists_shift {k : Token.Kind} {d e : Nat} (hs : Shift k d e) {p : Reader α} (p' : Reader α) {us m m' : List Token}
    {last : Place} {a : α} {j : Input} (hm : Nest d us m m') (hne : m ≠ [])
    (h : (do let _ ← kind k; p : Reader α) ⟨m ++ vs, last⟩ = some (a, j)) :
    ∃ m₁ m₁', Nest e us m₁ m₁' ∧ p ⟨m₁ ++ vs, last⟩ = some (a, j) ∧
      (do let _ ← kind k; p' : Reader α) ⟨m' ++ vs', last⟩ = p' ⟨m₁' ++ vs', last⟩ := by
  rcases m with _ | ⟨t, m⟩
  · exact absurd rfl hne
  rcases m' with _ | ⟨t', m'⟩
  · cases hm.length_eq
  have ht : t.kind = k := by
    by_contra ht
    rw [List.cons_append, kind_bind_of_ne ht] at h
    cases h
  have ht' := hm.kind_eq.trans ht
  rw [List.cons_append, kind_bind_of_eq ht (hs.isLayout ht)] at h
  refine ⟨m, m', hm.tail hs ht, h, ?_⟩
  rw [List.cons_append, kind_bind_of_eq ht' (hs.isLayout ht')]

theorem pure_of_end {us m m' : List Token} {last last' : Place} {a b : α} (hm : Nest 0 us m m')
    (h : (pure a : Reader α) ⟨m ++ vs, last⟩ = some (b, ⟨vs, last'⟩)) :
    (pure a : Reader α) ⟨m' ++ vs', last⟩ = some (b, ⟨vs', last'⟩) := by
  obtain ⟨rfl, hrest, rfl⟩ : a = b ∧ m ++ vs = vs ∧ last = last' := by
    have heq := Option.some.inj h
    simpa only [Prod.mk.injEq, Input.mk.injEq] using heq
  obtain rfl : m = [] := by simpa using hrest
  obtain rfl := List.length_eq_zero_iff.1 hm.length_eq
  rfl

/-- The end of a line is the end of all. -/
theorem newline (a : α) : Finishes vs vs' S (do let _ ← kind .newline; pure a) (do let _ ← kind .newline; pure a) := by
  refine ⟨fun {us m m' last last' b} _ hm hclosed h => ?_⟩
  obtain ⟨m, m', hm, h, hread⟩ := exists_shift (.newline 0) (pure a) hm hclosed.ne_nil h
  exact hread.trans (pure_of_end hm h)

theorem map (g : α → β) (hp : Finishes vs vs' S p p') :
    Finishes vs vs' S (do return g (← p)) (do return g (← p')) := by
  refine ⟨fun {us m m' last last' b} hus hm hclosed h => ?_⟩
  obtain ⟨a, i, hpa, hb⟩ := Reader.bind_eq_some h
  cases hb
  rw [bind_of_some (hp.reads hus hm hclosed hpa)]
  rfl

/-- A count of the tokens that are left is larger than any stretch. -/
theorem remaining {f f' : Nat → Reader β} (hf : ∀ n n', Finishes vs vs' (S.within n n') (f n) (f' n')) :
    Finishes vs vs' S (remaining >>= f) (remaining >>= f') := by
  refine ⟨fun {us m m' last last' b} hus hm hclosed h => ?_⟩
  have hlength := (Frame.closed vs vs').length_lt ⟨m, m', hm, hclosed, rfl, rfl⟩
  exact (hf _ _).reads ⟨hus, hlength⟩ hm hclosed h

end Finishes

variable {r r' : Rules} {back : List Token} {stop : Token}

section

variable (r) (block : Reader (List Stmt))

end

/-- What one reader reads up to the end is read by the other as well if there is a function in it. -/
structure FinishesFunction (vs vs' : List Token) (S : Stretches) (p p' : Reader (List Stmt)) : Prop where
  reads : ∀ {us m m' : List Token} {last last' : Place} {ss : List Stmt}, S.mem us → Nest 0 us m m' → IsClosed m →
    p ⟨m ++ vs, last⟩ = some (ss, ⟨vs, last'⟩) → (∃ s ∈ ss, s.isFunction = true) →
    p' ⟨m' ++ vs', last⟩ = some (ss, ⟨vs', last'⟩)

namespace FinishesFunction

variable {p p' : Reader (List Stmt)}

theorem ite {c : Prop} [Decidable c] {q q' : Reader (List Stmt)} (hp : FinishesFunction vs vs' S p p')
    (hq : FinishesFunction vs vs' S q q') : FinishesFunction vs vs' S (if c then p else q) (if c then p' else q') := by
  split
  · exact hp
  · exact hq

end FinishesFunction

end TwinModule.Grammar
