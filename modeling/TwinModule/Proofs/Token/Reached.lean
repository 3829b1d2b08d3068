import Mathlib.Data.List.TakeWhile
import TwinModule.Proofs.Token.Steps
/-!
Steps of the reading of tokens and the text that they take: where they end, and that later lines do not matter to them.
What is reached by them: the start of a line, a token in it, its end.
-/
set_option autoImplicit false

namespace TwinModule

theorem Place.line_after (p : Place) (cs : List Char) : (p.after cs).line = p.line + cs.count '\n' := by
  induction cs generalizing p with
  | nil => rfl
  | cons c cs ih =>
    have hstep : (p.step c).line = p.line + if c = '\n' then 1 else 0 := by
      unfold Place.step
      split <;> rfl
    have hafter := ih (p.step c)
    simp only [Place.after, List.foldl_cons, List.count_cons, beq_iff_eq] at hafter ⊢
    omega

/-- After the end of a line comes the start of the next one. -/
theorem Place.after_newline (p : Place) {u : List Char} (hu : '\n' ∉ u) : p.after (u ++ ['\n']) = ⟨p.line + 1, 0⟩ := by
  have hline := p.line_after u
  rw [List.count_eq_zero.2 hu] at hline
  rw [Place.after_append]
  simp [Place.after, Place.step] at hline ⊢
  exact hline

namespace Token
open TwinModule.Text TwinModule.Lexeme

/-- A line with something on it that is no blank. -/
theorem measure_cons {c : Char} (hc : c ∉ [' ', '\t', '\x0c', '\\']) (place : Place) (col alt joined : Nat)
    (cs : List Char) : measure place col alt joined (c :: cs) =
      some (place, if joined = 0 then col else joined, if joined = 0 then alt else joined, c :: cs) := by
  simp only [List.mem_cons, List.not_mem_nil, or_false, not_or] at hc
  rw [measure] <;> simp_all

theorem measure_line {place place' : Place} {col alt joined col' alt' : Nat} {cs x y : List Char}
    (h : measure place col alt joined cs = some (place', col', alt', x ++ '\n' :: y)) :
    ∃ w, cs = w ++ (x ++ '\n' :: y) ∧ place' = place.after w ∧
      ∀ y', measure place col alt joined (w ++ (x ++ '\n' :: y')) = some (place', col', alt', x ++ '\n' :: y') := by
  fun_induction measure place col alt joined cs with
  | case1 place col alt joined cs ih =>
    obtain ⟨w, rfl, hplace, hall⟩ := ih h
    exact ⟨' ' :: w, rfl, hplace, fun y' => by simpa [measure] using hall y'⟩
  | case2 place col alt joined cs ih =>
    obtain ⟨w, rfl, hplace, hall⟩ := ih h
    exact ⟨'\t' :: w, rfl, hplace, fun y' => by simpa [measure] using hall y'⟩
  | case3 place col alt joined cs ih =>
    obtain ⟨w, rfl, hplace, hall⟩ := ih h
    exact ⟨'\x0c' :: w, rfl, hplace, fun y' => by simpa [measure] using hall y'⟩
  | case4 => cases h
  | case5 place col alt joined cs hcs ih =>
    obtain ⟨w, rfl, hplace, hall⟩ := ih h
    exact ⟨'\\' :: '\n' :: w, rfl, hplace, fun y' => by simpa [measure] using hall y'⟩
  | case6 => cases h
  | case7 place col alt joined cs h₁ h₂ h₃ h₄ h₅ =>
    cases h
    refine ⟨[], rfl, rfl, fun y' => ?_⟩
    cases x with
    | nil => exact measure_cons (by decide) ..
    | cons c x => exact measure_cons (by simp_all) ..

theorem afterComment_eq_nil {cs : List Char} (h : '\n' ∉ cs) : afterComment cs = [] := by
  refine List.dropWhile_eq_nil_iff.2 fun c hc => ?_
  simpa using fun heq : c = '\n' => h (heq ▸ hc)

theorem afterComment_append {u : List Char} (hu : '\n' ∉ u) (v : List Char) :
    afterComment (u ++ '\n' :: v) = '\n' :: v := by
  rw [afterComment, dropWhile_line (by decide), ← afterComment, afterComment_eq_nil hu, List.nil_append]

theorem takeWhile_comment {u : List Char} (hu : '\n' ∉ u) (v : List Char) :
    (u ++ '\n' :: v).takeWhile (· != '\n') = u := by
  rw [takeWhile_line (by decide)]
  refine List.takeWhile_eq_self_iff.2 fun c hc => ?_
  simpa using fun heq : c = '\n' => hu (heq ▸ hc)

theorem exists_line_end {cs : List Char} (h : afterComment cs ≠ []) : ∃ u v, cs = u ++ '\n' :: v ∧ '\n' ∉ u :=
  List.eq_append_cons_of_mem (Decidable.byContradiction fun hmem => h (afterComment_eq_nil hmem))

theorem cons_eq_line {c : Char} {rest x y : List Char} (h : c :: rest = x ++ '\n' :: y) (hc : c ≠ '\n') :
    ∃ x', x = c :: x' ∧ rest = x' ++ '\n' :: y := by
  cases x with
  | nil => exact absurd (List.cons.inj h).1 hc
  | cons c' x =>
    obtain ⟨rfl, rfl⟩ := List.cons.inj h
    exact ⟨x, rfl, rfl⟩

/-- What a step takes ends where the next one starts, and what is on later lines does not matter to it. -/
theorem Step.line_local {s t : Spot} {e : List Token} {x y : List Char} (h : Step s e t) (ht : t.rest = x ++ '\n' :: y) :
    ∃ w, s.rest = w ++ (x ++ '\n' :: y) ∧ t.ctx.place = s.ctx.place.after w ∧
      ∀ y', Step ⟨s.ctx, s.fresh, w ++ (x ++ '\n' :: y')⟩ e ⟨t.ctx, t.fresh, x ++ '\n' :: y'⟩ := by
  cases h with
  | @emptyLine _ place _ _ _ _ hm =>
    obtain rfl : _ = _ := ht
    obtain ⟨w, rfl, rfl, hall⟩ := measure_line (x := '\n' :: x) hm
    exact ⟨w ++ ['\n'], by simp, by simp [Place.after], fun y' => by simpa using .emptyLine (hall y')⟩
  | @commentLine ctx place col alt _ rest hm =>
    have hrest : afterComment rest ≠ [] := by
      intro hnil
      simp [hnil] at ht
    obtain ⟨u, v, rfl, hu⟩ := exists_line_end hrest
    simp only [afterComment_append hu, List.drop_succ_cons, List.drop_zero] at ht
    subst ht
    obtain ⟨w, rfl, rfl, hall⟩ := measure_line (x := '#' :: u ++ '\n' :: x) (by simpa using hm)
    have hcomment : '\n' ∉ '#' :: u := by simpa using hu
    refine ⟨w ++ ('#' :: u ++ ['\n']), by simp, ?_, fun y' => ?_⟩
    · exact ((Place.after_append ..).trans (Place.after_newline _ hcomment)).symm
    · have hline : measure ctx.place 0 0 0 (w ++ ('#' :: u ++ '\n' :: (x ++ '\n' :: y'))) =
          some (ctx.place.after w, col, alt, '#' :: (u ++ '\n' :: (x ++ '\n' :: y'))) := by simpa using hall y'
      simpa [afterComment_append hu] using Step.commentLine hline
  | line hm hn hc hb hlayout =>
    obtain ⟨x, rfl, rfl⟩ := cons_eq_line ht hn
    obtain ⟨w, hcs, hplace, hall⟩ := measure_line (x := _ :: x) (y := y) hm
    exact ⟨w, hcs, hplace, fun y' => .line (hall y') hn hc hb hlayout⟩
  | inside hm hn hc hb =>
    obtain ⟨x, rfl, rfl⟩ := cons_eq_line ht hn
    obtain ⟨w, hcs, hplace, hall⟩ := measure_line (x := _ :: x) (y := y) hm
    exact ⟨w, hcs, hplace, fun y' => .inside (hall y') hn hc hb⟩
  | blank hblank =>
    obtain rfl : _ = _ := ht
    exact ⟨[_], rfl, rfl, fun y' => .blank hblank⟩
  | newline hb =>
    obtain rfl : _ = _ := ht
    exact ⟨['\n'], rfl, rfl, fun y' => .newline hb⟩
  | lineEnd hb =>
    obtain rfl : _ = _ := ht
    exact ⟨['\n'], rfl, rfl, fun y' => .lineEnd hb⟩
  | @comment ctx cs =>
    have hrest : afterComment cs ≠ [] := by
      intro hnil
      simp [hnil] at ht
    obtain ⟨u, v, rfl, hu⟩ := exists_line_end hrest
    simp only [afterComment_append hu] at ht
    refine ⟨'#' :: u, by simp [ht], by rw [takeWhile_comment hu], fun y' => ?_⟩
    obtain ⟨z, hz⟩ : ∃ z, x ++ '\n' :: y' = '\n' :: z := by
      cases x with
      | nil => exact ⟨y', rfl⟩
      | cons c x => exact ⟨x ++ '\n' :: y', congrArg (· :: (x ++ '\n' :: y')) (List.cons.inj ht).1.symm⟩
    rw [hz]
    have hstep := @Step.comment ctx (u ++ '\n' :: z)
    simpa [afterComment_append hu, takeWhile_comment hu] using hstep
  | @joined _ d cs =>
    refine ⟨['\\', '\n'], by simp [← ht], rfl, fun y' => ?_⟩
    cases x with
    | nil => exact .joined
    | cons c x => exact .joined
  | @token ctx c cs _ n _ hc hsize hbrackets =>
    obtain ⟨w, hw, rfl⟩ : ∃ w, w.length = n ∧ cs = w ++ (x ++ '\n' :: y) := by
      have hlength := congrArg List.length ht
      simp only [List.length_drop, List.length_append, List.length_cons] at hlength
      exact ⟨cs.take n, by simp; omega, by rw [← ht, List.take_append_drop]⟩
    subst hw
    have hsize' : ∀ y', lexemeSize? c (w ++ (x ++ '\n' :: y')) = some (_, w.length) := fun y' => by
      rw [← List.append_assoc]
      refine lexemeSize?_line (v := y) ?_ ?_ y'
      · rw [List.append_assoc]
        exact hsize
      · simp
    simp only [List.take_left] at hbrackets ⊢
    refine ⟨c :: w, rfl, rfl, fun y' => ?_⟩
    have hstep : Step ⟨ctx, false, c :: (w ++ (x ++ '\n' :: y'))⟩ _ _ :=
      .token hc (hsize' y') (by simpa only [List.take_left] using hbrackets)
    simpa only [List.take_left, List.drop_left, List.cons_append] using hstep

/-- Steps one after the other. -/
inductive Steps : Spot → List Token → Spot → Prop
  | refl (s : Spot) : Steps s [] s
  | head {s t u : Spot} {e ts : List Token} : Step s e t → Steps t ts u → Steps s (e ++ ts) u

namespace Steps

variable {s t u : Spot} {ts us : List Token}

theorem single {e : List Token} (h : Step s e t) : Steps s e t := by
  simpa using Steps.head h (.refl t)

theorem trans (h : Steps s ts t) (h' : Steps t us u) : Steps s (ts ++ us) u := by
  induction h with
  | refl _ => exact h'
  | head hstep _ ih => simpa using Steps.head hstep (ih h')

/-- What steps take ends where the next one starts, and what is on later lines does not matter to them. -/
theorem line_local {x y : List Char} (h : Steps s ts t) (ht : t.rest = x ++ '\n' :: y) :
    ∃ w, s.rest = w ++ (x ++ '\n' :: y) ∧ t.ctx.place = s.ctx.place.after w ∧
      ∀ y', Steps ⟨s.ctx, s.fresh, w ++ (x ++ '\n' :: y')⟩ ts ⟨t.ctx, t.fresh, x ++ '\n' :: y'⟩ := by
  induction h with
  | refl s => exact ⟨[], ht, rfl, fun y' => .refl _⟩
  | head hstep _ ih =>
    obtain ⟨v, hv, hplace, hall⟩ := ih ht
    obtain ⟨w, hw, hplace', hall'⟩ := hstep.line_local (x := v ++ x) (by rw [hv, List.append_assoc])
    refine ⟨w ++ v, by simpa using hw, ?_, fun y' => ?_⟩
    · rw [hplace, hplace', Place.after_append]
    · have hfirst := hall' y'
      simp only [List.append_assoc] at hfirst ⊢
      exact .head hfirst (hall y')

end Steps

/-- Whether a line starts after some tokens that are read from a place on. -/
def AtLine (s : Spot) (ts : List Token) : Prop :=
  (ts = [] ∧ s.fresh = true ∧ s.ctx.brackets = []) ∨ ∃ us n, ts = us ++ [n] ∧ n.isLayout = true

theorem AtLine.tail {s s' : Spot} {e ts : List Token} (h : AtLine s (e ++ ts)) (hts : ts ≠ []) : AtLine s' ts := by
  obtain ⟨hnil, -⟩ | ⟨us, n, heq, hn⟩ := h
  · exact absurd (List.append_eq_nil_iff.1 hnil).2 hts
  · obtain ⟨vs, rfl, -⟩ := exists_of_append_singleton heq.symm hts
    exact .inr ⟨vs, n, rfl, hn⟩

theorem AtLine.nil {s : Spot} (h : AtLine s []) : s.fresh = true ∧ s.ctx.brackets = [] := by
  obtain ⟨-, h⟩ | ⟨us, n, heq, -⟩ := h
  · exact h
  · simp at heq

theorem AtLine.isLayout {s : Spot} {t : Token} (h : AtLine s [t]) : t.isLayout = true := by
  obtain ⟨hnil, -⟩ | ⟨us, n, heq, hn⟩ := h
  · cases hnil
  · have heq : [] ++ [t] = us ++ [n] := heq
    obtain ⟨-, htn⟩ := List.append_inj' heq rfl
    rw [List.singleton_inj.1 htn]
    exact hn

end Token

end TwinModule
