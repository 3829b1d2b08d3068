import TwinModule.Proofs.Beside.Layout
import TwinModule.Proofs.Token.Reached
/-!
The blocks in the tokens of a text: what is read from a place on closes the blocks that are open there.
-/
set_option autoImplicit false

namespace TwinModule.Grammar.Nest
open TwinModule.Token

variable {d e : Nat} {us ws m m' m'' front back : List Token}

end TwinModule.Grammar.Nest

namespace TwinModule.Token
open TwinModule.Grammar

/-- The innermost indentation comes first, and all are in a block that is not indented. -/
def Rooted (indents : List (Nat × Nat)) : Prop :=
  ∃ above, indents = above ++ [(0, 0)] ∧ ∀ i ∈ above, 0 < i.1

theorem Rooted.start : Rooted Context.start.indents := ⟨[], rfl, by simp⟩

theorem Rooted.suffix {indents left : List (Nat × Nat)} (h : Rooted indents) (hs : left <:+ indents) (hne : left ≠ []) :
    Rooted left := by
  obtain ⟨above, rfl, habove⟩ := h
  obtain ⟨closed, hclosed⟩ := hs
  obtain ⟨left, rfl, rfl⟩ := exists_of_append_singleton hclosed.symm hne
  exact ⟨left, rfl, fun i hi => habove i (List.mem_append_right _ hi)⟩

/-- At the margin no block is open. -/
theorem Rooted.eq_of_margin {alt : Nat} {rest : List (Nat × Nat)} (h : Rooted ((0, alt) :: rest)) :
    (0, alt) :: rest = [(0, 0)] := by
  obtain ⟨_ | ⟨i, above⟩, heq, habove⟩ := h
  · exact heq
  · obtain ⟨rfl, -⟩ := List.cons.inj heq
    exact absurd (habove _ (List.mem_cons_self ..)) (Nat.lt_irrefl 0)

/-- Some indentations are closed, and as many are counted. -/
theorem exists_of_dedent {col n : Nat} {indents left : List (Nat × Nat)} (h : dedent col indents = (n, left)) :
    ∃ closed, indents = closed ++ left ∧ closed.length = n := by
  induction indents generalizing n with
  | nil =>
    cases h
    exact ⟨[], rfl, rfl⟩
  | cons i rest ih =>
    obtain ⟨c, a⟩ := i
    simp only [dedent] at h
    split at h
    · obtain ⟨closed, hclosed, hlength⟩ := ih (n := (dedent col rest).1) (by rw [← (Prod.mk.inj h).2])
      obtain ⟨rfl, rfl⟩ := Prod.mk.inj h
      exact ⟨(c, a) :: closed, congrArg _ hclosed, by simp [hlength]⟩
    · cases h
      exact ⟨[], rfl, rfl⟩

theorem nest_replicate {place : Place} {d n : Nat} {us m m' : List Token} (h : Nest d us m m') :
    Nest (d + n) us (List.replicate n ⟨.dedent, "", place, place⟩ ++ m)
      (List.replicate n ⟨.dedent, "", place, place⟩ ++ m') := by
  induction n with
  | zero => exact h
  | succ n ih => exact .dedent rfl rfl rfl ih

/-- The start of a line opens a block or closes some. -/
theorem rooted_of_layout {place : Place} {col alt : Nat} {indents indents' : List (Nat × Nat)} {toks : List Token}
    (h : layout place col alt indents = some (toks, indents')) (hroot : Rooted indents) :
    Rooted indents' ∧ (col = 0 → indents' = [(0, 0)]) ∧ ∀ {us m m' : List Token}, Nest (indents'.length - 1) us m m' →
      Nest (indents.length - 1) us (toks ++ m) (toks ++ m') := by
  rcases indents with _ | ⟨⟨c, a⟩, rest⟩
  · cases h
  simp only [layout] at h
  split at h
  · split at h
    · cases h
      refine ⟨hroot, ?_, fun h => h⟩
      rintro rfl
      subst_vars
      exact hroot.eq_of_margin
    · cases h
  · split at h
    · split at h
      · cases h
      · cases h
        refine ⟨?_, ?_, ?_⟩
        · obtain ⟨above, heq, habove⟩ := hroot
          refine ⟨(col, alt) :: above, by rw [heq]; rfl, fun i hi => ?_⟩
          rcases List.mem_cons.1 hi with rfl | hi
          · simp
            omega
          · exact habove i hi
        · omega
        · intro us m m' hm
          exact .indent rfl rfl rfl hm
    · cases hd : dedent col ((c, a) :: rest) with
      | mk n left =>
        obtain ⟨closed, hclosed, rfl⟩ := exists_of_dedent hd
        rw [hd] at h
        rcases left with _ | ⟨⟨c', a'⟩, left⟩
        · cases h
        · have hleft : Rooted ((c', a') :: left) := hroot.suffix ⟨closed, hclosed.symm⟩ (by simp)
          simp only at h
          split at h
          · rename_i hsame
            cases h
            simp only [Bool.and_eq_true, decide_eq_true_eq] at hsame
            refine ⟨hleft, ?_, fun {us m m'} hm => ?_⟩
            · rintro rfl
              obtain ⟨rfl, -⟩ := hsame
              exact hleft.eq_of_margin
            · have hlength : ((c, a) :: rest).length - 1 = left.length + closed.length := by
                rw [hclosed]
                simp
                omega
              rw [hlength]
              exact nest_replicate hm
          · cases h

/-- Blocks are opened and closed at the start of a line only. -/
theorem Step.rooted {s t : Spot} {e : List Token} (h : Step s e t) (hroot : Rooted s.ctx.indents) :
    Rooted t.ctx.indents := by
  cases h with
  | line _ _ _ _ hlayout => exact (rooted_of_layout hlayout hroot).1
  | _ => exact hroot

theorem Steps.rooted {s t : Spot} {ts : List Token} (h : Steps s ts t) (hroot : Rooted s.ctx.indents) :
    Rooted t.ctx.indents := by
  induction h with
  | refl _ => exact hroot
  | head hstep _ ih => exact ih (hstep.rooted hroot)

/-- The blocks that are open before a step are those that it opens and closes and those that are open after it. -/
theorem Step.nest {s t : Spot} {e us m m' : List Token} (h : Step s e t) (hroot : Rooted s.ctx.indents)
    (hm : Nest (t.ctx.indents.length - 1) us m m') :
    Nest (s.ctx.indents.length - 1) (textOf e ++ us) (e ++ m) (e ++ m') := by
  cases h with
  | line _ _ _ _ hlayout =>
    rw [textOf_of_layout (isLayout_of_layout hlayout)]
    exact (rooted_of_layout hlayout hroot).2.2 hm
  | newline _ => exact .newline rfl rfl rfl hm
  | token _ hsize _ =>
    rw [textOf_of_text (by simpa using isLayout_of_lexemeSize? hsize rfl)]
    exact .text (isLayout_of_lexemeSize? hsize rfl) hm
  | _ => exact hm

theorem Steps.nest {s t : Spot} {ts us m m' : List Token} (h : Steps s ts t) (hroot : Rooted s.ctx.indents)
    (hm : Nest (t.ctx.indents.length - 1) us m m') :
    Nest (s.ctx.indents.length - 1) (textOf ts ++ us) (ts ++ m) (ts ++ m') := by
  induction h with
  | refl _ => exact hm
  | head hstep _ ih => simpa using hstep.nest hroot (ih (hstep.rooted hroot) hm)

/-- What is read closes the blocks that are open. -/
theorem Yields.nest {s : Spot} {ts : List Token} (h : Yields s ts) (hroot : Rooted s.ctx.indents) :
    ∃ m stop us, ts = m ++ [stop] ∧ stop.kind = .stop ∧ Nest (s.ctx.indents.length - 1) us m m := by
  induction h with
  | ends _ _ hlayout =>
    obtain ⟨-, hmargin, hnest⟩ := rooted_of_layout hlayout hroot
    refine ⟨_, _, [], rfl, rfl, ?_⟩
    have hclosed := hnest (show Nest _ [] [] [] by rw [hmargin rfl]; exact .nil)
    rwa [List.append_nil] at hclosed
  | step hstep _ ih =>
    obtain ⟨m, stop, us, rfl, hkind, hm⟩ := ih (hstep.rooted hroot)
    exact ⟨_, stop, _, (List.append_assoc ..).symm, hkind, hstep.nest hroot hm⟩

end TwinModule.Token
