import TwinModule.Proofs.Token.Blocks
/-!
The tokens of some lines in the middle of a text: what the lines give by themselves.
-/
set_option autoImplicit false

namespace TwinModule.Token
open TwinModule.Grammar

/-- Whole lines. -/
def IsLines (cs : List Char) : Prop := cs = [] ∨ ∃ w, cs = w ++ ['\n']

theorem IsLines.append {cs ds : List Char} (hcs : IsLines cs) (hds : IsLines ds) : IsLines (cs ++ ds) := by
  rcases hds with rfl | ⟨w, rfl⟩
  · simpa using hcs
  · exact .inr ⟨cs ++ w, by simp⟩

theorem IsLines.eq_nil {cs : List Char} (h : IsLines cs) (hcount : cs.count '\n' = 0) : cs = [] := by
  rcases h with rfl | ⟨w, rfl⟩
  · rfl
  · simp at hcount

theorem IsLines.of_append {cs ds : List Char} (h : IsLines (cs ++ ds)) : IsLines ds := by
  rcases h with hnil | ⟨v, hv⟩
  · exact .inl (List.append_eq_nil_iff.1 hnil).2
  · by_cases hds : ds = []
    · exact .inl hds
    · obtain ⟨w, rfl, -⟩ := exists_of_append_singleton hv.symm hds
      exact .inr ⟨w, rfl⟩

/-- The lines that a text starts with are known by their number. -/
theorem IsLines.inj {cs ds xs ys : List Char} (hcs : IsLines cs) (hds : IsLines ds) (h : cs ++ xs = ds ++ ys)
    (hcount : cs.count '\n' = ds.count '\n') : cs = ds ∧ xs = ys := by
  rcases List.append_eq_append_iff.1 h with ⟨w, rfl, rfl⟩ | ⟨w, rfl, rfl⟩
  · obtain rfl := hds.of_append.eq_nil (by simpa using hcount.symm)
    simp
  · obtain rfl := hcs.of_append.eq_nil (by simpa using hcount)
    simp

theorem Steps.weightOf_le {s t : Spot} {ts : List Token} (h : Steps s ts t) :
    weightOf (textOf ts) + t.rest.length ≤ s.rest.length := by
  induction h with
  | refl _ => simp
  | head hstep _ ih =>
    have := hstep.weightOf_le
    simp only [textOf_append, weightOf_append]
    omega

/-- A line starts in the first column. -/
theorem Step.column {s t : Spot} {e : List Token} (h : Step s e t) (hfresh : t.fresh = true) :
    t.ctx.place.column = 0 := by
  cases h <;> first | rfl | cases hfresh

theorem Steps.column {s t : Spot} {ts : List Token} (h : Steps s ts t) (hs : s.fresh = true → s.ctx.place.column = 0)
    (hfresh : t.fresh = true) : t.ctx.place.column = 0 := by
  induction h with
  | refl _ => exact hs hfresh
  | head hstep _ ih => exact ih hstep.column hfresh

/-- Where some lines in the middle of a text start: with their first token, or with the token after a sign. -/
inductive StartsOn (line : Nat) : List Token → Prop
  | first {t : Token} {us : List Token} : t.start.line = line → StartsOn line (t :: us)
  | second {t t' : Token} {us : List Token} : t.is "@" = true → t'.isLayout = false → t'.start.line = line →
    StartsOn line (t :: t' :: us)

theorem Steps.exists_append {s t : Spot} {ts : List Token} (h : Steps s ts t) (hend : '\n' ∈ t.rest) :
    ∃ w, s.rest = w ++ t.rest ∧ t.ctx.place = s.ctx.place.after w := by
  obtain ⟨x, y, hxy, -⟩ := List.eq_append_cons_of_mem hend
  obtain ⟨w, hw, hplace, -⟩ := h.line_local hxy
  exact ⟨w, hxy ▸ hw, hplace⟩

end TwinModule.Token
