import TwinModule.Comments.Scan
import TwinModule.Proofs.Comments.Placement
/-!
Where the comments of a text are: each on the line that it is numbered with.
-/
set_option autoImplicit false

namespace TwinModule

namespace Lexeme

theorem suffix_of_closeLine {q : Char} {cs rest : List Char} (h : closeLine q cs = some rest) : rest <:+ cs := by
  fun_induction closeLine q cs with
  | case1 => cases h
  | case2 c cs ih => exact ((ih h).trans (List.suffix_cons ..)).trans (List.suffix_cons ..)
  | case3 cs =>
    cases h
    exact List.suffix_cons ..
  | case4 => cases h
  | case5 c cs _ _ _ ih => exact (ih h).trans (List.suffix_cons ..)

theorem suffix_of_closeBlock {q : Char} {cs rest : List Char} (h : closeBlock q cs = some rest) : rest <:+ cs := by
  fun_induction closeBlock q cs with
  | case1 => cases h
  | case2 c cs ih => exact ((ih h).trans (List.suffix_cons ..)).trans (List.suffix_cons ..)
  | case3 c cs =>
    cases h
    exact (List.drop_suffix 2 cs).trans (List.suffix_cons ..)
  | case4 c cs _ _ ih => exact (ih h).trans (List.suffix_cons ..)

end Lexeme

namespace Comments
open TwinModule.Text TwinModule.Lexeme

theorem isInfix_commentText (cs : List Char) : commentText cs <:+: cs := (List.takeWhile_prefix _).isInfix

theorem infix_of_scanFrom {brackets : Int} {column skip at_ : Nat} {cs text : List Char}
    (h : (scanFrom brackets column skip cs).comment = some (at_, text)) : text <:+: cs := by
  fun_induction scanFrom brackets column skip cs
  case case1 | case4 | case6 => cases h
  case case3 =>
    cases h
    exact isInfix_commentText _
  case case2 ih | case5 ih | case7 ih | case8 ih | case9 ih | case10 ih =>
    exact (ih h).trans (List.suffix_cons ..).isInfix

theorem suffix_leading (width count : Nat) (cs : List Char) : (leading width count cs).2.2 <:+ cs := by
  fun_induction leading width count cs with
  | case1 _ _ _ ih => exact ih.trans (List.suffix_cons ..)
  | case2 _ _ _ ih => exact ih.trans (List.suffix_cons ..)
  | case3 _ _ _ ih => exact ih.trans (List.suffix_cons ..)
  | case4 => exact List.suffix_refl _

/-- A comment is on a line: it has the number of the line, and its text is in it. -/
def IsOn (number : Nat) (line : List Char) (c : Comment) : Prop :=
  c.span.line = some number ∧ c.text.toList <:+: line

variable {s next : ScanState} {number : Nat} {line rest : List Char} {found : List Comment}

theorem isOn_commentAt {column : Nat} {text : List Char} (h : text <:+: line) :
    IsOn number line (commentAt number line column text) :=
  ⟨rfl, by simpa [commentAt] using h⟩

theorem isOn_finishLine (h : rest <:+ line) : ∀ c ∈ (finishLine s number line rest).1, IsOn number line c := by
  intro c hc
  simp only [finishLine, Option.mem_toList, Option.map_eq_some_iff] at hc
  obtain ⟨⟨at_, text⟩, hcomment, rfl⟩ := hc
  exact isOn_commentAt ((infix_of_scanFrom hcomment).trans h.isInfix)

theorem isOn_scanLine (h : scanLine s number line = .ok (some (found, next))) : ∀ c ∈ found, IsOn number line c := by
  simp only [scanLine] at h
  split at h
  · split at h
    · rename_i rest hclose
      cases h
      refine isOn_finishLine ?_
      split at hclose
      · exact suffix_of_closeBlock hclose
      · exact suffix_of_closeLine hclose
    · cases h
      simp
  · split at h
    · have hleading : (leading 0 0 line).2.2 <:+ line := suffix_leading 0 0 line
      split at h
      · cases h
      · rename_i c cs hrest
        rw [hrest] at hleading
        split at h
        · cases h
          refine List.forall_mem_singleton.2 (isOn_commentAt ?_)
          rw [hrest]
          exact (isInfix_commentText _).trans hleading.isInfix
        · split at h
          · cases h
            simp
          · split at h
            · cases h
            · cases h
              rw [hrest]
              exact isOn_finishLine hleading
    · cases h
      exact isOn_finishLine (List.suffix_refl _)

/-- The comments of lines are on the lines that they are numbered with. -/
theorem isOn_scanLines {lines : List (List Char)} (h : scanLines s number lines = .ok found) :
    ∀ c ∈ found, ∃ i line, lines[i]? = some line ∧ IsOn (number + i) line c := by
  induction lines generalizing s number found with
  | nil =>
    simp only [scanLines] at h
    split at h
    · cases h
    · split at h
      · cases h
        simp
      · cases h
  | cons line lines ih =>
    simp only [scanLines, bind_eq_ok_iff] at h
    obtain ⟨scanned, hline, h⟩ := h
    split at h
    · cases h
      simp
    · rename_i first next
      obtain ⟨rest, hrest, h⟩ := bind_eq_ok_iff.1 h
      cases h
      intro c hc
      rcases List.mem_append.1 hc with hc | hc
      · exact ⟨0, line, rfl, isOn_scanLine hline c hc⟩
      · obtain ⟨i, l, hl, hon⟩ := ih hrest c hc
        refine ⟨i + 1, l, hl, ?_⟩
        rwa [Nat.add_right_comm, Nat.add_assoc] at hon

/-- A comment of a text, whether or not it counts as one that shares its line with code. -/
def Scanned (source : String) (c : Comment) : Prop :=
  ∃ found, scan source.toList = .ok found ∧ ∃ c' ∈ found, c'.text = c.text ∧ c'.span = c.span

theorem ignoresInline_scanned (source : String) : IgnoresInline (Scanned source) :=
  fun _ ⟨found, hscan, c', hc', htext, hspan⟩ => ⟨found, hscan, c', hc', htext, hspan⟩

/-- A comment of a text is on one of its lines, counted from 1. -/
theorem Scanned.isOn {source : String} {c : Comment} (h : Scanned source c) :
    ∃ i line, (allLines source.toList)[i]? = some line ∧ IsOn (i + 1) line c := by
  obtain ⟨found, hscan, c', hc', htext, hspan⟩ := h
  obtain ⟨i, line, hline, hnumber, hinfix⟩ := isOn_scanLines hscan c' hc'
  refine ⟨i, line, hline, ?_, ?_⟩
  · rw [← hspan, hnumber, Nat.add_comm]
  · rwa [← htext]

end Comments

end TwinModule
