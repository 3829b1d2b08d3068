/-!
Cutting a text at a separator and joining the parts again. There is always at least one part.
-/
set_option autoImplicit false

namespace TwinModule.Text

/-- The parts of a text between separators. -/
def cut (sep : Char) : List Char → List (List Char)
  | [] => [[]]
  | c :: cs =>
    if c = sep then [] :: cut sep cs
    else match cut sep cs with
      | [] => [[c]]
      | p :: ps => (c :: p) :: ps

/-- The parts with a separator between each two. -/
def glue (sep : Char) : List (List Char) → List Char
  | [] => []
  | [p] => p
  | p :: q :: ps => p ++ sep :: glue sep (q :: ps)

theorem cut_ne_nil (sep : Char) (cs : List Char) : cut sep cs ≠ [] := by
  cases cs with
  | nil => simp [cut]
  | cons c cs =>
    simp only [cut]
    split
    · simp
    · split <;> simp

theorem glue_cons {sep : Char} {p : List Char} {ps : List (List Char)} (h : ps ≠ []) :
    glue sep (p :: ps) = p ++ sep :: glue sep ps := by
  cases ps with
  | nil => exact absurd rfl h
  | cons q qs => rfl

@[simp] theorem glue_cut (sep : Char) (cs : List Char) : glue sep (cut sep cs) = cs := by
  induction cs with
  | nil => rfl
  | cons c cs ih =>
    simp only [cut]
    split
    · rename_i h
      rw [glue_cons (cut_ne_nil sep cs), ih, h]
      rfl
    · split
      · rename_i h
        exact absurd h (cut_ne_nil sep cs)
      · rename_i p ps h
        rw [h] at ih
        cases ps with
        | nil => simp_all [glue]
        | cons q qs => simp_all [glue]

theorem cut_of_not_mem {sep : Char} {cs : List Char} (h : sep ∉ cs) : cut sep cs = [cs] := by
  induction cs with
  | nil => rfl
  | cons c cs ih =>
    simp only [List.mem_cons, not_or] at h
    simp [cut, Ne.symm h.1, ih h.2]

theorem not_mem_of_mem_cut {sep : Char} {cs p : List Char} (h : p ∈ cut sep cs) : sep ∉ p := by
  induction cs generalizing p with
  | nil => simp_all [cut]
  | cons c cs ih =>
    simp only [cut] at h
    split at h
    · rcases List.mem_cons.1 h with rfl | h
      · simp
      · exact ih h
    · rename_i hc
      split at h
      · rename_i e; exact absurd e (cut_ne_nil sep cs)
      · rename_i q qs e
        rw [e] at ih
        rcases List.mem_cons.1 h with rfl | h
        · simp only [List.mem_cons, not_or]
          exact ⟨fun e => hc e.symm, ih (by simp)⟩
        · exact ih (by simp [h])

def parts (sep : Char) (s : String) : List String := (cut sep s.toList).map String.ofList

def dotted (names : List String) : String := ".".intercalate names

end TwinModule.Text
