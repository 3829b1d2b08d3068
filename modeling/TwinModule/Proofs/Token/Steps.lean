import TwinModule.Proofs.Token.LineLocal
/-!
The reading of tokens step by step. What it gives has no more characters than the text that it is read from.
-/
set_option autoImplicit false

namespace TwinModule.Token
open TwinModule.Text TwinModule.Lexeme

/-- Where the reading of tokens is: what is remembered, whether a line starts, and the text that is left. -/
structure Spot where
  ctx : Context
  fresh : Bool
  rest : List Char

/-- What is read at once: lines without tokens, the start of a line, blanks and line ends inside it, a token. -/
inductive Step : Spot → List Token → Spot → Prop
  | emptyLine {ctx : Context} {place : Place} {col alt : Nat} {cs rest : List Char} :
    measure ctx.place 0 0 0 cs = some (place, col, alt, '\n' :: rest) →
    Step ⟨ctx, true, cs⟩ [] ⟨{ ctx with place := place.step '\n' }, true, rest⟩
  | commentLine {ctx : Context} {place : Place} {col alt : Nat} {cs rest : List Char} :
    measure ctx.place 0 0 0 cs = some (place, col, alt, '#' :: rest) →
    Step ⟨ctx, true, cs⟩ [] ⟨{ ctx with place := ⟨place.line + 1, 0⟩ }, true, (afterComment rest).drop 1⟩
  | line {ctx : Context} {place : Place} {col alt : Nat} {c : Char} {cs rest : List Char} {toks : List Token}
    {indents : List (Nat × Nat)} : measure ctx.place 0 0 0 cs = some (place, col, alt, c :: rest) → c ≠ '\n' → c ≠ '#' →
    ctx.brackets = [] → layout place col alt ctx.indents = some (toks, indents) →
    Step ⟨ctx, true, cs⟩ toks ⟨{ ctx with place, indents }, false, c :: rest⟩
  | inside {ctx : Context} {place : Place} {col alt : Nat} {c : Char} {cs rest : List Char} :
    measure ctx.place 0 0 0 cs = some (place, col, alt, c :: rest) → c ≠ '\n' → c ≠ '#' → ctx.brackets ≠ [] →
    Step ⟨ctx, true, cs⟩ [] ⟨{ ctx with place }, false, c :: rest⟩
  | blank {ctx : Context} {c : Char} {cs : List Char} : c = ' ' ∨ c = '\t' ∨ c = '\x0c' →
    Step ⟨ctx, false, c :: cs⟩ [] ⟨{ ctx with place := ctx.place.step c }, false, cs⟩
  | newline {ctx : Context} {cs : List Char} : ctx.brackets = [] →
    Step ⟨ctx, false, '\n' :: cs⟩ [⟨.newline, "", ctx.place, ctx.place⟩]
      ⟨{ ctx with place := ctx.place.step '\n' }, true, cs⟩
  | lineEnd {ctx : Context} {cs : List Char} : ctx.brackets ≠ [] →
    Step ⟨ctx, false, '\n' :: cs⟩ [] ⟨{ ctx with place := ctx.place.step '\n' }, true, cs⟩
  | comment {ctx : Context} {cs : List Char} :
    Step ⟨ctx, false, '#' :: cs⟩ []
      ⟨{ ctx with place := ctx.place.after ('#' :: cs.takeWhile (· != '\n')) }, false, afterComment cs⟩
  | joined {ctx : Context} {d : Char} {cs : List Char} :
    Step ⟨ctx, false, '\\' :: '\n' :: d :: cs⟩ [] ⟨{ ctx with place := ⟨ctx.place.line + 1, 0⟩ }, false, d :: cs⟩
  | token {ctx : Context} {c : Char} {cs : List Char} {kind : Kind} {n : Nat} {brackets : List Char} :
    c ∉ [' ', '\t', '\x0c', '\n', '#', '\\'] → lexemeSize? c cs = some (kind, n) →
    (if kind = .op then bracketsAfter (String.ofList (c :: cs.take n)) ctx.brackets else some ctx.brackets) =
      some brackets →
    Step ⟨ctx, false, c :: cs⟩ [⟨kind, String.ofList (c :: cs.take n), ctx.place, ctx.place.after (c :: cs.take n)⟩]
      ⟨{ ctx with place := ctx.place.after (c :: cs.take n), brackets }, false, cs.drop n⟩

/-- The tokens that are read from a place on. -/
inductive Yields : Spot → List Token → Prop
  | ends {ctx : Context} {place : Place} {col alt : Nat} {cs : List Char} {toks : List Token}
    {indents : List (Nat × Nat)} : measure ctx.place 0 0 0 cs = some (place, col, alt, []) → ctx.brackets = [] →
    layout place 0 0 ctx.indents = some (toks, indents) →
    Yields ⟨ctx, true, cs⟩ (toks ++ [⟨.stop, "", place, place⟩])
  | step {s t : Spot} {e ts : List Token} : Step s e t → Yields t ts → Yields s (e ++ ts)

/-- How many characters a token has, but at least one. -/
def weight (t : Token) : Nat := max 1 t.text.length

/-- The characters of all tokens. -/
def weightOf : List Token → Nat
  | [] => 0
  | t :: ts => t.weight + weightOf ts

@[simp] theorem weightOf_nil : weightOf [] = 0 := rfl

@[simp] theorem weightOf_cons (t : Token) (ts : List Token) : weightOf (t :: ts) = t.weight + weightOf ts := rfl

@[simp] theorem weightOf_append (ts us : List Token) : weightOf (ts ++ us) = weightOf ts + weightOf us := by
  induction ts with
  | nil => simp
  | cons t ts ih => simp [ih, Nat.add_assoc]

/-- The tokens that are text. -/
def textOf (ts : List Token) : List Token := ts.filter fun t => !t.isLayout

@[simp] theorem textOf_nil : textOf [] = [] := rfl

@[simp] theorem textOf_append (ts us : List Token) : textOf (ts ++ us) = textOf ts ++ textOf us := List.filter_append ..

theorem textOf_of_layout {ts : List Token} (h : ∀ t ∈ ts, t.isLayout = true) : textOf ts = [] := by
  simpa [textOf] using h

theorem textOf_of_text {ts : List Token} (h : ∀ t ∈ ts, t.isLayout = false) : textOf ts = ts := by
  simpa [textOf] using h

/-- The start of a line gives nothing but layout. -/
theorem isLayout_of_layout {place : Place} {col alt : Nat} {indents indents' : List (Nat × Nat)} {toks : List Token}
    (h : layout place col alt indents = some (toks, indents')) : ∀ t ∈ toks, t.isLayout = true := by
  unfold layout at h
  split at h
  · cases h
  · split at h
    · split at h
      · cases h
        simp
      · cases h
    · split at h
      · split at h
        · cases h
        · cases h
          simp [isLayout]
      · split at h
        · split at h
          · cases h
            intro t ht
            simp [List.eq_of_mem_replicate ht, isLayout]
          · cases h
        · cases h

theorem isLayout_of_lexemeSize? {c : Char} {cs : List Char} {kind : Kind} {n : Nat}
    (h : lexemeSize? c cs = some (kind, n)) {t : Token} (ht : t.kind = kind) : t.isLayout = false := by
  have hkind : kind = .string ∨ kind = .name ∨ kind = .number ∨ kind = .op := by
    have hmap : ∀ {α : Type} {x : Option α} {f : α → List Char} {k kind : Kind} {rest : List Char},
        (x.map fun a => (k, f a)) = some (kind, rest) → kind = k := by
      intro α x f k kind rest h
      obtain ⟨a, -, heq⟩ := Option.map_eq_some_iff.1 h
      cases heq
      rfl
    obtain ⟨⟨kind', rest⟩, hread, heq⟩ := Option.map_eq_some_iff.1 h
    cases heq
    clear h
    simp only [lexeme?] at hread
    split at hread
    · exact .inl (hmap hread)
    · split at hread
      · split at hread
        · cases hread
          exact .inr (.inl rfl)
        · cases hread
      · split at hread
        · exact .inr (.inr (.inl (hmap hread)))
        · split at hread
          · exact .inr (.inr (.inl (hmap hread)))
          · exact .inr (.inr (.inr (hmap hread)))
  rcases hkind with rfl | rfl | rfl | rfl <;> simp [isLayout, ht]

/-- What a step reads and what it leaves fit into what was there. -/
theorem Step.weightOf_le {s t : Spot} {e : List Token} (h : Step s e t) :
    weightOf (textOf e) + t.rest.length ≤ s.rest.length := by
  cases h with
  | emptyLine hm =>
    have := measure_length _ _ _ _ _ hm
    simp only [List.length_cons] at this
    simp
    omega
  | @commentLine _ _ _ _ _ rest hm =>
    have := measure_length _ _ _ _ _ hm
    have := length_afterComment rest
    simp only [List.length_cons] at *
    simp
    omega
  | line hm _ _ _ hlayout =>
    have := measure_length _ _ _ _ _ hm
    simpa [textOf_of_layout (isLayout_of_layout hlayout)] using this
  | inside hm _ _ _ =>
    have := measure_length _ _ _ _ _ hm
    simpa using this
  | blank _ => simp
  | newline _ => simp [textOf, isLayout]
  | lineEnd _ => simp
  | @comment _ cs =>
    have := length_afterComment cs
    simp
    omega
  | joined => simp
  | @token _ c cs _ n _ _ hsize _ =>
    rw [textOf_of_text (by simpa using isLayout_of_lexemeSize? hsize rfl)]
    simp only [weightOf_cons, weightOf_nil, weight, String.length_ofList, List.length_cons, List.length_take,
      List.length_drop]
    omega

theorem Yields.weightOf_le {s : Spot} {ts : List Token} (h : Yields s ts) : weightOf (textOf ts) ≤ s.rest.length := by
  induction h with
  | ends _ _ hlayout =>
    rw [textOf_append, textOf_of_layout (isLayout_of_layout hlayout)]
    simp [textOf, isLayout]
  | step hstep _ ih =>
    have := hstep.weightOf_le
    simp only [textOf_append, weightOf_append]
    omega

/-- What is left of a list that has something after the rest. -/
theorem exists_of_append_singleton {α : Type} {stop : α} {m front ts : List α} (h : m ++ [stop] = front ++ ts)
    (hts : ts ≠ []) : ∃ back, ts = back ++ [stop] ∧ m = front ++ back := by
  obtain ⟨back, last, rfl⟩ := (List.eq_nil_or_concat ts).resolve_left hts
  rw [List.concat_eq_append, ← List.append_assoc] at h
  obtain ⟨hm, hlast⟩ := List.append_inj' h rfl
  exact ⟨back, by rw [List.concat_eq_append, hlast], hm⟩

end TwinModule.Token
