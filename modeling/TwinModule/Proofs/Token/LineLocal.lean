import Mathlib.Data.List.Find
import TwinModule.Token.Lexer
import TwinModule.Proofs.Comments.Scan
/-!
Tokens do not depend on the lines after the one on which they end.
-/
set_option autoImplicit false

namespace TwinModule.Lexeme
open TwinModule.Text

/-- A reader that stays on its line: what it gives and what it leaves of the line do not depend on the other lines. -/
def Local (f : List Char → Option (List Char)) : Prop :=
  ∀ l, ∃ o : Option (List Char), ∀ v, f (l ++ '\n' :: v) = o.map (· ++ '\n' :: v)

namespace Local

variable {f g : List Char → Option (List Char)}

theorem bind (hf : Local f) (hg : Local g) : Local fun cs => (f cs).bind g := by
  intro l
  obtain ⟨o, ho⟩ := hf l
  cases o with
  | none => exact ⟨none, fun v => by simp [ho]⟩
  | some k =>
    obtain ⟨o, hk⟩ := hg k
    exact ⟨o, fun v => by simp [ho, hk]⟩

/-- A reader that leaves the text as it is, or gives up. -/
theorem guard {c : List Char → Bool} (hc : ∀ l, ∃ b, ∀ v, c (l ++ '\n' :: v) = b) :
    Local fun cs => if c cs then some cs else none := by
  intro l
  obtain ⟨b, hb⟩ := hc l
  cases b with
  | false => exact ⟨none, fun v => by simp [hb]⟩
  | true => exact ⟨some l, fun v => by simp [hb]⟩

theorem digitRun {ok : Char → Bool} (hok : ok '\n' = false) : Local (digitRun ok) := by
  intro l
  fun_induction Lexeme.digitRun ok l with
  | case1 => exact ⟨some [], fun v => by simp [Lexeme.digitRun, hok]⟩
  | case2 d ds hd ih =>
    obtain ⟨o, ho⟩ := ih
    exact ⟨o, fun v => by simp [Lexeme.digitRun, hd, ho]⟩
  | case3 d ds hd => exact ⟨none, fun v => by simp [Lexeme.digitRun, hd]⟩
  | case4 => exact ⟨none, fun v => by simp [Lexeme.digitRun, hok]⟩
  | case5 c cs hc h ih =>
    obtain ⟨o, ho⟩ := ih
    refine ⟨o, fun v => ?_⟩
    rw [List.cons_append, Lexeme.digitRun, if_pos h, ho]
    simpa using hc
  | case6 c cs hc h =>
    refine ⟨some (c :: cs), fun v => ?_⟩
    rw [List.cons_append, Lexeme.digitRun, if_neg h]
    · rfl
    · simpa using hc

end Local

/-- Whether a text starts with something depends on its first line only. -/
theorem isPrefixOf_line {p : List Char} (hp : '\n' ∉ p) (l v : List Char) :
    p.isPrefixOf (l ++ '\n' :: v) = p.isPrefixOf l := by
  induction p generalizing l with
  | nil => simp
  | cons c p ih =>
    simp only [List.mem_cons, not_or] at hp
    cases l with
    | nil => simpa [List.isPrefixOf] using fun h : c = '\n' => absurd h.symm hp.1
    | cons d l => simp only [List.cons_append, List.isPrefixOf, ih hp.2 l]

theorem touchesOperator_line (l v : List Char) : touchesOperator (l ++ '\n' :: v) = touchesOperator l := by
  simp only [touchesOperator, List.any_cons, List.any_nil]
  simp [isPrefixOf_line]

theorem endsNumber_line (l : List Char) : ∃ b, ∀ v, endsNumber (l ++ '\n' :: v) = b := by
  cases l with
  | nil =>
    have hn : isWordChar '\n' = false := by decide
    exact ⟨true, fun v => by simp [endsNumber, hn]⟩
  | cons c l => exact ⟨_, fun v => by rw [List.cons_append, endsNumber, ← List.cons_append, touchesOperator_line]⟩

namespace Local

variable {f g : List Char → Option (List Char)}

theorem ended : Local ended := .guard endsNumber_line

theorem none : Local fun _ => none := fun _ => ⟨.none, fun _ => rfl⟩

theorem ite {c : Prop} [Decidable c] (hf : Local f) (hg : Local g) : Local fun cs => if c then f cs else g cs := by
  split
  · exact hf
  · exact hg

theorem cons (hf : Local f) (c : Char) : Local fun cs => f (c :: cs) := fun l => hf (c :: l)

/-- A reader that looks at the first character, or at the end of the line. -/
theorem of_cons (hend : ∃ o : Option (List Char), ∀ v, f ('\n' :: v) = o.map (· ++ '\n' :: v))
    (hc : ∀ c, Local fun cs => f (c :: cs)) : Local f := by
  intro l
  cases l with
  | nil => exact hend
  | cons c l => exact hc c l

theorem imaginaryEnd : Local imaginaryEnd := by
  refine of_cons (ended []) fun c => ?_
  have hc : (fun cs => Lexeme.imaginaryEnd (c :: cs)) =
      fun cs => if c = 'j' ∨ c = 'J' then Lexeme.ended cs else Lexeme.ended (c :: cs) := by
    funext cs
    unfold Lexeme.imaginaryEnd
    split <;> simp_all
  rw [hc]
  exact .ite ended (ended.cons c)

theorem digits : Local fun cs => (Lexeme.digitRun isDigit cs).bind Lexeme.imaginaryEnd :=
  .bind (.digitRun (by decide)) imaginaryEnd

/-- An exponent has digits after its sign. -/
theorem signedDigits : Local fun cs => match cs with
    | d :: ds => if isDigit d then (Lexeme.digitRun isDigit ds).bind Lexeme.imaginaryEnd else .none
    | [] => .none :=
  of_cons ⟨.none, fun _ => if_neg (by decide)⟩ fun _ => .ite digits .none

theorem exponentEnd : Local exponentEnd := by
  refine of_cons (imaginaryEnd []) fun e => ?_
  refine .ite (of_cons (ended [e]) fun s => ?_) (imaginaryEnd.cons e)
  exact .ite signedDigits (.ite digits ((ended.cons e).cons s))

theorem fractionEnd : Local fractionEnd :=
  of_cons (exponentEnd []) fun d => .ite (.bind (.digitRun (by decide)) exponentEnd) (exponentEnd.cons d)

theorem wholeEnd : Local wholeEnd := by
  refine of_cons (exponentEnd []) fun c => ?_
  have hc : (fun cs => Lexeme.wholeEnd (c :: cs)) =
      fun cs => if c = '.' then Lexeme.fractionEnd cs else Lexeme.exponentEnd (c :: cs) := by
    funext cs
    unfold Lexeme.wholeEnd
    split <;> simp_all
  rw [hc]
  exact .ite fractionEnd (exponentEnd.cons c)

theorem radixDigits {ok : Char → Bool} (hok : ok '\n' = false) : Local (radixDigits ok) := by
  have hfirst : ∀ d, Local fun ds => if ok d then Lexeme.digitRun ok ds else .none :=
    fun d => .ite (.digitRun hok) .none
  refine of_cons ⟨.none, fun v => by simp [Lexeme.radixDigits, hok]⟩ fun c => ?_
  by_cases hc : c = '_'
  · subst hc
    refine of_cons ⟨.none, fun v => by simp [Lexeme.radixDigits, hok]⟩ fun d => ?_
    exact hfirst d
  · have hrest : (fun cs => Lexeme.radixDigits ok (c :: cs)) =
        fun cs => if ok c then Lexeme.digitRun ok cs else .none := by
      funext cs
      rw [Lexeme.radixDigits]
      exact fun d ds h => absurd h hc
    rw [hrest]
    exact hfirst c

theorem endedRadix : Local endedRadix :=
  of_cons (ended []) fun c => .ite .none (ended.cons c)

theorem decimalEnd (c : Char) : Local (decimalEnd c) := by
  intro l
  have hdigit : isDigit '\n' = false := by decide
  obtain ⟨o, ho⟩ := digitRun hdigit l
  cases o with
  | none => exact ⟨.none, fun v => by simp [Lexeme.decimalEnd, ho]⟩
  | some k =>
    have hdigits : ∀ v, (l ++ '\n' :: v).take ((l ++ '\n' :: v).length - (k ++ '\n' :: v).length) =
        l.take (l.length - k.length) := by
      intro v
      have hsize : (l ++ '\n' :: v).length - (k ++ '\n' :: v).length = l.length - k.length := by
        simp only [List.length_append]
        omega
      rw [hsize, List.take_append_of_le_length (Nat.sub_le _ _)]
    have hmarked : Local fun rest => match rest with
        | d :: _ => if d = '.' || d = 'e' || d = 'E' || d = 'j' || d = 'J' then Lexeme.wholeEnd rest else .none
        | [] => .none :=
      of_cons ⟨.none, fun _ => if_neg (by decide)⟩ fun d => .ite (wholeEnd.cons d) .none
    obtain ⟨o, hk⟩ := Local.ite hmarked wholeEnd
      (c := (c = '0' && (l.take (l.length - k.length)).any fun d => d != '0' && d != '_') = true) k
    refine ⟨o, fun v => ?_⟩
    rw [← hk v, Lexeme.decimalEnd, ho]
    exact if_congr (by rw [hdigits]) rfl rfl

theorem numberEnd (c : Char) : Local fun cs => numberEnd (c :: cs) := by
  by_cases hc : c = '0'
  · subst hc
    refine of_cons (decimalEnd '0' []) fun m => ?_
    refine .ite (.bind (radixDigits (by decide)) ended) (.ite (.bind (radixDigits (by decide)) endedRadix) ?_)
    exact .ite (.bind (radixDigits (by decide)) endedRadix) ((decimalEnd '0').cons m)
  · have hdecimal : (fun cs => Lexeme.numberEnd (c :: cs)) = Lexeme.decimalEnd c := by
      funext cs
      rw [Lexeme.numberEnd]
      exact fun m ds h => absurd h hc
    rw [hdecimal]
    exact decimalEnd c

end Local

/-- A reader that may go on in the next lines: as long as it stays before some line, nothing from there on matters. -/
def Keeps (f : List Char → Option (List Char)) : Prop :=
  ∀ {l v rest : List Char}, f (l ++ '\n' :: v) = some rest → v.length < rest.length →
    ∃ k, rest = k ++ '\n' :: v ∧ ∀ v', f (l ++ '\n' :: v') = some (k ++ '\n' :: v')

namespace Keeps

variable {f g : List Char → Option (List Char)} {q : Char}

theorem of_local (h : Local f) : Keeps f := by
  intro l v rest hrest _
  obtain ⟨o, ho⟩ := h l
  obtain ⟨k, rfl, rfl⟩ := Option.map_eq_some_iff.1 ((ho v).symm.trans hrest)
  exact ⟨k, rfl, fun v' => ho v'⟩

theorem closeLine_cons {c : Char} (hc : c ≠ '\\') (cs : List Char) : Lexeme.closeLine q (c :: cs) =
    if c = q then some cs else if c = '\n' then none else Lexeme.closeLine q cs := by
  rw [Lexeme.closeLine]
  · simp [hc]
  · simp [hc]

theorem closeLine (hq : q ≠ '\n') : Keeps (closeLine q) := by
  intro l v rest hrest hlength
  -- A backslash goes together with the next character, which may be the end of the line.
  induction hn : l.length using Nat.strongRecOn generalizing l with
  | _ n ih =>
    rcases l with _ | ⟨c, l⟩
    · simp [Lexeme.closeLine, hq.symm] at hrest
    by_cases hc : c = '\\'
    · subst hc
      rcases l with _ | ⟨d, l⟩
      · have hclose : Lexeme.closeLine q v = some rest := by simpa [Lexeme.closeLine] using hrest
        have hle := (suffix_of_closeLine hclose).length_le
        omega
      · simp only [List.cons_append, Lexeme.closeLine] at hrest ⊢
        exact ih l.length (by simp only [← hn, List.length_cons]; omega) hrest rfl
    · rw [List.cons_append, closeLine_cons hc] at hrest
      simp only [List.cons_append, closeLine_cons hc]
      split at hrest
      · cases hrest
        exact ⟨l, rfl, fun v' => by simp_all⟩
      · split at hrest
        · cases hrest
        · obtain ⟨k, hk, h⟩ := ih l.length (by simp only [← hn, List.length_cons]; omega) hrest rfl
          exact ⟨k, hk, fun v' => by simp_all⟩

theorem closeBlock_cons {c : Char} (hc : c ≠ '\\') (cs : List Char) : Lexeme.closeBlock q (c :: cs) =
    if c = q && cs.take 2 == [q, q] then some (cs.drop 2) else Lexeme.closeBlock q cs := by
  rw [Lexeme.closeBlock]
  simp [hc]

theorem closeBlock (hq : q ≠ '\n') : Keeps (closeBlock q) := by
  intro l v rest hrest hlength
  induction hn : l.length using Nat.strongRecOn generalizing l with
  | _ n ih =>
    have hbelow : ∀ v : List Char, Lexeme.closeBlock q v = some rest → rest.length ≤ v.length :=
      fun v h => (suffix_of_closeBlock h).length_le
    rcases l with _ | ⟨c, l⟩
    · rw [List.nil_append, closeBlock_cons (by decide)] at hrest
      have := hbelow v (by simpa [hq.symm] using hrest)
      omega
    by_cases hc : c = '\\'
    · subst hc
      rcases l with _ | ⟨d, l⟩
      · have := hbelow v (by simpa [Lexeme.closeBlock] using hrest)
        omega
      · simp only [List.cons_append, Lexeme.closeBlock] at hrest ⊢
        exact ih l.length (by simp only [← hn, List.length_cons]; omega) hrest rfl
    · rw [List.cons_append, closeBlock_cons hc] at hrest
      simp only [List.cons_append, closeBlock_cons hc]
      -- The three marks that end a string are on one line.
      have hmarks : ∀ v', ((l ++ '\n' :: v').take 2 == [q, q]) = (l.take 2 == [q, q]) := by
        intro v'
        rcases l with _ | ⟨a, _ | ⟨b, l⟩⟩ <;> simp [hq.symm]
      simp only [hmarks] at hrest ⊢
      split at hrest
      · rename_i h
        have hsize : 2 ≤ l.length := by
          simp only [Bool.and_eq_true, beq_iff_eq] at h
          have := congrArg List.length h.2
          simp only [List.length_take, List.length_cons, List.length_nil] at this
          omega
        rw [List.drop_append_of_le_length hsize, Option.some.injEq] at hrest
        refine ⟨l.drop 2, hrest.symm, fun v' => ?_⟩
        rw [if_pos h, List.drop_append_of_le_length hsize]
      · rename_i h
        simp only [if_neg h]
        exact ih l.length (by simp only [← hn, List.length_cons]; omega) hrest rfl

theorem stringEnd (hq : q ≠ '\n') : Keeps (stringEnd q) := by
  intro l v rest hrest hlength
  rcases l with _ | ⟨a, _ | ⟨b, l⟩⟩
  · cases v with
    | nil => simp [Lexeme.stringEnd, Lexeme.closeLine, hq.symm] at hrest
    | cons d v => simp [Lexeme.stringEnd, Lexeme.closeLine, hq.symm] at hrest
  · by_cases ha : a = q
    · simp only [List.cons_append, List.nil_append, Lexeme.stringEnd, ha, hq.symm, if_true, if_false] at hrest ⊢
      cases hrest
      exact ⟨[], rfl, fun _ => rfl⟩
    · simp only [List.cons_append, List.nil_append, Lexeme.stringEnd, ha, if_false] at hrest ⊢
      exact closeLine hq (l := [a]) hrest hlength
  · simp only [List.cons_append, Lexeme.stringEnd] at hrest ⊢
    by_cases ha : a = q
    · by_cases hb : b = q
      · simp only [if_pos ha, if_pos hb] at hrest ⊢
        exact closeBlock hq hrest hlength
      · simp only [if_pos ha, if_neg hb] at hrest ⊢
        cases hrest
        exact ⟨b :: l, rfl, fun _ => rfl⟩
    · simp only [if_neg ha] at hrest ⊢
      exact closeLine hq (l := a :: b :: l) hrest hlength

end Keeps

theorem takeWhile_line {ok : Char → Bool} (hok : ok '\n' = false) (l v : List Char) :
    (l ++ '\n' :: v).takeWhile ok = l.takeWhile ok := by
  induction l with
  | nil => simp [hok]
  | cons c l ih => simp [List.takeWhile_cons, ih]

theorem dropWhile_line {ok : Char → Bool} (hok : ok '\n' = false) (l v : List Char) :
    (l ++ '\n' :: v).dropWhile ok = l.dropWhile ok ++ '\n' :: v := by
  induction l with
  | nil => simp [hok]
  | cons c l ih =>
    simp only [List.cons_append, List.dropWhile_cons, ih]
    split <;> rfl

/-- Whether a string starts is seen on its first line. -/
theorem stringStart_line (l v : List Char) : stringStart (l ++ '\n' :: v) = stringStart l := by
  have hletters := takeWhile_line (show isLetter '\n' = false by decide) l v
  have hle : (l.takeWhile isLetter).length ≤ l.length := (List.takeWhile_sublist _).length_le
  simp only [stringStart, hletters, List.drop_append_of_le_length hle]
  cases l.drop (l.takeWhile isLetter).length with
  | nil => simp
  | cons q rest => rfl

theorem lt_of_stringStart {l : List Char} {n : Nat} {q : Char} (h : stringStart l = some (n, q)) :
    n < l.length ∧ q ≠ '\n' := by
  simp only [stringStart] at h
  split at h
  · rename_i d rest hdrop
    split at h
    · rename_i hd
      cases h
      refine ⟨?_, ?_⟩
      · have := congrArg List.length hdrop
        simp only [List.length_drop, List.length_cons] at this
        omega
      · rintro rfl
        simp at hd
    · cases h
  · cases h

/-- The longest operator at the head of a text is on the first line. -/
theorem operator?_line (l v : List Char) : operator? (l ++ '\n' :: v) = operator? l := by
  have hoperators : ∀ o ∈ operators, '\n' ∉ o.toList := by decide
  refine List.find?_congr fun o ho => isPrefixOf_line (hoperators o ho) l v

end TwinModule.Lexeme

namespace TwinModule.Token
open TwinModule.Text TwinModule.Lexeme

/-- What a token leaves of the line on which it ends does not depend on the other lines. -/
theorem lexeme?_line {c : Char} {l v rest : List Char} {kind : Kind}
    (h : lexeme? c (l ++ '\n' :: v) = some (kind, rest)) (hlength : v.length < rest.length) :
    ∃ k, rest = k ++ '\n' :: v ∧ ∀ v', lexeme? c (l ++ '\n' :: v') = some (kind, k ++ '\n' :: v') := by
  -- What a reader that may go on in the next lines finds is a token of some kind.
  have hread : ∀ {f : List Char → Option (List Char)} {k : List Char} {kind' : Kind}, Keeps f →
      (f (k ++ '\n' :: v)).map (fun rest => (kind', rest)) = some (kind, rest) →
      ∃ k', rest = k' ++ '\n' :: v ∧
        ∀ v', (f (k ++ '\n' :: v')).map (fun rest => (kind', rest)) = some (kind, k' ++ '\n' :: v') := by
    intro f k kind' hf h
    obtain ⟨rest', hrest, heq⟩ := Option.map_eq_some_iff.1 h
    cases heq
    obtain ⟨k', hk, hall⟩ := hf hrest hlength
    exact ⟨k', hk, fun v' => by rw [hall v', Option.map_some]⟩
  have hstart : ∀ v, stringStart (c :: (l ++ '\n' :: v)) = stringStart (c :: l) := stringStart_line (c :: l)
  simp only [lexeme?, hstart] at h ⊢
  cases hs : stringStart (c :: l) with
  | some s =>
    obtain ⟨n, q⟩ := s
    obtain ⟨hn, hq⟩ := lt_of_stringStart hs
    have hdrop : ∀ v, (l ++ '\n' :: v).drop n = l.drop n ++ '\n' :: v :=
      fun v => List.drop_append_of_le_length (by simpa [Nat.lt_succ_iff] using hn)
    simp only [hs, hdrop] at h ⊢
    exact hread (Keeps.stringEnd hq) h
  | none =>
    simp only [hs] at h ⊢
    by_cases hword : isWordStart c = true
    · have hchars : isWordChar '\n' = false := by decide
      simp only [if_pos hword, takeWhile_line hchars, dropWhile_line hchars] at h ⊢
      split at h
      · rename_i hall
        cases h
        exact ⟨_, rfl, fun v' => if_pos hall⟩
      · cases h
    by_cases hdigit : isDigit c = true
    · simp only [if_neg hword, if_pos hdigit] at h ⊢
      exact hread (f := fun cs => numberEnd (c :: cs)) (Keeps.of_local (.numberEnd c)) h
    have hhead : ∀ v, (l ++ '\n' :: v).head?.any isDigit = l.head?.any isDigit := by
      intro v
      cases l with
      | nil => exact (by decide : isDigit '\n' = false)
      | cons d l => rfl
    simp only [if_neg hword, if_neg hdigit, hhead] at h ⊢
    by_cases hpoint : (c = '.' && l.head?.any isDigit) = true
    · simp only [if_pos hpoint] at h ⊢
      exact hread (Keeps.of_local .fractionEnd) h
    have hoperator : ∀ v, operator? (c :: (l ++ '\n' :: v)) = operator? (c :: l) := operator?_line (c :: l)
    simp only [if_neg hpoint, hoperator] at h ⊢
    obtain ⟨o, ho, heq⟩ := Option.map_eq_some_iff.1 h
    cases heq
    have hsize : o.length - 1 ≤ l.length := by
      have hprefix := List.find?_some ho
      have := (List.isPrefixOf_iff_prefix.1 hprefix).length_le
      simp only [String.length_toList, List.length_cons] at this
      omega
    refine ⟨l.drop (o.length - 1), List.drop_append_of_le_length hsize, fun v' => ?_⟩
    rw [ho, Option.map_some, List.drop_append_of_le_length hsize]

/-- A token stays the same if something changes after the line on which it ends. -/
theorem lexemeSize?_line {c : Char} {l v : List Char} {kind : Kind} {n : Nat}
    (h : lexemeSize? c (l ++ '\n' :: v) = some (kind, n)) (hn : n ≤ l.length) (v' : List Char) :
    lexemeSize? c (l ++ '\n' :: v') = some (kind, n) := by
  obtain ⟨⟨kind', rest⟩, hrest, heq⟩ := Option.map_eq_some_iff.1 h
  cases heq
  simp only [List.length_append, List.length_cons] at hn
  obtain ⟨k, rfl, hall⟩ := lexeme?_line hrest (by omega)
  simp only [lexemeSize?, hall v', Option.map_some, List.length_append, List.length_cons]
  congr 2
  omega

end TwinModule.Token
