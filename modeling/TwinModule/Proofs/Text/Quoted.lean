import Mathlib
import TwinModule.Grammar.Literal
import TwinModule.Text.Lines
import TwinModule.Text.Quoted
/-!
Quoted texts. What stands between the marks means the text, the text ends at the second mark, and nothing in it has to
be escaped once more.
-/
set_option autoImplicit false

namespace TwinModule.Text
open Lexeme Grammar

theorem isPrintable_hexDigit {k : Nat} (h : k < 16) : isPrintable (hexDigit k) = true := by
  revert k
  decide

theorem isHexDigit_hexDigit {k : Nat} (h : k < 16) : isHexDigit (hexDigit k) = true := by
  revert k
  decide

theorem digitValue_hexDigit {k : Nat} (h : k < 16) : digitValue (hexDigit k) = k ∧ hexDigit k ≠ '_' := by
  revert k
  decide

theorem exists_of_mem_hexDigits {width n : Nat} {d : Char} (h : d ∈ hexDigits width n) :
    ∃ k < 16, d = hexDigit k := by
  induction width generalizing n with
  | zero => simp [hexDigits] at h
  | succ width ih =>
    rcases List.mem_append.1 h with h | h
    · exact ih h
    · exact ⟨n % 16, Nat.mod_lt n (by decide), List.mem_singleton.1 h⟩

theorem natOf_hexDigits (width n : Nat) : natOf 16 (hexDigits width n) = n % 16 ^ width := by
  induction width generalizing n with
  | zero => simp [hexDigits, natOf, Nat.mod_one]
  | succ width ih =>
    obtain ⟨hvalue, hmark⟩ := digitValue_hexDigit (Nat.mod_lt n (show 0 < 16 by decide))
    have hinner : natOf 16 (hexDigits width (n / 16)) = n / 16 % 16 ^ width := ih (n / 16)
    unfold natOf at hinner ⊢
    rw [hexDigits, List.foldl_append, hinner, List.foldl_cons, List.foldl_nil, if_neg hmark, hvalue, Nat.pow_succ',
      Nat.mod_mul, Nat.add_comm]

theorem codeChar?_hexDigits (width : Nat) {c : Char} (h : c.toNat < 16 ^ width) (cs : List Char) :
    codeChar? width (hexDigits width c.toNat ++ cs) = some c := by
  have htake : (hexDigits width c.toNat ++ cs).take width = hexDigits width c.toNat :=
    List.take_left' (length_hexDigits width c.toNat)
  have hall : (hexDigits width c.toNat).all isHexDigit = true := by
    refine List.all_eq_true.2 fun d hd => ?_
    obtain ⟨k, hk, rfl⟩ := exists_of_mem_hexDigits hd
    exact isHexDigit_hexDigit hk
  have hvalue : natOf 16 (hexDigits width c.toNat) = c.toNat := by rw [natOf_hexDigits, Nat.mod_eq_of_lt h]
  have hvalid : c.toNat.isValidChar := c.valid
  simp only [codeChar?, htake, length_hexDigits, hall, hvalue, decide_true, Bool.and_true, if_true, hvalid, dif_pos,
    Option.some.injEq]
  exact Char.ext (UInt32.toNat_inj.1 (by simp))

/-- A mark that texts are quoted with. -/
def IsMark (q : Char) : Prop := q = '\'' ∨ q = '"'

theorem isMark_chooseQuote (cs : List Char) : IsMark (chooseQuote cs) := by
  unfold chooseQuote
  split
  · exact .inr rfl
  · exact .inl rfl

variable {q c d : Char} {ds cs : List Char}

theorem IsMark.isPrintable (hq : IsMark q) : isPrintable q = true := by
  rcases hq with rfl | rfl <;> decide

theorem IsMark.ne_backslash (hq : IsMark q) : q ≠ '\\' := by
  rcases hq with rfl | rfl <;> decide

theorem hexDigit_ne {k : Nat} (hk : k < 16) (hq : IsMark q) : hexDigit k ≠ q ∧ hexDigit k ≠ '\\' := by
  have hall : ∀ k < 16, hexDigit k ≠ '\'' ∧ hexDigit k ≠ '"' ∧ hexDigit k ≠ '\\' := by decide
  obtain ⟨hsingle, hdouble, hback⟩ := hall k hk
  rcases hq with rfl | rfl
  · exact ⟨hsingle, hback⟩
  · exact ⟨hdouble, hback⟩

/-- What stands after a backslash for a character in a quoted text. -/
structure IsEscape (q c d : Char) (ds : List Char) : Prop where
  printable : ∀ e ∈ d :: ds, isPrintable e = true
  unmarked : ∀ e ∈ ds, e ≠ q ∧ e ≠ '\\'
  meaning : ∀ cs, escape? false d (ds ++ cs) = some ([c], ds.length)

theorem IsEscape.named (h : namedEscape? d = some [c]) (hd : isPrintable d = true) : IsEscape q c d [] :=
  ⟨by simpa using hd, by simp, fun cs => by simp [escape?, h]⟩

theorem IsEscape.digits {width : Nat} (hq : IsMark q) (hd : isPrintable d = true)
    (h : ∀ cs, escape? false d (hexDigits width c.toNat ++ cs) = some ([c], width)) :
    IsEscape q c d (hexDigits width c.toNat) := by
  refine ⟨fun e he => ?_, fun e he => ?_, fun cs => by rw [h, length_hexDigits]⟩
  · rcases List.mem_cons.1 he with rfl | he
    · exact hd
    · obtain ⟨k, hk, rfl⟩ := exists_of_mem_hexDigits he
      exact isPrintable_hexDigit hk
  · obtain ⟨k, hk, rfl⟩ := exists_of_mem_hexDigits he
    exact hexDigit_ne hk hq

theorem toNat_lt_unicode (c : Char) : c.toNat < 0x110000 := by
  have h := c.valid
  simp only [UInt32.isValidChar, Nat.isValidChar] at h
  have he : c.toNat = c.val.toNat := rfl
  omega

theorem exists_escapeCode (hq : IsMark q) (c : Char) :
    ∃ d ds, escapeCode c.toNat = '\\' :: d :: ds ∧ IsEscape q c d ds := by
  have hlt := toNat_lt_unicode c
  unfold escapeCode
  split
  · rename_i h
    refine ⟨_, _, rfl, .digits hq (by decide) fun cs => ?_⟩
    simp [escape?, namedEscape?, isOctalDigit, codeChar?_hexDigits 2 (c := c) (by omega)]
  · split
    · rename_i h
      refine ⟨_, _, rfl, .digits hq (by decide) fun cs => ?_⟩
      simp [escape?, namedEscape?, isOctalDigit, codeChar?_hexDigits 4 (c := c) (by omega)]
    · refine ⟨_, _, rfl, .digits hq (by decide) fun cs => ?_⟩
      simp [escape?, namedEscape?, isOctalDigit, codeChar?_hexDigits 8 (c := c) (by omega)]

theorem exists_escapeChar (hq : IsMark q) (c : Char) :
    ∃ d ds, escapeChar c = '\\' :: d :: ds ∧ IsEscape q c d ds := by
  unfold escapeChar
  split
  · rename_i h
    subst h
    exact ⟨_, _, rfl, .named rfl (by decide)⟩
  · split
    · rename_i h
      subst h
      exact ⟨_, _, rfl, .named rfl (by decide)⟩
    · split
      · rename_i h
        subst h
        exact ⟨_, _, rfl, .named rfl (by decide)⟩
      · split
        · rename_i h
          subst h
          exact ⟨_, _, rfl, .named rfl (by decide)⟩
        · exact exists_escapeCode hq c

/-- A character stands for itself in a quoted text, or an escape stands for it. -/
theorem quoteChar_cases (hq : IsMark q) (c : Char) :
    (quoteChar q c = [c] ∧ c ≠ q ∧ c ≠ '\\' ∧ isPrintable c = true) ∨
      ∃ d ds, quoteChar q c = '\\' :: d :: ds ∧ IsEscape q c d ds := by
  unfold quoteChar
  split
  · rename_i h
    subst h
    refine .inr ⟨_, _, rfl, .named ?_ hq.isPrintable⟩
    rcases hq with rfl | rfl <;> rfl
  · rename_i hc
    split
    · exact .inr (exists_escapeChar hq c)
    · rename_i h
      simp only [Bool.or_eq_true, decide_eq_true_eq, Bool.not_eq_true', not_or, Bool.not_eq_false] at h
      exact .inl ⟨rfl, hc, h.1, h.2⟩

theorem isPrintable_of_mem_quoteChar (hq : IsMark q) (h : d ∈ quoteChar q c) : isPrintable d = true := by
  rcases quoteChar_cases hq c with ⟨he, -, -, hc⟩ | ⟨e, es, he, hescape⟩
  · rw [he] at h
    rw [List.mem_singleton.1 h]
    exact hc
  · rw [he] at h
    rcases List.mem_cons.1 h with rfl | h
    · decide
    · exact hescape.printable d h

/-- Everything in a quoted text can be shown, so that there is no line end in it. -/
theorem isPrintable_of_mem_quoteChars (h : d ∈ quoteChars cs) : isPrintable d = true := by
  have hq := isMark_chooseQuote cs
  simp only [quoteChars, List.mem_append, List.mem_cons, List.mem_flatMap, List.not_mem_nil, or_false] at h
  rcases h with (rfl | ⟨c, -, hd⟩) | rfl
  · exact hq.isPrintable
  · exact isPrintable_of_mem_quoteChar hq hd
  · exact hq.isPrintable

theorem not_mem_quoteChars (h : isPrintable d = false) (cs : List Char) : d ∉ quoteChars cs := fun hm =>
  absurd (isPrintable_of_mem_quoteChars hm) (by simp [h])

/-- What a quoted text has between its marks. -/
def quotedChars (q : Char) (cs : List Char) : List Char := cs.flatMap (quoteChar q)

theorem quoteChars_eq (cs : List Char) :
    quoteChars cs = chooseQuote cs :: (quotedChars (chooseQuote cs) cs ++ [chooseQuote cs]) := rfl

/-- It does not start with a mark. -/
theorem exists_quotedChars_cons (hq : IsMark q) (c : Char) (cs : List Char) :
    ∃ d ds, quotedChars q (c :: cs) = d :: ds ∧ d ≠ q := by
  rcases quoteChar_cases hq c with ⟨he, hmark, -, -⟩ | ⟨d, ds, he, -⟩
  · exact ⟨c, quotedChars q cs, by simp [quotedChars, he], hmark⟩
  · exact ⟨'\\', d :: ds ++ quotedChars q cs, by simp [quotedChars, he], hq.ne_backslash.symm⟩

theorem ne_newline_of_isPrintable (h : isPrintable d = true) : d ≠ '\n' := by
  rintro rfl
  revert h
  decide

theorem closeLine_cons (hback : c ≠ '\\') (cs : List Char) :
    closeLine q (c :: cs) = if c = q then some cs else if c = '\n' || c = '\\' then none else closeLine q cs :=
  closeLine.eq_3 _ _ _ fun _ _ he => absurd he hback

theorem closeLine_append (h : ∀ e ∈ ds, e ≠ q ∧ e ≠ '\\' ∧ e ≠ '\n') (cs : List Char) :
    closeLine q (ds ++ cs) = closeLine q cs := by
  induction ds with
  | nil => rfl
  | cons d ds ih =>
    obtain ⟨⟨hq, hback, hend⟩, hds⟩ := List.forall_mem_cons.1 h
    rw [List.cons_append, closeLine_cons hback]
    simp [hq, hback, hend, ih hds]

theorem closeLine_quoteChar (hq : IsMark q) (c : Char) (cs : List Char) :
    closeLine q (quoteChar q c ++ cs) = closeLine q cs := by
  rcases quoteChar_cases hq c with ⟨he, hmark, hback, hc⟩ | ⟨d, ds, he, hescape⟩
  · rw [he]
    exact closeLine_append (by simpa using ⟨hmark, hback, ne_newline_of_isPrintable hc⟩) cs
  · rw [he, List.cons_append, List.cons_append, closeLine]
    refine closeLine_append (fun e hmem => ?_) cs
    obtain ⟨hmark, hback⟩ := hescape.unmarked e hmem
    exact ⟨hmark, hback, ne_newline_of_isPrintable (hescape.printable e (List.mem_cons_of_mem _ hmem))⟩

theorem closeLine_quotedChars (hq : IsMark q) (cs rest : List Char) :
    closeLine q (quotedChars q cs ++ q :: rest) = some rest := by
  induction cs with
  | nil => rw [quotedChars, List.flatMap_nil, List.nil_append, closeLine_cons hq.ne_backslash, if_pos rfl]
  | cons c cs ih =>
    rw [quotedChars, List.flatMap_cons, List.append_assoc, closeLine_quoteChar hq]
    exact ih

/-- After its first mark, a quoted text ends at the second one. -/
theorem stringEnd_quotedChars (hq : IsMark q) (cs rest : List Char) (hrest : rest.head? ≠ some q) :
    stringEnd q (quotedChars q cs ++ q :: rest) = some rest := by
  cases cs with
  | nil =>
    -- Two marks are the beginning of a longer string only if there is a third one.
    cases rest with
    | nil => simp [quotedChars, stringEnd, closeLine]
    | cons d rest =>
      have hd : d ≠ q := by simpa using hrest
      simp [quotedChars, stringEnd, hd]
  | cons c cs =>
    have hclose := closeLine_quotedChars hq (c :: cs) rest
    obtain ⟨d, ds, he, hd⟩ := exists_quotedChars_cons hq c cs
    rw [he, List.cons_append] at hclose ⊢
    cases htail : ds ++ q :: rest with
    | nil => simp at htail
    | cons e es =>
      rw [htail] at hclose
      rw [stringEnd, if_neg hd]
      exact hclose

theorem unescape_skip (ds cs : List Char) : unescape false ds.length (ds ++ cs) = unescape false 0 cs := by
  induction ds with
  | nil => rfl
  | cons d ds ih => exact ih

theorem unescape_quoteChar (hq : IsMark q) (c : Char) (cs : List Char) :
    unescape false 0 (quoteChar q c ++ cs) = (unescape false 0 cs).map (c :: ·) := by
  rcases quoteChar_cases hq c with ⟨he, -, hback, -⟩ | ⟨d, ds, he, hescape⟩
  · rw [he, List.singleton_append, unescape.eq_4 _ _ _ (fun _ _ hc => absurd hc hback)]
    cases unescape false 0 cs <;> rfl
  · rw [he, List.cons_append, List.cons_append, unescape, hescape.meaning]
    simp only [Option.bind_eq_bind, Option.bind_some, unescape_skip]
    cases unescape false 0 cs <;> rfl

/-- The escapes in a quoted text mean the text. -/
theorem unescape_quotedChars (hq : IsMark q) (cs : List Char) : unescape false 0 (quotedChars q cs) = some cs := by
  induction cs with
  | nil => rfl
  | cons c cs ih =>
    rw [quotedChars, List.flatMap_cons, unescape_quoteChar hq]
    simpa [quotedChars] using congrArg (Option.map (c :: ·)) ih

theorem foldNewlines_of_not_mem (h : '\r' ∉ cs) : foldNewlines cs = cs := by
  fun_induction foldNewlines cs with
  | case1 => rfl
  | case2 cs ih => simp at h
  | case3 c cs hne ih =>
    rw [List.mem_cons, not_or] at h
    rw [if_neg (Ne.symm h.1), ih h.2]

end TwinModule.Text
