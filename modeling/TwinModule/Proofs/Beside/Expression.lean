import TwinModule.Grammar.Format
import TwinModule.Proofs.Beside.Reader
/-!
The grammar of expressions does the same beside itself, whatever comes after the text. A format string is read alike if
its fields are, and these are shorter than the string.
-/
set_option autoImplicit false

namespace TwinModule.Grammar
open Reader

theorem literalPart_length {isRaw isOuter : Bool} {cs text rest : List Char} {again : Bool}
    (h : literalPart isRaw isOuter cs = some (text, rest, again)) : rest.length ≤ cs.length := by
  fun_induction literalPart isRaw isOuter cs generalizing text with
  | case1 => simp_all
  | case2 d cs hd ih =>
    simp only [Option.bind_eq_bind, Option.bind_eq_some_iff] at h
    obtain ⟨⟨t, r, a⟩, hr, h⟩ := h
    cases h
    exact Nat.le_succ_of_le (ih hr)
  | case3 d cs hd ih =>
    simp only [Option.bind_eq_bind, Option.bind_eq_some_iff] at h
    obtain ⟨⟨t, r, a⟩, hr, h⟩ := h
    cases h
    exact Nat.le_succ_of_le (Nat.le_succ_of_le (ih hr))
  | case4 c cs _ _ _ =>
    cases h
    exact Nat.le_succ_of_le (by simp)
  | case5 => simp_all
  | case6 => simp_all
  | case7 c cs hc hbrace ih =>
    simp only [Option.bind_eq_bind, Option.bind_eq_some_iff] at h
    obtain ⟨⟨t, r, a⟩, hr, h⟩ := h
    cases h
    exact Nat.le_succ_of_le (ih hr)

/-- What is left after the text of a field starts with what ended it. -/
theorem fieldText?_length {s : FieldScan} {skip : Nat} {cs source rest : List Char}
    (h : fieldText? s skip cs = some (source, rest)) : source.length + rest.length = cs.length ∧ rest ≠ [] := by
  induction cs generalizing s skip source with
  | nil => cases skip <;> cases h
  | cons c cs ih =>
    have hmore : ∀ {s : FieldScan} {skip : Nat},
        (fieldText? s skip cs).map (fun r => (c :: r.1, r.2)) = some (source, rest) →
        source.length + rest.length = (c :: cs).length ∧ rest ≠ [] := by
      intro s skip h
      obtain ⟨⟨t, r⟩, hr, h⟩ := Option.map_eq_some_iff.1 h
      cases h
      obtain ⟨hlength, hne⟩ := ih hr
      exact ⟨by simp only [List.length_cons, ← hlength]; omega, hne⟩
    cases skip with
    | succ n => exact hmore h
    | zero =>
      simp only [fieldText?] at h
      split at h
      · cases h
        simp
      · cases h
      · exact hmore h

/-- Two readings of characters that fail both, or give the same and leave no more than some characters. -/
inductive Shrunk {α : Type} (n : Nat) : Option (α × List Char) → Option (α × List Char) → Prop
  | none : Shrunk n none none
  | some {a : α} {rest : List Char} : rest.length ≤ n → Shrunk n (some (a, rest)) (some (a, rest))

namespace Shrunk

variable {α β γ : Type} {n : Nat}

theorem eq {x x' : Option (α × List Char)} (h : Shrunk n x x') : x = x' := by
  cases h <;> rfl

theorem bind {x x' : Option (α × List Char)} {g g' : α × List Char → Option (β × List Char)} (h : Shrunk n x x')
    (hg : ∀ a rest, rest.length ≤ n → Shrunk n (g (a, rest)) (g' (a, rest))) : Shrunk n (x >>= g) (x' >>= g') := by
  cases h with
  | none => exact .none
  | some hrest => exact hg _ _ hrest

theorem bind_same {x : Option γ} {g g' : γ → Option (β × List Char)}
    (hg : ∀ a, x = Option.some a → Shrunk n (g a) (g' a)) : Shrunk n (x >>= g) (x >>= g') := by
  cases x with
  | none => exact .none
  | some a => exact hg a rfl

theorem ite {c : Prop} [Decidable c] {x x' y y' : Option (α × List Char)} (hx : Shrunk n x x') (hy : Shrunk n y y') :
    Shrunk n (if c then x else y) (if c then x' else y') := by
  split
  · exact hx
  · exact hy

theorem fail_if {c : Prop} [Decidable c] {g g' : PUnit → Option (α × List Char)} (hg : Shrunk n (g ⟨⟩) (g' ⟨⟩)) :
    Shrunk n (if c then Option.none >>= g else g ⟨⟩) (if c then Option.none >>= g' else g' ⟨⟩) :=
  ite .none hg

theorem refl {x : Option (α × List Char)} (hx : ∀ r, x = Option.some r → r.2.length ≤ n) : Shrunk n x x := by
  cases x with
  | none => exact .none
  | some r => exact .some (hx r rfl)

end Shrunk

theorem conversion?_length {cs : List Char} {r : Int × List Char} (h : conversion? cs = some r) :
    r.2.length ≤ cs.length := by
  unfold conversion? at h
  split at h <;> cases h <;> simp

variable {f f' : List Char → Option Expr}

/-- The chunks of a text are the same if its fields are. -/
theorem chunks?_congr (isRaw : Bool) (mark : Option String) (fuel level : Nat) {n : Nat} {cs : List Char}
    (h : ∀ source : List Char, source.length + 2 ≤ n → f source = f' source) (hn : cs.length ≤ n) :
    Shrunk n (chunks? f isRaw mark fuel level cs) (chunks? f' isRaw mark fuel level cs) := by
  induction fuel generalizing level cs with
  | zero => exact .none
  | succ fuel ih =>
    rw [chunks?, chunks?]
    refine .bind_same fun ⟨literal, rest, again⟩ hliteral => .bind_same fun text _ => ?_
    have hlength := Nat.le_trans (literalPart_length hliteral) hn
    refine .ite (.bind (ih level hlength) fun _ _ hrest => .some hrest) ?_
    split
    · rename_i body
      refine .fail_if (.bind_same fun ⟨source, after⟩ hsource => .fail_if ?_)
      obtain ⟨hsum, hne⟩ := fieldText?_length hsource
      have hafter : 0 < after.length := List.length_pos_iff.2 hne
      simp only [List.length_cons] at hlength
      rw [h source (by omega)]
      refine .bind_same fun value _ => ?_
      split
      rename_i shown rest hshown
      have hrest : rest.length ≤ n := by
        split at hshown <;> cases hshown
        · simp only [List.length_drop, List.length_cons] at *
          omega
        · omega
      split
      case' h_1 =>
        refine .bind (.refl fun r hr => Nat.le_trans (conversion?_length hr) (Nat.le_of_succ_le hrest)) ?_
      case' h_2 => refine .bind (.some hrest) ?_
      all_goals
        intro conversion rest hrest
        dsimp only
        split
        case' h_1 => refine .fail_if (.bind (ih (level + 1) (Nat.le_of_succ_le hrest)) fun parts rest hrest => ?_)
        all_goals
          refine .bind (.some hrest) fun spec rest hrest => ?_
          dsimp only
          split
          · exact .bind (ih level (Nat.le_of_succ_le hrest)) fun _ _ hrest => .some hrest
          · exact .none
    · exact .some hlength

theorem tokenChunks_congr (mark : Option String) {t : StringToken}
    (h : ∀ source : List Char, source.length + 2 ≤ t.content.length → f source = f' source) :
    tokenChunks f mark t = tokenChunks f' mark t := by
  rw [tokenChunks, tokenChunks, (chunks?_congr t.isRaw mark _ 0 h (Nat.le_refl _)).eq]

theorem mapM_congr {α β : Type} {g g' : α → Option β} {as : List α} (h : ∀ a ∈ as, g a = g' a) :
    as.mapM g = as.mapM g' := by
  induction as with
  | nil => rfl
  | cons a as ih =>
    rw [List.forall_mem_cons] at h
    rw [List.mapM_cons, List.mapM_cons, h.1, ih h.2]

theorem stringNode_congr {ts : List StringToken}
    (h : ∀ t ∈ ts, ∀ source : List Char, source.length + 2 ≤ t.content.length → f source = f' source) :
    stringNode f ts = stringNode f' ts := by
  have hchunks : ∀ mark, ts.mapM (tokenChunks f mark) = ts.mapM (tokenChunks f' mark) :=
    fun mark => mapM_congr fun t ht => tokenChunks_congr mark (h t ht)
  simp only [stringNode, hchunks]

/-- A string has marks around what is in it. -/
theorem length_content_of {cs : List Char} (h : (StringToken.of cs).content ≠ []) :
    (StringToken.of cs).content.length + 2 ≤ cs.length := by
  have hbetween : ∀ (quoted : List Char) (size : Nat), 1 ≤ size →
      (quoted.drop size).take (quoted.length - 2 * size) ≠ [] →
      ((quoted.drop size).take (quoted.length - 2 * size)).length + 2 ≤ quoted.length := by
    intro quoted size hsize hne
    have hlength := List.length_pos_iff.2 hne
    simp only [List.length_take, List.length_drop] at hlength ⊢
    omega
  refine Nat.le_trans (hbetween (cs.drop (cs.takeWhile Text.isLetter).length) _ ?_ h) (by simp)
  split <;> simp

/-- Two sets of rules do the same in all frames. -/
structure Rules.Agree (S : Stretches) (r r' : Rules) : Prop where
  expression : ∀ {R : Frame}, Strict R S r.expression r'.expression
  disjunction : ∀ {R : Frame}, Strict R S r.disjunction r'.disjunction
  inversion : ∀ {R : Frame}, Strict R S r.inversion r'.inversion
  bitOr : ∀ {R : Frame}, Strict R S r.bitOr r'.bitOr
  factor : ∀ {R : Frame}, Strict R S r.factor r'.factor
  primary : ∀ {R : Frame}, Strict R S r.primary r'.primary

theorem Rules.Agree.mono {S T : Stretches} {r r' : Rules} (h : r.Agree S r') (hT : T ≤ S) : r.Agree T r' :=
  ⟨h.expression.mono hT, h.disjunction.mono hT, h.inversion.mono hT, h.bitOr.mono hT, h.factor.mono hT, h.primary.mono hT⟩

theorem Rules.Agree.below {S : Stretches} {r r' : Rules} (h : r.Agree S r') : r.Agree S.below r' :=
  h.mono Stretches.below_le

variable {R : Frame} {S : Stretches} {r r' : Rules}

theorem strict_starred {p p' : Reader Expr} (hp : Strict R S p p') : Strict R S (starred p) (starred p') :=
  .bind (.word "*") fun _ => .bind hp.rest fun _ => .pure _

theorem strict_tupled {p p' : Reader Expr} (hp : Strict R S p p') : Strict R S (tupled p) (tupled p') :=
  hp.commas.bind fun _ => .pure _

section

variable (hr : r.Agree S r')
include hr

theorem strict_named : Strict R S (named r) (named r') := by
  refine .orElse (.bind .identifier fun id => ?_) (hr.expression.bind fun e => ?_)
  · exact .bind (.word ":=") fun _ => .bind hr.expression.rest fun _ => .pure _
  · exact .bind (.sees ":=") fun _ => .bind (.ensure _) fun _ => .pure _

theorem strict_starNamed : Strict R S (starNamed r) (starNamed r') :=
  .orElse (strict_starred hr.bitOr) ((strict_named hr).map _)

theorem strict_starExpression : Strict R S (starExpression r) (starExpression r') :=
  .orElse (strict_starred hr.bitOr) hr.expression

theorem strict_starExpressions : Strict R S (starExpressions r) (starExpressions r') :=
  strict_tupled (strict_starExpression hr)

theorem strict_yielded : Strict R S (yielded r) (yielded r') := by
  refine .bind (.word "yield") fun _ => .orElse ?_ ?_
  · exact .bind (.word "from") fun _ => .bind hr.expression.rest fun _ => .pure _
  · exact .bind (.maybe (strict_starExpressions hr).rest) fun _ => .pure _

theorem strict_param (typed : Bool) : Strict R S (param r typed) (param r' typed) := by
  refine .bind .identifier fun name => .ite (fun _ => ?_) fun _ => ?_
  · exact .bind (.maybe (.bind (.word ":") fun _ => hr.expression.rest)) fun _ => .pure _
  · exact .bind (.pure none) fun _ => .pure _

theorem strict_variadicParam (typed : Bool) : Strict R S (variadicParam r typed) (variadicParam r' typed) := by
  refine .bind .identifier fun name => .ite (fun _ => ?_) fun _ => ?_
  · exact .bind (.maybe (.bind (.word ":") fun _ => (strict_starExpression hr).rest)) fun _ => .pure _
  · exact .bind (.pure none) fun _ => .pure _

theorem agree_defaultValue : Agree R S (defaultValue r) (defaultValue r') :=
  .maybe (.bind (.word "=") fun _ => hr.expression.agree)

omit hr in
theorem agree_paramEnd (close : String) : Agree R S (paramEnd close) (paramEnd close) := by
  refine .bind (.accept ",") fun isComma => .ite (fun _ => ?_) fun _ => .pure _
  exact .bind (.sees close) fun _ => .ensure _

theorem agree_defaultedParams (typed : Bool) (close : String) :
    Agree R S (defaultedParams r typed close) (defaultedParams r' typed close) := by
  refine .many ((strict_param hr typed).bind fun p => .bind (agree_defaultValue hr.below) fun d => ?_)
  exact .bind (agree_paramEnd close) fun _ => .pure _

theorem agree_kwVariadicParam (typed : Bool) (close : String) :
    Agree R S (kwVariadicParam r typed close) (kwVariadicParam r' typed close) := by
  refine .bind (.accept "**") fun isStarred => .ite (fun _ => ?_) fun _ => .pure _
  exact .bind (strict_param hr typed).agree fun p => .bind (agree_paramEnd close) fun _ => .pure _

theorem agree_params (typed : Bool) (close : String) : Agree R S (params r typed close) (params r' typed close) := by
  refine .bind (agree_defaultedParams hr typed close) fun first => ?_
  refine .ite_bind (.pure false) (.accept "/") fun isSlashed => .when_bind (agree_paramEnd close) fun _ => ?_
  refine .ite_bind (agree_defaultedParams hr typed close) (.pure []) fun second => .bind (.ensure _) fun _ => ?_
  refine .bind ?_ fun x => .bind (agree_kwVariadicParam hr typed close) fun _ => ?_
  · refine .bind (.accept "*") fun isStarred => .ite (fun _ => .bind (.accept ",") fun isComma => ?_) fun _ => .pure _
    refine .ite (fun _ => ?_) fun _ => ?_
    · exact .bind (agree_defaultedParams hr typed close) fun _ => .bind (.ensure _) fun _ => .pure _
    · refine .bind (strict_variadicParam hr typed).agree fun p => .bind (agree_paramEnd close) fun _ => ?_
      exact .bind (agree_defaultedParams hr typed close) fun _ => .pure _
  · exact .bind (.sees close) fun _ => .bind (.ensure _) fun _ => .pure _

theorem strict_starTarget : Strict R S (starTarget r) (starTarget r') :=
  .accept "*" fun _ => hr.primary.bind fun _ => .bind (.lift _) fun _ => .pure _

theorem strict_starTargets : Strict R S (starTargets r) (starTargets r') :=
  (strict_starTarget hr).commas.bind fun _ => .pure _

theorem strict_clause : Strict R S (clause r) (clause r') := by
  refine .accept "async" fun isAsync => .bind (.word "for") fun _ => ?_
  refine .bind (strict_starTargets hr).rest fun target => .bind (.word "in") fun _ => ?_
  refine .bind hr.disjunction.rest fun iter => .bind (.many ?_) fun _ => .pure _
  exact .bind (.word "if") fun _ => hr.disjunction.rest.mono Stretches.below_le

theorem strict_clauses : Strict R S (clauses r) (clauses r') := (strict_clause hr).many1

omit hr in
theorem agree_seesClause : Agree R S seesClause seesClause := .seesAny _

end

/-- What a reader reads between commas, after a comma if there is one. -/
theorem agree_more {α : Type} {p p' : Reader α} (hp : Strict R S p p') :
    Agree R S (maybe (commas p)) (maybe (commas p')) :=
  .maybe hp.commas.agree

section

variable (hr : r.Agree S r')
include hr

theorem strict_dictItem : Strict R S (dictItem r) (dictItem r') := by
  refine .orElse (.bind (.word "**") fun _ => .bind hr.bitOr.rest fun _ => .pure _) (.bind hr.expression fun key => ?_)
  exact .bind (.word ":") fun _ => .bind hr.expression.rest fun _ => .pure _

theorem agree_dictRest (first : Option Expr × Expr) : Agree R S (dictRest r first) (dictRest r' first) := by
  refine .bind (.accept ",") fun isComma => .ite_bind (agree_more (strict_dictItem hr)) (.pure none) fun rest => ?_
  exact .bind (.word _) fun _ => .pure _

theorem agree_setRest (first : Expr) : Agree R S (setRest r first) (setRest r' first) := by
  refine .bind (.accept ",") fun isComma => .ite_bind (agree_more (strict_starNamed hr)) (.pure none) fun rest => ?_
  exact .bind (.word _) fun _ => .pure _

end

section

variable (hr : r.Agree S.below r')
include hr

theorem strict_parenthesized : Strict R S (parenthesized r) (parenthesized r') := by
  refine .bind (.word "(") fun _ => .bind (.accept ")") fun isEmpty => .ite (fun _ => .pure _) fun _ => ?_
  refine .bind (.sees "yield") fun isYield => .ite (fun _ => ?_) fun _ => ?_
  · exact .bind (strict_yielded hr).agree fun _ => .bind (.word ")") fun _ => .pure _
  refine .bind (.sees "*") fun isStarred => .bind (strict_starNamed hr).agree fun first => ?_
  refine .bind agree_seesClause fun isClause => .ite (fun _ => ?_) fun _ => ?_
  · exact .bind (strict_clauses hr).agree fun _ => .bind (.word ")") fun _ => .pure _
  refine .bind (.accept ",") fun isComma => .ite (fun _ => ?_) fun _ => ?_
  · exact .bind (agree_more (strict_starNamed hr)) fun _ => .bind (.word ")") fun _ => .pure _
  · exact .bind (.ensure _) fun _ => .bind (.word ")") fun _ => .pure _

theorem strict_bracketed : Strict R S (bracketed r) (bracketed r') := by
  refine .bind (.word "[") fun _ => .bind (.accept "]") fun isEmpty => .ite (fun _ => .pure _) fun _ => ?_
  refine .bind (.sees "*") fun isStarred => .bind (strict_starNamed hr).agree fun first => ?_
  refine .bind agree_seesClause fun isClause => .ite (fun _ => ?_) fun _ => ?_
  · exact .bind (strict_clauses hr).agree fun _ => .bind (.word "]") fun _ => .pure _
  refine .bind (.accept ",") fun isComma => .ite_bind (agree_more (strict_starNamed hr)) (.pure none) fun rest => ?_
  exact .bind (.word "]") fun _ => .pure _

theorem strict_braced : Strict R S (braced r) (braced r') := by
  refine .bind (.word _) fun _ => .bind (.accept _) fun isEmpty => .ite (fun _ => .pure _) fun _ => ?_
  refine .bind (.sees "**") fun isMapping => .ite (fun _ => ?_) fun _ => ?_
  · exact .bind (strict_dictItem hr).agree fun first => agree_dictRest hr first
  refine .bind (.sees "*") fun isStarred => .ite (fun _ => ?_) fun _ => ?_
  · exact .bind (strict_starNamed hr).agree fun first => agree_setRest hr first
  refine .bind (strict_named hr).agree fun first => .bind (.accept ":") fun isMapping => .ite (fun _ => ?_) fun _ => ?_
  · refine .bind hr.expression.agree fun value => .bind agree_seesClause fun isClause => .ite (fun _ => ?_) fun _ => ?_
    · exact .bind (strict_clauses hr).agree fun _ => .bind (.word _) fun _ => .pure _
    · exact agree_dictRest hr _
  · refine .bind agree_seesClause fun isClause => .ite (fun _ => ?_) fun _ => agree_setRest hr _
    exact .bind (strict_clauses hr).agree fun _ => .bind (.word _) fun _ => .pure _

end

theorem kind_ne_of_isLayout {t : Token} (ht : t.isLayout = true) :
    (t.kind == .name) = false ∧ (t.kind == .number) = false ∧ (t.kind == .string) = false := by
  cases h : t.kind <;> simp_all [Token.isLayout]

theorem strict_nameAtom : Strict R S nameAtom nameAtom := by
  refine .bind (.take fun t ht => (kind_ne_of_isLayout ht).1) fun t => ?_
  refine .ite (fun _ => .pure _) fun _ => .ite (fun _ => .pure _) fun _ => .ite (fun _ => .pure _) fun _ => ?_
  exact .bind (.ensure _) fun _ => .pure _

theorem strict_numberAtom : Strict R S numberAtom numberAtom :=
  .bind (.take fun _ ht => (kind_ne_of_isLayout ht).2.1) fun _ => .bind (.lift _) fun _ => .pure _

/-- The fields in the strings of a stretch are read in the same way. -/
structure FieldsAgree (S : Stretches) (r r' : Rules) : Prop where
  eq : ∀ {us : List Token}, S.mem us → ∀ t ∈ us, ∀ source : List Char, source.length + 3 < t.text.length →
    fieldExpr r source = fieldExpr r' source

theorem FieldsAgree.refl (S : Stretches) (r : Rules) : FieldsAgree S r r := ⟨fun _ _ _ _ _ => rfl⟩

theorem FieldsAgree.mono {T : Stretches} (h : FieldsAgree S r r') (hT : T ≤ S) : FieldsAgree T r r' :=
  ⟨fun hus => h.eq (hT hus)⟩

theorem mem_of_manyUpTo_take {ok : Token → Bool} (hok : ∀ t, t.isLayout = true → ok t = false) {n : Nat}
    {us ts ts' as : List Token} {last : Place} {j : Input} (hrel : R.rel us ts ts')
    (h : manyUpTo (take ok) n ⟨ts, last⟩ = some (as, j)) : ∀ t ∈ as, t ∈ us := by
  induction n generalizing us ts ts' as last with
  | zero =>
    cases h
    simp
  | succ n ih =>
    have hnone : ∀ {t : Token} {vs : List Token}, ok t = false →
        manyUpTo (take ok) (n + 1) ⟨t :: vs, last⟩ = some ([], ⟨t :: vs, last⟩) := fun hokt => by
      rw [manyUpTo, bind_of_some (maybe_of_none (by simp [take, hokt]))]
      rfl
    cases R.heads hrel with
    | @text t us vs vs' _ htail =>
      cases hokt : ok t with
      | false =>
        cases (hnone hokt).symm.trans h
        simp
      | true =>
        have hfound : take ok ⟨t :: vs, last⟩ = some (t, ⟨vs, if t.isLayout then last else t.stop⟩) := by
          simp [take, hokt]
        rw [manyUpTo, bind_of_some (maybe_of_some hfound)] at h
        obtain ⟨rest, k, hrest, h⟩ := Reader.bind_eq_some h
        cases h
        have hmem := ih htail hrest
        simp only [List.mem_cons]
        rintro t (rfl | ht)
        · exact .inl rfl
        · exact .inr (hmem t ht)
    | layout ht _ _ =>
      cases (hnone (hok _ ht)).symm.trans h
      simp

/-- Tokens of one kind next to each other come from the stretch where they are read. -/
theorem mem_of_many1_take {ok : Token → Bool} (hok : ∀ t, t.isLayout = true → ok t = false)
    {us ts ts' as : List Token} {last : Place} {j : Input} (hrel : R.rel us ts ts')
    (h : many1 (take ok) ⟨ts, last⟩ = some (as, j)) : ∀ t ∈ as, t ∈ us := by
  obtain ⟨t, i, ht, h⟩ := Reader.bind_eq_some h
  obtain ⟨rest, k, hrest, h⟩ := Reader.bind_eq_some h
  cases h
  cases R.heads hrel with
  | @text t' us vs vs' _ htail =>
    simp only [take] at ht
    split at ht
    · cases ht
      have hmem := mem_of_manyUpTo_take hok htail hrest
      simp only [List.mem_cons]
      rintro t (rfl | ht)
      · exact .inl rfl
      · exact .inr (hmem t ht)
    · cases ht
  | layout hlayout _ _ =>
    simp [take, hok _ hlayout] at ht

theorem strict_strings (hf : FieldsAgree S r r') : Strict R S (strings r) (strings r') := by
  have hstring : ∀ t : Token, t.isLayout = true → (t.kind == .string) = false := fun _ ht => (kind_ne_of_isLayout ht).2.2
  refine .bind_of (P := fun ts => ∀ t ∈ ts, ∀ source : List Char, source.length + 3 < t.text.length →
    fieldExpr r source = fieldExpr r' source) (.many1 (.take hstring)) (fun hus hrel h t ht => ?_) fun ts hts => ?_
  · exact hf.eq hus t (mem_of_many1_take hstring hrel h t ht)
  · have hnode : stringNode (fieldExpr r) (ts.map fun t => StringToken.of t.text.toList) =
        stringNode (fieldExpr r') (ts.map fun t => StringToken.of t.text.toList) := by
      refine stringNode_congr fun s hs source hsource => ?_
      obtain ⟨t, ht, rfl⟩ := List.mem_map.1 hs
      have hne : (StringToken.of t.text.toList).content ≠ [] := by
        rintro hnil
        simp [hnil] at hsource
      have hlength := length_content_of hne
      rw [String.length_toList] at hlength
      exact hts t ht source (by omega)
    rw [hnode]
    exact .lift _

section

variable (hr : r.Agree S.below r') (hf : FieldsAgree S r r')
include hr

include hf in
theorem strict_atom : Strict R S (atom r) (atom r') := by
  refine .peek fun t => ?_
  split
  · exact strict_nameAtom
  · exact strict_numberAtom
  · exact strict_strings hf
  · refine .ite (fun _ => strict_parenthesized hr) fun _ => .ite (fun _ => strict_bracketed hr) fun _ => ?_
    exact .ite (fun _ => strict_braced hr) fun _ => .bind (.word "...") fun _ => .pure _

end

section

variable (hr : r.Agree S r')
include hr

theorem agree_arg (stage : ArgStage) : Agree R S (arg r stage) (arg r' stage) := by
  refine .bind (.accept "**") fun isMapping => .ite (fun _ => .bind hr.expression.agree fun _ => .pure _) fun _ => ?_
  refine .bind (.sees "*") fun isStarred => .ite (fun _ => .bind (.ensure _) fun _ => ?_) fun _ => ?_
  · exact .bind (strict_starred hr.expression).agree fun _ => .pure _
  refine .bind .seesKeyword fun isKeyword => .ite (fun _ => ?_) fun _ => .bind (.ensure _) fun _ => ?_
  · exact .bind .identifier fun _ => .bind (.word "=") fun _ => .bind hr.expression.agree fun _ => .pure _
  · exact .bind (strict_named hr).agree fun _ => .bind (.sees "=") fun _ => .bind (.ensure _) fun _ => .pure _

theorem agree_argsUpTo (stage : ArgStage) (n n' : Nat) :
    Agree R (S.within n n') (argsUpTo r stage n) (argsUpTo r' stage n') := by
  induction n generalizing stage n' with
  | zero => exact .of_within_zero
  | succ n ih =>
    cases n' with
    | zero => exact .of_within_zero'
    | succ n' =>
      refine .bind (.sees ")") fun isClosed => .ite (fun _ => .pure _) fun _ => ?_
      refine .bind ((agree_arg hr stage).mono Stretches.within_le) fun x => .accept_bind "," ?_ (.pure _)
      exact .bind ((ih _ _).mono Stretches.below_within_le) fun _ => .pure _

theorem agree_arguments : Agree R S (arguments r) (arguments r') :=
  .remaining fun n n' => .bind (agree_argsUpTo hr .positional n n') fun _ => .pure _

theorem agree_callArguments : Agree R S (callArguments r) (callArguments r') := by
  refine .bind (.seesAny _) fun isSpecial => .bind .seesKeyword fun isKeyword => ?_
  refine .ite (fun _ => agree_arguments hr) fun _ => .bind (strict_named hr).agree fun x => ?_
  refine .bind agree_seesClause fun isClause => .ite (fun _ => ?_) fun _ => ?_
  · exact .bind (strict_clauses hr).agree fun _ => .pure _
  refine .bind (.sees "=") fun _ => .bind (.ensure _) fun _ => .bind (.accept ",") fun isComma => ?_
  exact .ite (fun _ => .bind (agree_arguments hr) fun _ => .pure _) fun _ => .pure _

omit hr in
/-- The rest of a slice after its first colon. -/
def boundedSlice (r : Rules) (lower : Option Expr) : Reader Expr := do
  let upper ← maybe r.expression
  let step ← if ← accept ":" then maybe r.expression else pure none
  return .slice lower upper step

theorem agree_boundedSlice (lower : Option Expr) : Agree R S (boundedSlice r lower) (boundedSlice r' lower) :=
  .bind (.maybe hr.expression.agree) fun _ => .bind (.accept ":") fun _ =>
    .ite_bind (.maybe hr.expression.agree) (.pure none) fun _ => .pure _

theorem strict_slice : Strict R S (slice r) (slice r') := by
  refine .sees ":" fun isOpen => .ite (fun _ => ?_) fun _ => ((strict_named hr).map some).bind fun lower => ?_
  · simp only [pure_bind]
    exact .accept_bind ":" (agree_boundedSlice hr.below none) .lift_none
  · rcases lower with _ | ⟨e, _ | _⟩
    · exact .bind (.accept ":") fun isSlice => .ite (fun _ => agree_boundedSlice hr.below none) fun _ => .lift _
    · exact .bind (.accept ":") fun isSlice => .ite (fun _ => agree_boundedSlice hr.below (some e)) fun _ => .lift _
    · exact .pure e

theorem strict_slices : Strict R S (slices r) (slices r') :=
  .sees "*" fun _ => .bind (.commas (.orElse (strict_starred hr.expression) (strict_slice hr))) fun _ => .pure _

theorem strict_trailer (e : Expr) : Strict R S (trailer r e) (trailer r' e) := by
  refine .accept_bind "." (.bind .identifier fun _ => .pure _) (.accept_bind "[" ?_ (.bind (.word "(") fun _ => ?_))
  · exact .bind (strict_slices hr).rest fun key => .bind (.word "]") fun _ => .pure _
  · exact .bind (agree_callArguments hr.below) fun _ => .bind (.word ")") fun _ => .pure _

theorem agree_trailersUpTo (n n' : Nat) (e : Expr) :
    Agree R (S.within n n') (trailersUpTo r n e) (trailersUpTo r' n' e) := by
  induction n generalizing n' e with
  | zero => exact .of_within_zero
  | succ n ih =>
    cases n' with
    | zero => exact .of_within_zero'
    | succ n' =>
      refine .bind (.seesAny _) fun isMore => .ite (fun _ => ?_) fun _ => .pure _
      refine (((strict_trailer hr e).mono Stretches.within_le).bind fun e => ?_).agree
      exact (ih n' e).mono Stretches.below_within_le

end

section

variable (hr : r.Agree S.below r') (hf : FieldsAgree S r r')
include hr hf

theorem strict_primary : Strict R S (primary r) (primary r') :=
  (strict_atom hr hf).bind fun e => .remaining fun n n' => agree_trailersUpTo hr n n' e

theorem strict_power : Strict R S (power r) (power r') := by
  refine .accept "await" fun isAwait => (strict_primary hr hf).bind fun e => .bind (.accept "**") fun isPower => ?_
  exact .ite (fun _ => .bind hr.factor.agree fun _ => .pure _) fun _ => .pure _

theorem strict_factor : Strict R S (factor r) (factor r') := by
  have hsign : ∀ op, Agree R S.below (do return Expr.unary op (← r.factor)) (do return Expr.unary op (← r'.factor)) :=
    fun _ => .bind hr.factor.agree fun _ => .pure _
  exact .accept_bind "+" (hsign _) (.accept_bind "-" (hsign _) (.accept_bind "~" (hsign _) (strict_power hr hf)))

omit hr hf in
theorem strict_operatorOf (ops : List BinaryOp) : Strict R S (operatorOf ops) (operatorOf ops) :=
  .bind (.take fun t ht => by simp [is_of_isLayout ht]) fun _ => .lift _

omit hr hf in
theorem strict_binaryLevel (ops : List BinaryOp) {p p' : Reader Expr} (hp : Strict R S p p') :
    Strict R S (binaryLevel ops p) (binaryLevel ops p') :=
  .leftAssoc (strict_operatorOf ops) hp

theorem strict_bitOr : Strict R S (bitOr r) (bitOr r') :=
  strict_binaryLevel _ (strict_binaryLevel _ (strict_binaryLevel _ (strict_binaryLevel _ (strict_binaryLevel _
    (strict_binaryLevel _ (strict_factor hr hf))))))

omit hr hf in
theorem strict_compareOp : Strict R S compareOp compareOp := by
  refine .accept_bind "not" (.bind (.word "in") fun _ => .pure _) (.accept_bind "is" ?_ ?_)
  · exact .bind (.accept "not") fun _ => .pure _
  · exact .bind (.take fun t ht => by simp [is_of_isLayout ht]) fun _ => .lift _

theorem strict_comparison : Strict R S (comparison r) (comparison r') := by
  refine (strict_bitOr hr hf).bind fun left => .bind (.many ?_) fun _ => .pure _
  exact .bind strict_compareOp fun op => .bind ((strict_bitOr hr hf).rest.mono Stretches.below_le) fun _ => .pure _

theorem strict_inversion : Strict R S (inversion r) (inversion r') :=
  .accept_bind "not" (.bind hr.inversion.agree fun _ => .pure _) (strict_comparison hr hf)

theorem strict_conjunction : Strict R S (conjunction r) (conjunction r') :=
  ((strict_inversion hr hf).sepBy1 "and").bind fun _ => .pure _

theorem strict_disjunction : Strict R S (disjunction r) (disjunction r') :=
  ((strict_conjunction hr hf).sepBy1 "or").bind fun _ => .pure _

omit hf in
theorem strict_lambda : Strict R S (lambda r) (lambda r') := by
  refine .bind (.word "lambda") fun _ => .bind (agree_params hr false ":") fun ps => .bind (.word ":") fun _ => ?_
  exact .bind hr.expression.agree fun _ => .pure _

theorem strict_expression : Strict R S (expression r) (expression r') := by
  refine .sees "lambda" fun isLambda => .ite (fun _ => strict_lambda hr) fun _ => ?_
  refine (strict_disjunction hr hf).bind fun body => .orElse (.bind (.word "if") fun _ => ?_) (.pure body)
  refine .bind (strict_disjunction hr hf).rest fun test => .bind (.word "else") fun _ => ?_
  exact .bind hr.expression.agree fun _ => .pure _

/-- If rules do the same within a stretch, then the next rules do so on all of it. -/
theorem Rules.Agree.next : r.next.Agree S r'.next :=
  ⟨strict_expression hr hf, strict_disjunction hr hf, strict_inversion hr hf, strict_bitOr hr hf, strict_factor hr hf,
    strict_primary hr hf⟩

end

end TwinModule.Grammar
