import TwinModule.Grammar.Expression
/-!
Two readers side by side. What they read is the same up to places where only the layout is alike, and what is beyond the
last of these places must not make a difference.
-/
set_option autoImplicit false

namespace TwinModule.Grammar

/-- Families of token lists, with every end of each list. -/
structure Stretches where
  mem : List Token → Prop
  tail : ∀ {t us}, mem (t :: us) → mem us

namespace Stretches

instance : LE Stretches := ⟨fun T S => ∀ {us}, T.mem us → S.mem us⟩

/-- All lists. -/
def all : Stretches := ⟨fun _ => True, fun _ => trivial⟩

/-- The ends that are not all of a list. -/
def below (S : Stretches) : Stretches := ⟨fun us => ∃ t, S.mem (t :: us), fun ⟨_, h⟩ => ⟨_, S.tail h⟩⟩

/-- The lists that are shorter than two bounds. -/
def within (S : Stretches) (n n' : Nat) : Stretches :=
  ⟨fun us => S.mem us ∧ us.length < n ∧ us.length < n', fun ⟨h, hn, hn'⟩ =>
    ⟨S.tail h, Nat.lt_of_succ_lt hn, Nat.lt_of_succ_lt hn'⟩⟩

variable {S T : Stretches} {t : Token} {us vs : List Token}

theorem of_suffix (h : S.mem us) (hs : vs <:+ us) : S.mem vs := by
  obtain ⟨front, rfl⟩ := hs
  induction front with
  | nil => exact h
  | cons t front ih => exact ih (S.tail h)

theorem below_of_suffix (h : S.mem us) (hs : vs <:+ us) (hlt : vs.length < us.length) : S.below.mem vs := by
  obtain ⟨front, rfl⟩ := hs
  rcases List.eq_nil_or_concat front with rfl | ⟨front, t, rfl⟩
  · simp at hlt
  · exact ⟨t, of_suffix h ⟨front, by simp⟩⟩

theorem below_le : S.below ≤ S := fun ⟨_, h⟩ => S.tail h

theorem within_le {n n' : Nat} : S.within n n' ≤ S := fun h => h.1

theorem not_mem_within_zero {n : Nat} (us : List Token) : ¬(S.within 0 n).mem us := fun h => Nat.not_lt_zero _ h.2.1

theorem not_mem_within_zero' {n : Nat} (us : List Token) : ¬(S.within n 0).mem us := fun h => Nat.not_lt_zero _ h.2.2

theorem below_within_le {n n' : Nat} : (S.within (n + 1) (n' + 1)).below ≤ S.within n n' := by
  rintro us ⟨t, h, hn, hn'⟩
  exact ⟨S.tail h, Nat.lt_of_succ_lt_succ hn, Nat.lt_of_succ_lt_succ hn'⟩

end Stretches

/-- What two token lists start with: the same token, or tokens of layout that are alike. -/
inductive Heads (rel : List Token → List Token → List Token → Prop) : List Token → List Token → List Token → Prop
  | text {t : Token} {us ts ts' : List Token} : t.isLayout = false → rel us ts ts' →
    Heads rel (t :: us) (t :: ts) (t :: ts')
  | layout {t t' : Token} {us ts ts' : List Token} : t.isLayout = true → t'.kind = t.kind → t'.text = t.text →
    Heads rel us (t :: ts) (t' :: ts')

/-- Pairs of token lists, with the text that both have before the place where they part. -/
structure Frame where
  rel : List Token → List Token → List Token → Prop
  heads : ∀ {us ts ts'}, rel us ts ts' → Heads rel us ts ts'
  length_lt : ∀ {us ts ts'}, rel us ts ts' → us.length < ts.length ∧ us.length < ts'.length

section

variable {t t' : Token}

theorem isLayout_of_kind (h : t'.kind = t.kind) : t'.isLayout = t.isLayout := by
  simp only [Token.isLayout, h]

theorem is_of_isLayout (h : t.isLayout = true) (w : String) : t.is w = false := by
  cases hk : t.kind <;> simp_all [Token.isLayout, Token.is]

theorem isIdentifier_of_isLayout (h : t.isLayout = true) : t.isIdentifier = false := by
  cases hk : t.kind <;> simp_all [Token.isLayout, Token.isIdentifier]

end

namespace Reader

variable {α β : Type}

/-- Where some text ends that comes after a place. -/
def endOf (last : Place) (us : List Token) : Place := us.foldl (fun _ t => t.stop) last

/-- What is left of some text, and where the text before it ends. -/
def Left (us : List Token) (last : Place) (ws : List Token) (last' : Place) : Prop :=
  ∃ front, us = front ++ ws ∧ last' = endOf last front

/-- What is left of some text is not all of it. -/
def LeftLess (us ws : List Token) (last : Place) : Prop :=
  ∃ t front, us = t :: front ++ ws ∧ last = endOf t.stop front

theorem Left.refl (us : List Token) (last : Place) : Left us last us last := ⟨[], rfl, rfl⟩

theorem Left.suffix {us ws : List Token} {last last' : Place} (h : Left us last ws last') : ws <:+ us := by
  obtain ⟨front, rfl, -⟩ := h
  exact List.suffix_append ..

theorem Left.trans {us vs ws : List Token} {last last' last'' : Place} (h : Left us last vs last')
    (h' : Left vs last' ws last'') : Left us last ws last'' := by
  obtain ⟨front, rfl, rfl⟩ := h
  obtain ⟨front', rfl, rfl⟩ := h'
  exact ⟨front ++ front', (List.append_assoc ..).symm, (List.foldl_append ..).symm⟩

namespace LeftLess

variable {us vs ws : List Token} {last last' : Place}

theorem cons (t : Token) (us : List Token) : LeftLess (t :: us) us t.stop := ⟨t, [], rfl, rfl⟩

theorem left (h : LeftLess us ws last) (before : Place) : Left us before ws last := by
  obtain ⟨t, front, rfl, rfl⟩ := h
  exact ⟨t :: front, rfl, rfl⟩

theorem suffix (h : LeftLess us ws last) : ws <:+ us := (h.left last).suffix

theorem length_lt (h : LeftLess us ws last) : ws.length < us.length := by
  obtain ⟨t, front, rfl, -⟩ := h
  simp only [List.cons_append, List.length_cons, List.length_append]
  omega

theorem trans (h : LeftLess us vs last) (h' : Left vs last ws last') : LeftLess us ws last' := by
  obtain ⟨t, front, rfl, rfl⟩ := h
  obtain ⟨front', rfl, rfl⟩ := h'
  exact ⟨t, front ++ front', by simp, (List.foldl_append ..).symm⟩

end LeftLess

/-- Two readings that fail both, or that give the same and leave related tokens. -/
inductive Both (rel : List Token → List Token → List Token → Prop) (left : List Token → Place → Prop) :
    Option (α × Input) → Option (α × Input) → Prop
  | fail : Both rel left none none
  | read {a : α} {us ts ts' : List Token} {last : Place} : left us last → rel us ts ts' →
    Both rel left (some (a, ⟨ts, last⟩)) (some (a, ⟨ts', last⟩))

theorem Both.imp {rel : List Token → List Token → List Token → Prop} {left left' : List Token → Place → Prop}
    {x x' : Option (α × Input)} (h : Both rel left x x') (hleft : ∀ us last, left us last → left' us last) :
    Both rel left' x x' := by
  cases h with
  | fail => exact .fail
  | read hus hrel => exact .read (hleft _ _ hus) hrel

/-- Two readers do the same in a frame. -/
structure Agree (R : Frame) (S : Stretches) (p p' : Reader α) : Prop where
  reads : ∀ {us ts ts'} (last : Place), S.mem us → R.rel us ts ts' →
    Both R.rel (Left us last) (p ⟨ts, last⟩) (p' ⟨ts', last⟩)

/-- A reader that reads nothing where there is only layout. -/
def Refuses (p : Reader α) : Prop :=
  ∀ (t : Token) (ts : List Token) (last : Place), t.isLayout = true → p ⟨t :: ts, last⟩ = none

/-- Two readers do the same, and they start with text; where the text before it ended does not matter then. -/
structure Strict (R : Frame) (S : Stretches) (p p' : Reader α) : Prop where
  reads : ∀ {us ts ts'} (last last' : Place), S.mem us → R.rel us ts ts' →
    Both R.rel (LeftLess us) (p ⟨ts, last⟩) (p' ⟨ts', last'⟩)
  refuses : Refuses p
  refuses' : Refuses p'

theorem bind_of_none {p : Reader α} {f : α → Reader β} {i : Input} (h : p i = none) : (p >>= f) i = none := by
  simp [Bind.bind, StateT.bind, h]

theorem bind_of_some {p : Reader α} {f : α → Reader β} {i j : Input} {a : α} (h : p i = some (a, j)) :
    (p >>= f) i = f a j := by
  simp [Bind.bind, StateT.bind, h]

theorem bind_eq_some {p : Reader α} {f : α → Reader β} {i k : Input} {b : β} (h : (p >>= f) i = some (b, k)) :
    ∃ a j, p i = some (a, j) ∧ f a j = some (b, k) := by
  cases hp : p i with
  | none =>
    rw [bind_of_none hp] at h
    cases h
  | some r => exact ⟨r.1, r.2, rfl, (bind_of_some hp).symm.trans h⟩

/-- What follows two readings that do the same. -/
theorem Both.bind {rel rel' : List Token → List Token → List Token → Prop} {left left' : List Token → Place → Prop}
    {p p' : Reader α} {f f' : α → Reader β} {i i' : Input} (hp : Both rel left (p i) (p' i'))
    (hf : ∀ {a us ts ts' last}, p i = some (a, ⟨ts, last⟩) → left us last → rel us ts ts' →
      Both rel' left' (f a ⟨ts, last⟩) (f' a ⟨ts', last⟩)) : Both rel' left' ((p >>= f) i) ((p' >>= f') i') := by
  generalize hx : p i = x at hp
  generalize hx' : p' i' = x' at hp
  cases hp with
  | fail =>
    rw [bind_of_none hx, bind_of_none hx']
    exact .fail
  | read hleft hrel =>
    rw [bind_of_some hx, bind_of_some hx']
    exact hf hx hleft hrel

theorem orElse_of_none {p q : Reader α} {i : Input} (h : p i = none) : (p <|> q) i = q i := by
  simp [HOrElse.hOrElse, OrElse.orElse, Alternative.orElse, StateT.orElse, h]

theorem orElse_of_some {p q : Reader α} {i : Input} {r : α × Input} (h : p i = some r) : (p <|> q) i = some r := by
  simp [HOrElse.hOrElse, OrElse.orElse, Alternative.orElse, StateT.orElse, h]

/-- What is read if two readings that do the same both fail. -/
theorem Both.orElse {rel : List Token → List Token → List Token → Prop} {left : List Token → Place → Prop}
    {p p' q q' : Reader α} {i i' : Input} (hp : Both rel left (p i) (p' i')) (hq : Both rel left (q i) (q' i')) :
    Both rel left ((p <|> q) i) ((p' <|> q') i') := by
  generalize hx : p i = x at hp
  generalize hx' : p' i' = x' at hp
  cases hp with
  | fail =>
    rw [orElse_of_none hx, orElse_of_none hx']
    exact hq
  | read hleft hrel =>
    rw [orElse_of_some hx, orElse_of_some hx']
    exact .read hleft hrel

theorem maybe_of_none {p : Reader α} {i : Input} (h : p i = none) : maybe p i = some (none, i) :=
  orElse_of_none (by rw [map_eq_pure_bind]; exact bind_of_none h)

theorem maybe_of_some {p : Reader α} {i j : Input} {a : α} (h : p i = some (a, j)) : maybe p i = some (some a, j) :=
  orElse_of_some (by rw [map_eq_pure_bind]; exact bind_of_some h)

namespace Refuses

theorem bind {p : Reader α} {f : α → Reader β} (hp : Refuses p) : Refuses (p >>= f) :=
  fun t ts last ht => bind_of_none (hp t ts last ht)

theorem orElse {p q : Reader α} (hp : Refuses p) (hq : Refuses q) : Refuses (p <|> q) := by
  intro t ts last ht
  rw [orElse_of_none (hp t ts last ht), hq t ts last ht]

theorem take {ok : Token → Bool} (h : ∀ t, t.isLayout = true → ok t = false) : Refuses (take ok) := by
  intro t ts last ht
  simp [Reader.take, h t ht]

theorem failure : Refuses (failure : Reader α) := fun _ _ _ _ => rfl

theorem word (w : String) : Refuses (word w) := bind (take fun _ ht => is_of_isLayout ht w)

theorem accept_bind {w : String} {f : Bool → Reader α} (hf : Refuses (f false)) : Refuses (accept w >>= f) := by
  intro t ts last ht
  have hsees : accept w ⟨t :: ts, last⟩ = some (false, ⟨t :: ts, last⟩) := by
    rw [accept, bind_of_some (a := false) (j := ⟨t :: ts, last⟩)]
    · rfl
    · exact congrArg (fun b => some (b, _)) (is_of_isLayout ht w)
  rw [bind_of_some hsees]
  exact hf t ts last ht

end Refuses

variable {R : Frame} {S T : Stretches} {p p' q q' : Reader α} {f f' : α → Reader β}

theorem Strict.agree (h : Strict R S p p') : Agree R S p p' :=
  ⟨fun last hus hrel => (h.reads last last hus hrel).imp fun _ _ hvs => hvs.left last⟩

/-- What starts with text agrees on what is left after other text. -/
theorem Strict.rest (h : Strict R S p p') : Agree R S.below p p' :=
  ⟨fun last hus => h.agree.reads last (Stretches.below_le hus)⟩

theorem Agree.mono (h : Agree R S p p') (hT : T ≤ S) : Agree R T p p' :=
  ⟨fun last hus => h.reads last (hT hus)⟩

theorem Strict.mono (h : Strict R S p p') (hT : T ≤ S) : Strict R T p p' :=
  ⟨fun last last' hus => h.reads last last' (hT hus), h.refuses, h.refuses'⟩

namespace Agree

theorem pure (a : α) : Agree R S (pure a) (pure a) :=
  ⟨fun _ _ hrel => .read (.refl ..) hrel⟩

theorem failure : Agree R S (failure : Reader α) failure := ⟨fun _ _ _ => .fail⟩

theorem ensure (c : Bool) : Agree R S (ensure c) (ensure c) := by
  unfold Reader.ensure
  split
  · exact pure ()
  · exact failure

theorem lift (x : Option α) : Agree R S (lift x) (lift x) := by
  refine ⟨fun last _ hrel => ?_⟩
  cases x with
  | none => exact .fail
  | some a => exact .read (.refl ..) hrel

theorem lastEnd : Agree R S lastEnd lastEnd :=
  ⟨fun _ _ hrel => .read (.refl ..) hrel⟩

theorem bind (hp : Agree R S p p') (hf : ∀ a, Agree R S (f a) (f' a)) : Agree R S (p >>= f) (p' >>= f') := by
  refine ⟨fun last hus hrel => (hp.reads last hus hrel).bind fun _ hleft hrel => ?_⟩
  exact ((hf _).reads _ (Stretches.of_suffix hus hleft.suffix) hrel).imp fun _ _ => hleft.trans

theorem map (g : α → β) (hp : Agree R S p p') : Agree R S (g <$> p) (g <$> p') := by
  rw [map_eq_pure_bind, map_eq_pure_bind]
  exact hp.bind fun a => pure (g a)

theorem orElse (hp : Agree R S p p') (hq : Agree R S q q') : Agree R S (p <|> q) (p' <|> q') :=
  ⟨fun last hus hrel => (hp.reads last hus hrel).orElse (hq.reads last hus hrel)⟩

theorem maybe (hp : Agree R S p p') : Agree R S (maybe p) (maybe p') := orElse (map some hp) (pure none)

theorem ite {c : Prop} [Decidable c] (hp : c → Agree R S p p') (hq : ¬c → Agree R S q q') :
    Agree R S (if c then p else q) (if c then p' else q') := by
  by_cases h : c
  · rw [if_pos h, if_pos h]
    exact hp h
  · rw [if_neg h, if_neg h]
    exact hq h

/-- What comes after one of two things. -/
theorem ite_bind {c : Prop} [Decidable c] (hp : Agree R S p p') (hq : Agree R S q q')
    (hf : ∀ a, Agree R S (f a) (f' a)) :
    Agree R S (if c then p >>= f else q >>= f) (if c then p' >>= f' else q' >>= f') :=
  ite (fun _ => hp.bind hf) fun _ => hq.bind hf

/-- What comes after something that is read only in some cases. -/
theorem when_bind {c : Prop} [Decidable c] {p p' : Reader Unit} {f f' : Unit → Reader β} (hp : Agree R S p p')
    (hf : ∀ a, Agree R S (f a) (f' a)) : Agree R S (if c then p >>= f else f ()) (if c then p' >>= f' else f' ()) :=
  ite (fun _ => hp.bind hf) fun _ => hf ()

end Agree

namespace Strict

/-- What follows may depend on what is known of everything that is read. -/
theorem bind_of {P : α → Prop} (hp : Strict R S p p')
    (hP : ∀ {us ts ts' last a j}, S.mem us → R.rel us ts ts' → p ⟨ts, last⟩ = some (a, j) → P a)
    (hf : ∀ a, P a → Agree R S.below (f a) (f' a)) : Strict R S (p >>= f) (p' >>= f') := by
  refine ⟨fun last last' hus hrel => ?_, hp.refuses.bind, hp.refuses'.bind⟩
  refine (hp.reads last last' hus hrel).bind fun hx hleft hrest => ?_
  have hbelow := Stretches.below_of_suffix hus hleft.suffix hleft.length_lt
  exact ((hf _ (hP hus hrel hx)).reads _ hbelow hrest).imp fun _ _ => hleft.trans

theorem bind (hp : Strict R S p p') (hf : ∀ a, Agree R S.below (f a) (f' a)) : Strict R S (p >>= f) (p' >>= f') :=
  hp.bind_of (P := fun _ => True) (fun _ _ _ => trivial) fun a _ => hf a

theorem map (g : α → β) (hp : Strict R S p p') : Strict R S (g <$> p) (g <$> p') := by
  rw [map_eq_pure_bind, map_eq_pure_bind]
  exact hp.bind fun a => .pure (g a)

theorem orElse (hp : Strict R S p p') (hq : Strict R S q q') : Strict R S (p <|> q) (p' <|> q') :=
  ⟨fun last last' hus hrel => (hp.reads last last' hus hrel).orElse (hq.reads last last' hus hrel),
    hp.refuses.orElse hq.refuses, hp.refuses'.orElse hq.refuses'⟩

theorem failure : Strict R S (failure : Reader α) failure := ⟨fun _ _ _ _ => .fail, .failure, .failure⟩

theorem ite {c : Prop} [Decidable c] (hp : c → Strict R S p p') (hq : ¬c → Strict R S q q') :
    Strict R S (if c then p else q) (if c then p' else q') := by
  by_cases h : c
  · rw [if_pos h, if_pos h]
    exact hp h
  · rw [if_neg h, if_neg h]
    exact hq h

/-- A token of text is the same for both. -/
theorem take {ok : Token → Bool} (h : ∀ t, t.isLayout = true → ok t = false) : Strict R S (take ok) (take ok) := by
  refine ⟨?_, .take h, .take h⟩
  intro us ts ts' last last' _ hrel
  cases R.heads hrel with
  | text htext htail =>
    simp only [Reader.take, htext, Bool.false_eq_true, if_false]
    split
    · exact .read (.cons ..) htail
    · exact .fail
  | layout ht hkind _ =>
    have ht' := (isLayout_of_kind hkind).trans ht
    simp only [Reader.take, h _ ht, h _ ht', Bool.false_eq_true, if_false]
    exact .fail

theorem word (w : String) : Strict R S (word w) (word w) := (take fun _ ht => is_of_isLayout ht w).bind fun _ => .pure ()

theorem identifier : Strict R S identifier identifier :=
  (take fun _ ht => isIdentifier_of_isLayout ht).bind fun t => .pure t.text

/-- Something about the tokens, none of which is read. It has to be the same for both if text comes first. -/
theorem look {p : Reader α} (view : Input → α) (hp : ∀ i, p i = some (view i, i))
    (hview : ∀ {us ts ts'} (t : Token) (last last' : Place), R.rel us ts ts' →
      view ⟨t :: ts', last'⟩ = view ⟨t :: ts, last⟩)
    (hf : ∀ a, Strict R S (f a) (f' a)) : Strict R S (p >>= f) (p >>= f') := by
  refine ⟨?_, fun t ts last ht => ?_, fun t ts last ht => ?_⟩
  · intro us ts ts' last last' hus hrel
    rw [bind_of_some (hp _), bind_of_some (hp _)]
    cases R.heads hrel with
    | text _ htail =>
      rw [hview _ last last' htail]
      exact (hf _).reads last last' hus hrel
    | layout ht hkind _ =>
      rw [(hf _).refuses _ _ last ht, (hf _).refuses' _ _ last' ((isLayout_of_kind hkind).trans ht)]
      exact .fail
  · rw [bind_of_some (hp _)]
    exact (hf _).refuses t ts last ht
  · rw [bind_of_some (hp _)]
    exact (hf _).refuses' t ts last ht

theorem peek {f f' : Token → Reader β} (hf : ∀ t, Strict R S (f t) (f' t)) : Strict R S (peek >>= f) (peek >>= f') :=
  look (fun i => i.tokens.headD ⟨.stop, "", i.last, i.last⟩) (fun _ => rfl) (fun _ _ _ _ => rfl) hf

theorem sees (w : String) {f f' : Bool → Reader β} (hf : ∀ b, Strict R S (f b) (f' b)) :
    Strict R S (sees w >>= f) (sees w >>= f') :=
  look (fun i => (i.tokens.headD ⟨.stop, "", i.last, i.last⟩).is w) (fun _ => rfl) (fun _ _ _ _ => rfl) hf

/-- A condition does not depend on the tokens. -/
theorem ensure (c : Bool) {f f' : Unit → Reader β} (hf : Strict R S (f ()) (f' ())) :
    Strict R S (ensure c >>= f) (ensure c >>= f') := by
  cases c with
  | false => exact ⟨fun _ _ _ _ => .fail, fun _ _ _ _ => rfl, fun _ _ _ _ => rfl⟩
  | true => exact hf

theorem accept_bind (w : String) {f f' : Bool → Reader β} (ht : Agree R S.below (f true) (f' true))
    (hf : Strict R S (f false) (f' false)) : Strict R S (accept w >>= f) (accept w >>= f') := by
  simp only [Reader.accept, bind_assoc]
  refine sees w fun b => ?_
  cases b with
  | false => simpa using hf
  | true => simpa using (word w).bind fun _ => ht

/-- Whether the token is there or not, text comes next. -/
theorem accept (w : String) {f f' : Bool → Reader β} (hf : ∀ b, Strict R S (f b) (f' b)) :
    Strict R S (accept w >>= f) (accept w >>= f') :=
  accept_bind w (hf true).rest (hf false)

/-- A count of the tokens that are left is larger than any stretch. -/
theorem remaining {f f' : Nat → Reader β} (hf : ∀ n n', Strict R (S.within n n') (f n) (f' n')) :
    Strict R S (remaining >>= f) (remaining >>= f') := by
  refine ⟨fun last last' hus hrel => ?_, fun t ts last ht => ?_, fun t ts last ht => ?_⟩
  · exact (hf _ _).reads last last' ⟨hus, R.length_lt hrel⟩ hrel
  · exact (hf _ 0).refuses t ts last ht
  · exact (hf 0 _).refuses' t ts last ht

end Strict

theorem Strict.lift_none : Strict R S (lift (none : Option α)) (lift none) :=
  ⟨fun _ _ _ _ => .fail, fun _ _ _ _ => rfl, fun _ _ _ _ => rfl⟩

theorem is_congr {t t' : Token} (hkind : t'.kind = t.kind) (htext : t'.text = t.text) (w : String) : t'.is w = t.is w := by
  simp only [Token.is, hkind, htext]

/-- Whether a token of some kind comes next, and a certain word or sign after it. -/
def isBefore (ok : Token → Bool) (w : String) (ts : List Token) : Bool :=
  match ts with
  | a :: b :: _ => ok a && b.is w
  | _ => false

theorem seesKeyword_eq (i : Input) : seesKeyword i = some (isBefore Token.isIdentifier "=" i.tokens, i) := by
  obtain ⟨tokens, last⟩ := i
  rcases tokens with _ | ⟨a, _ | ⟨b, ts⟩⟩ <;> rfl

section

variable {ok : Token → Bool} {w : String} {us ts ts' : List Token} {t : Token}

theorem isBefore_of_isLayout (hok : ok t = false) : isBefore ok w (t :: ts) = false := by
  cases ts <;> simp [isBefore, hok]

theorem isBefore_cons (h : R.rel us ts ts') : isBefore ok w (t :: ts') = isBefore ok w (t :: ts) := by
  cases R.heads h with
  | text _ _ => rfl
  | layout _ hkind htext => simp only [isBefore, is_congr hkind htext]

theorem isBefore_of_rel (hok : ∀ t, t.isLayout = true → ok t = false) (h : R.rel us ts ts') :
    isBefore ok w ts' = isBefore ok w ts := by
  cases R.heads h with
  | text _ htail => exact isBefore_cons htail
  | layout ht hkind _ =>
    rw [isBefore_of_isLayout (hok _ ht), isBefore_of_isLayout (hok _ ((isLayout_of_kind hkind).trans ht))]

end

namespace Agree

theorem word (w : String) : Agree R S (word w) (word w) := (Strict.word w).agree

theorem identifier : Agree R S identifier identifier := Strict.identifier.agree

/-- Something about the next token that its kind and its text decide. -/
theorem look {p : Reader α} (view : Token → α)
    (hview : ∀ t t', t'.kind = t.kind → t'.text = t.text → view t' = view t)
    (hp : ∀ t ts last, p ⟨t :: ts, last⟩ = some (view t, ⟨t :: ts, last⟩)) : Agree R S p p := by
  refine ⟨fun {us ts ts'} last hus hrel => ?_⟩
  cases R.heads hrel with
  | text _ _ =>
    rw [hp, hp]
    exact .read (.refl ..) hrel
  | layout _ hkind htext =>
    rw [hp, hp, hview _ _ hkind htext]
    exact .read (.refl ..) hrel

theorem sees (w : String) : Agree R S (sees w) (sees w) :=
  look (·.is w) (fun _ _ hk ht => is_congr hk ht w) fun _ _ _ => rfl

theorem seesAny (ws : List String) : Agree R S (seesAny ws) (seesAny ws) :=
  look (fun t => ws.any t.is) (fun _ _ hk ht => congrArg ws.any (funext (is_congr hk ht))) fun _ _ _ => rfl

theorem accept (w : String) : Agree R S (accept w) (accept w) := by
  refine bind (sees w) fun b => ?_
  cases b with
  | false => exact pure false
  | true => exact (word w).bind fun _ => pure true

/-- After a token that has been accepted, less is left. -/
theorem accept_bind (w : String) {f f' : Bool → Reader β} (ht : Agree R S.below (f true) (f' true))
    (hf : Agree R S (f false) (f' false)) : Agree R S (Reader.accept w >>= f) (Reader.accept w >>= f') := by
  simp only [Reader.accept, bind_assoc]
  refine bind (sees w) fun b => ?_
  cases b with
  | false => simpa using hf
  | true => simpa using ((Strict.word w).bind fun _ => ht).agree

theorem lookBefore {p : Reader Bool} {ok : Token → Bool} {w : String} (hok : ∀ t, t.isLayout = true → ok t = false)
    (hp : ∀ i, p i = some (isBefore ok w i.tokens, i)) : Agree R S p p := by
  refine ⟨fun {us ts ts'} last hus hrel => ?_⟩
  rw [hp, hp, isBefore_of_rel hok hrel]
  exact .read (.refl ..) hrel

theorem seesKeyword : Agree R S seesKeyword seesKeyword :=
  lookBefore (fun _ ht => isIdentifier_of_isLayout ht) seesKeyword_eq

theorem remaining {f f' : Nat → Reader β} (hf : ∀ n n', Agree R (S.within n n') (f n) (f' n')) :
    Agree R S (remaining >>= f) (remaining >>= f') :=
  ⟨fun last hus hrel => (hf _ _).reads last ⟨hus, R.length_lt hrel⟩ hrel⟩

/-- What is there leaves less. -/
theorem maybe_bind {f f' : Option α → Reader β} (hp : Strict R S p p') (hnone : Agree R S (f none) (f' none))
    (hsome : ∀ a, Agree R S.below (f (some a)) (f' (some a))) :
    Agree R S (Reader.maybe p >>= f) (Reader.maybe p' >>= f') := by
  refine ⟨fun {us ts ts'} last hus hrel => ?_⟩
  have hboth := hp.reads last last hus hrel
  generalize hx : p ⟨ts, last⟩ = x at hboth
  generalize hx' : p' ⟨ts', last⟩ = x' at hboth
  cases hboth with
  | fail =>
    rw [bind_of_some (maybe_of_none hx), bind_of_some (maybe_of_none hx')]
    exact hnone.reads last hus hrel
  | read hleft hrel =>
    rw [bind_of_some (maybe_of_some hx), bind_of_some (maybe_of_some hx')]
    have hbelow := Stretches.below_of_suffix hus hleft.suffix hleft.length_lt
    exact ((hsome _).reads _ hbelow hrel).imp fun _ _ => (hleft.left last).trans

theorem of_within_zero {n : Nat} : Agree R (S.within 0 n) p p' :=
  ⟨fun _ hus _ => absurd hus (Stretches.not_mem_within_zero _)⟩

theorem of_within_zero' {n : Nat} : Agree R (S.within n 0) p p' :=
  ⟨fun _ hus _ => absurd hus (Stretches.not_mem_within_zero' _)⟩

/-- How often something is read is not bounded by the bounds. -/
theorem manyUpTo (hp : Strict R S p p') (n n' : Nat) : Agree R (S.within n n') (manyUpTo p n) (manyUpTo p' n') := by
  induction n generalizing n' with
  | zero => exact of_within_zero
  | succ n ih =>
    cases n' with
    | zero => exact of_within_zero'
    | succ n' =>
      refine maybe_bind (hp.mono Stretches.within_le) (pure []) fun a => ?_
      exact ((ih n').mono Stretches.below_within_le).bind fun as => pure (a :: as)

theorem many (hp : Strict R S p p') : Agree R S (many p) (many p') := remaining fun n n' => manyUpTo hp n n'

theorem leftAssocUpTo {op : Reader β} {operand operand' : Reader α} {join : α → β → α → α} (hop : Strict R S op op)
    (hoperand : Agree R S operand operand') (n n' : Nat) (a : α) :
    Agree R (S.within n n') (leftAssocUpTo op operand join n a) (leftAssocUpTo op operand' join n' a) := by
  induction n generalizing n' a with
  | zero => exact of_within_zero
  | succ n ih =>
    cases n' with
    | zero => exact of_within_zero'
    | succ n' =>
      have hone := hop.bind fun o => (hoperand.mono Stretches.below_le).bind fun b => pure (o, b)
      refine maybe_bind (hone.mono Stretches.within_le) (pure a) fun b => ?_
      exact (ih n' _).mono Stretches.below_within_le

end Agree

namespace Strict

theorem seesKeyword {f f' : Bool → Reader β} (hf : ∀ b, Strict R S (f b) (f' b)) :
    Strict R S (seesKeyword >>= f) (seesKeyword >>= f') :=
  look _ seesKeyword_eq (fun _ _ _ => isBefore_cons) hf

theorem many1 (hp : Strict R S p p') : Strict R S (many1 p) (many1 p') :=
  hp.bind fun a => (Agree.many (hp.mono Stretches.below_le)).bind fun as => .pure (a :: as)

theorem sepBy1 (w : String) (hp : Strict R S p p') : Strict R S (sepBy1 w p) (sepBy1 w p') := by
  refine hp.bind fun a => .bind (.many ((word w).bind fun _ => ?_)) fun as => .pure (a :: as)
  exact (hp.mono Stretches.below_le).agree.mono Stretches.below_le

theorem commas (hp : Strict R S p p') : Strict R S (commas p) (commas p') :=
  (hp.sepBy1 ",").bind fun as => (Agree.accept ",").bind fun b => .pure (as, b)

theorem leftAssoc {op : Reader β} {operand operand' : Reader α} {join : α → β → α → α} (hop : ∀ {S}, Strict R S op op)
    (h : Strict R S operand operand') : Strict R S (leftAssoc op operand join) (leftAssoc op operand' join) :=
  h.bind fun a => .remaining fun n n' => .leftAssocUpTo hop (h.agree.mono Stretches.below_le) n n' a

end Strict

end Reader

end TwinModule.Grammar
