import TwinModule.Proofs.Beside.Reader
/-!
Blocks side by side: token lists that are alike and close the blocks that they open.
-/
set_option autoImplicit false

namespace TwinModule.Grammar
open Reader

/-- The end of a line or a block comes last. -/
def IsClosed (m : List Token) : Prop := ∃ us n, m = us ++ [n] ∧ n.isLayout = true

theorem IsClosed.tail {t : Token} {m : List Token} (h : IsClosed (t :: m)) (ht : t.isLayout = false) : IsClosed m := by
  obtain ⟨us, n, heq, hn⟩ := h
  rcases us with _ | ⟨u, us⟩
  · obtain ⟨rfl, -⟩ := List.cons.inj heq
    simp [ht] at hn
  · exact ⟨us, n, (List.cons.inj heq).2, hn⟩

theorem IsClosed.rest {t : Token} {m : List Token} (h : IsClosed (t :: m)) : m = [] ∨ IsClosed m := by
  obtain ⟨us, n, heq, hn⟩ := h
  rcases us with _ | ⟨u, us⟩
  · exact .inl (List.cons.inj heq).2
  · exact .inr ⟨us, n, (List.cons.inj heq).2, hn⟩

theorem IsClosed.ne_nil {m : List Token} (h : IsClosed m) : m ≠ [] := by
  obtain ⟨us, n, rfl, -⟩ := h
  simp

/-- Token lists that are alike and close as many blocks as they are in. -/
inductive Nest : Nat → List Token → List Token → List Token → Prop
  | nil : Nest 0 [] [] []
  | text {d : Nat} {t : Token} {us m m' : List Token} : t.isLayout = false → Nest d us m m' →
    Nest d (t :: us) (t :: m) (t :: m')
  | newline {d : Nat} {t t' : Token} {us m m' : List Token} : t.kind = .newline → t'.kind = t.kind → t'.text = t.text →
    Nest d us m m' → Nest d us (t :: m) (t' :: m')
  | indent {d : Nat} {t t' : Token} {us m m' : List Token} : t.kind = .indent → t'.kind = t.kind → t'.text = t.text →
    Nest (d + 1) us m m' → Nest d us (t :: m) (t' :: m')
  | dedent {d : Nat} {t t' : Token} {us m m' : List Token} : t.kind = .dedent → t'.kind = t.kind → t'.text = t.text →
    Nest d us m m' → Nest (d + 1) us (t :: m) (t' :: m')

/-- What a token of layout does to the blocks that are open. -/
inductive Shift : Token.Kind → Nat → Nat → Prop
  | newline (d : Nat) : Shift .newline d d
  | indent (d : Nat) : Shift .indent d (d + 1)
  | dedent (d : Nat) : Shift .dedent (d + 1) d

theorem Shift.isLayout {k : Token.Kind} {d e : Nat} {t : Token} (h : Shift k d e) (ht : t.kind = k) :
    t.isLayout = true := by
  cases h <;> simp [Token.isLayout, ht]

namespace Nest

variable {d : Nat} {us m m' : List Token}

theorem length_le (h : Nest d us m m') : us.length ≤ m.length ∧ us.length ≤ m'.length := by
  induction h with
  | nil => simp
  | text _ _ ih => simpa using ih
  | newline _ _ _ _ ih => exact ⟨Nat.le_succ_of_le ih.1, Nat.le_succ_of_le ih.2⟩
  | indent _ _ _ _ ih => exact ⟨Nat.le_succ_of_le ih.1, Nat.le_succ_of_le ih.2⟩
  | dedent _ _ _ _ ih => exact ⟨Nat.le_succ_of_le ih.1, Nat.le_succ_of_le ih.2⟩

/-- Layout is no text. -/
theorem length_lt_of_mem {n : Token} (h : Nest d us m m') (hmem : n ∈ m) (hn : n.isLayout = true) :
    us.length < m.length := by
  induction h with
  | nil => simp at hmem
  | text ht _ ih =>
    rcases List.mem_cons.1 hmem with rfl | hmem
    · simp [ht] at hn
    · exact Nat.succ_lt_succ (ih hmem)
  | newline _ _ _ h _ => exact Nat.lt_succ_of_le h.length_le.1
  | indent _ _ _ h _ => exact Nat.lt_succ_of_le h.length_le.1
  | dedent _ _ _ h _ => exact Nat.lt_succ_of_le h.length_le.1

/-- What ends a block is no text. -/
theorem length_lt (h : Nest (d + 1) us m m') : us.length < m.length ∧ us.length < m'.length := by
  generalize hd : d + 1 = n at h
  induction h generalizing d with
  | nil => cases hd
  | text _ _ ih => simpa using ih hd
  | newline _ _ _ h _ => exact ⟨Nat.lt_succ_of_le h.length_le.1, Nat.lt_succ_of_le h.length_le.2⟩
  | indent _ _ _ h _ => exact ⟨Nat.lt_succ_of_le h.length_le.1, Nat.lt_succ_of_le h.length_le.2⟩
  | dedent _ _ _ h _ => exact ⟨Nat.lt_succ_of_le h.length_le.1, Nat.lt_succ_of_le h.length_le.2⟩

theorem ne_nil (h : Nest (d + 1) us m m') : m ≠ [] := List.ne_nil_of_length_pos (Nat.zero_lt_of_lt h.length_lt.1)

theorem tail {k : Token.Kind} {e : Nat} {t t' : Token} (hs : Shift k d e) (h : Nest d us (t :: m) (t' :: m'))
    (ht : t.kind = k) : Nest e us m m' := by
  cases h with
  | text htext _ => exact absurd (hs.isLayout ht) (by simp [htext])
  | newline hk _ _ h => cases hs <;> simp_all
  | indent hk _ _ h => cases hs <;> simp_all
  | dedent hk _ _ h => cases hs <;> simp_all

theorem kind_eq {t t' : Token} (h : Nest d us (t :: m) (t' :: m')) : t'.kind = t.kind := by
  cases h with
  | text _ _ => rfl
  | newline _ hkind _ _ => exact hkind
  | indent _ hkind _ _ => exact hkind
  | dedent _ hkind _ _ => exact hkind

theorem length_eq (h : Nest d us m m') : m'.length = m.length := by
  induction h <;> simp_all

theorem right (h : Nest d us m m') : Nest d us m' m' := by
  induction h with
  | nil => exact .nil
  | text ht _ ih => exact .text ht ih
  | newline ht hkind _ _ ih => exact .newline (hkind.trans ht) rfl rfl ih
  | indent ht hkind _ _ ih => exact .indent (hkind.trans ht) rfl rfl ih
  | dedent ht hkind _ _ ih => exact .dedent (hkind.trans ht) rfl rfl ih

end Nest

/-- Nothing comes after these tokens. -/
inductive Stops : List Token → List Token → Prop
  | mk {t t' : Token} {ts ts' : List Token} : t.kind = .stop → t'.kind = t.kind → t'.text = t.text →
    Stops (t :: ts) (t' :: ts')

theorem Stops.length_pos {vs vs' : List Token} (h : Stops vs vs') : 0 < vs.length ∧ 0 < vs'.length := by
  cases h
  simp

/-- Token lists that start alike, and what comes after them. -/
def Continued (d : Nat) (vs vs' us ts ts' : List Token) : Prop :=
  ∃ m m', Nest d us m m' ∧ ts = m ++ vs ∧ ts' = m' ++ vs'

namespace Continued

variable {d : Nat} {vs vs' us ts ts' : List Token}

theorem heads (hts : Continued d vs vs' us ts ts') (h : 0 < d ∨ Stops vs vs') :
    Heads (Continued d vs vs') us ts ts' := by
  obtain ⟨m, m', hm, rfl, rfl⟩ := hts
  cases hm with
  | nil =>
    cases h.resolve_left (Nat.lt_irrefl 0) with
    | mk ht hkind htext => exact .layout (by simp [Token.isLayout, ht]) hkind htext
  | text ht hm => exact .text ht ⟨_, _, hm, rfl, rfl⟩
  | newline ht hkind htext _ => exact .layout (by simp [Token.isLayout, ht]) hkind htext
  | indent ht hkind htext _ => exact .layout (by simp [Token.isLayout, ht]) hkind htext
  | dedent ht hkind htext _ => exact .layout (by simp [Token.isLayout, ht]) hkind htext

theorem length_lt (hts : Continued d vs vs' us ts ts') (h : 0 < d ∨ Stops vs vs') :
    us.length < ts.length ∧ us.length < ts'.length := by
  obtain ⟨m, m', hm, rfl, rfl⟩ := hts
  simp only [List.length_append]
  cases d with
  | zero =>
    have hle := hm.length_le
    have hpos := (h.resolve_left (Nat.lt_irrefl 0)).length_pos
    omega
  | succ d =>
    have hlt := hm.length_lt
    omega

end Continued

/-- In some blocks, up to the end of the outermost of them or up to the end of all. -/
def Frame.nested (d : Nat) (vs vs' : List Token) (h : 0 < d ∨ Stops vs vs') : Frame where
  rel := Continued d vs vs'
  heads hts := hts.heads h
  length_lt hts := hts.length_lt h

section

variable {d : Nat} {vs vs' : List Token} {h : 0 < d ∨ Stops vs vs'} {S : Stretches}

variable {α β : Type}

theorem kind_bind_of_eq {k : Token.Kind} {t : Token} (hk : t.kind = k) (ht : t.isLayout = true) (f : Token → Reader β)
    (ts : List Token) (last : Place) : (kind k >>= f) ⟨t :: ts, last⟩ = f t ⟨ts, last⟩ :=
  bind_of_some (by simp [kind, take, hk, ht])

theorem kind_bind_of_ne {k : Token.Kind} {t : Token} (hk : t.kind ≠ k) (f : Token → Reader β) (ts : List Token)
    (last : Place) : (kind k >>= f) ⟨t :: ts, last⟩ = none :=
  bind_of_none (by simp [kind, take, hk])

variable {p p' : Reader α} {f f' : α → Reader β}

end

end TwinModule.Grammar
