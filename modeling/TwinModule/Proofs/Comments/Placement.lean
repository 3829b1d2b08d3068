import TwinModule.Comments.Placement
import TwinModule.Proofs.Grammar.Bare
/-!
Placing comments adds comments to the blocks of a tree and loses nothing.
-/
set_option autoImplicit false

namespace TwinModule.Comments

section

variable {α : Type} {v : ItemView α} {a : α} {items : List α}

/-- A kind of comments that has nothing to do with whether they share their line with code. -/
def IgnoresInline (p : Comment → Prop) : Prop := ∀ c, p c → p { c with isInline := false }

/-- The comments among items are of a kind. -/
def ItemView.Kind (v : ItemView α) (p : Comment → Prop) (items : List α) : Prop :=
  ∀ a ∈ items, ∀ c, v.comment? a = some c → p c

theorem mem_separate {p : Comment → Prop} (hp : IgnoresInline p) {after : Bool} (hitems : v.Kind p items)
    (h : a ∈ v.separate after items) : a ∈ items ∨ ∃ c, p c ∧ a = v.ofComment c := by
  induction items generalizing after with
  | nil => exact .inl h
  | cons b items ih =>
    obtain ⟨hb, hrest⟩ := List.forall_mem_cons.1 hitems
    simp only [ItemView.separate] at h
    split at h
    · rename_i c hc
      rcases List.mem_cons.1 h with rfl | h
      · cases after
        · exact .inl (by simp)
        · exact .inr ⟨_, hp c (hb c hc), rfl⟩
      · exact (ih hrest h).imp_left (List.mem_cons_of_mem b)
    · rcases List.mem_cons.1 h with rfl | h
      · exact .inl (by simp)
      · exact (ih hrest h).imp_left (List.mem_cons_of_mem b)

theorem mem_separate_of_mem {after : Bool} (h : a ∈ items) (hc : v.comment? a = none) :
    a ∈ v.separate after items := by
  induction items generalizing after with
  | nil => exact h
  | cons b items ih =>
    simp only [ItemView.separate]
    rcases List.mem_cons.1 h with rfl | h
    · simp [hc]
    · split
      · exact List.mem_cons_of_mem _ (ih h)
      · exact List.mem_cons_of_mem _ (ih h)

theorem mem_insert {p : Comment → Prop} (hp : IgnoresInline p) (hv : ∀ c, v.comment? (v.ofComment c) = some c)
    {c : Comment} (hc : p c) (hitems : v.Kind p items) (h : a ∈ v.insert items c) :
    a ∈ items ∨ ∃ c, p c ∧ a = v.ofComment c := by
  have hmore : v.Kind p ((items ++ [v.ofComment c]).mergeSort v.le) := by
    intro b hb k hk
    simp only [List.mem_mergeSort, List.mem_append, List.mem_singleton] at hb
    rcases hb with hb | rfl
    · exact hitems b hb k hk
    · rw [hv] at hk
      cases hk
      exact hc
  rcases mem_separate hp hmore h with h | h
  · simp only [List.mem_mergeSort, List.mem_append, List.mem_singleton] at h
    exact h.imp_right fun e => ⟨c, hc, e⟩
  · exact .inr h

theorem mem_insert_of_mem {c : Comment} (h : a ∈ items) (hc : v.comment? a = none) : a ∈ v.insert items c := by
  refine mem_separate_of_mem ?_ hc
  simp [List.mem_mergeSort, h]

variable {placed : List Placed} {path : Path} {block : Block}

/-- In a block are its items and comments that are placed. -/
theorem mem_fill {p : Comment → Prop} (hp : IgnoresInline p) (hv : ∀ c, v.comment? (v.ofComment c) = some c)
    (hplaced : ∀ q ∈ placed, p q.comment) (hitems : v.Kind p items) (h : a ∈ fill v placed path block items) :
    a ∈ items ∨ ∃ c, p c ∧ a = v.ofComment c := by
  have hchosen : ∀ c ∈ (placed.filter fun p => p.path == path && p.block == block).map Placed.comment, p c := by
    intro c hc
    obtain ⟨q, hq, rfl⟩ := List.mem_map.1 hc
    exact hplaced q (List.mem_filter.1 hq).1
  unfold fill at h
  generalize (placed.filter fun p => p.path == path && p.block == block).map Placed.comment = cs at h hchosen
  induction cs generalizing items with
  | nil => exact .inl h
  | cons c cs ih =>
    obtain ⟨hc, hcs⟩ := List.forall_mem_cons.1 hchosen
    have hmore : v.Kind p (v.insert items c) := by
      intro b hb k hk
      rcases mem_insert hp hv hc hitems hb with hb | ⟨k', hk', rfl⟩
      · exact hitems b hb k hk
      · rw [hv] at hk
        cases hk
        exact hk'
    rcases ih hmore h hcs with h | h
    · exact mem_insert hp hv hc hitems h
    · exact .inr h

/-- What is no comment stays in its block. -/
theorem mem_fill_of_mem (h : a ∈ items) (hc : v.comment? a = none) : a ∈ fill v placed path block items := by
  unfold fill
  generalize (placed.filter fun p => p.path == path && p.block == block).map Placed.comment = cs
  induction cs generalizing items with
  | nil => exact h
  | cons c cs ih => exact ih (mem_insert_of_mem h hc)

theorem length_separate (v : ItemView α) (after : Bool) (items : List α) :
    (v.separate after items).length = items.length := by
  induction items generalizing after with
  | nil => rfl
  | cons b items ih =>
    simp only [ItemView.separate]
    split <;> simp [ih]

theorem length_le_fill (v : ItemView α) (placed : List Placed) (path : Path) (block : Block) (items : List α) :
    items.length ≤ (fill v placed path block items).length := by
  unfold fill
  generalize (placed.filter fun p => p.path == path && p.block == block).map Placed.comment = cs
  induction cs generalizing items with
  | nil => exact Nat.le_refl _
  | cons c cs ih =>
    have h : (v.insert items c).length = items.length + 1 := by simp [ItemView.insert, length_separate]
    have hl := ih (v.insert items c)
    simp only [List.foldl_cons]
    omega

end

/-- Bare statements with comments of a kind. -/
abbrev commented (p : Comment → Prop) : Rule := .bare p

variable {placed : List Placed} {path : Path} {block : Block} {p : Comment → Prop}

theorem any_isReal_fill {items : List Stmt} (h : items.any Stmt.isReal = true) :
    (fill stmtView placed path block items).any Stmt.isReal = true := by
  obtain ⟨s, hs, hr⟩ := List.any_eq_true.1 h
  have hc : stmtView.comment? s = none := by
    cases s with
    | comment c => simp [Stmt.isReal, Stmt.isComment] at hr
    | _ => rfl
  exact List.any_eq_true.2 ⟨s, mem_fill_of_mem hs hc, hr⟩

section

variable (hp : IgnoresInline p) (hplaced : ∀ q ∈ placed, p q.comment)

include hp hplaced

theorem stmtsObey_fill {outer : Bool} {items : List Stmt} (h : stmtsObey (commented p) outer items) :
    stmtsObey (commented p) outer (fill stmtView placed path block items) := by
  have hitems : stmtView.Kind p items := by
    intro s hs c hc
    have hobeys := stmtsObey_iff.1 h s hs
    cases s with
    | comment k =>
      cases hc
      exact hobeys
    | _ => cases hc
  refine stmtsObey_iff.2 fun s hs => ?_
  rcases mem_fill hp (fun _ => rfl) hplaced hitems hs with hs | ⟨c, hc, rfl⟩
  · exact stmtsObey_iff.1 h s hs
  · exact hc

theorem handlersObey_fill {items : List Handler} (h : handlersObey (commented p) items) :
    handlersObey (commented p) (fill handlerView placed path block items) := by
  have hitems : handlerView.Kind p items := by
    intro a ha c hc
    have hobeys := handlersObey_iff.1 h a ha
    cases a with
    | comment k =>
      cases hc
      exact hobeys
    | _ => cases hc
  refine handlersObey_iff.2 fun a ha => ?_
  rcases mem_fill hp (fun _ => rfl) hplaced hitems ha with ha | ⟨c, hc, rfl⟩
  · exact handlersObey_iff.1 h a ha
  · exact hc

theorem casesObey_fill {items : List Case} (h : casesObey (commented p) items) :
    casesObey (commented p) (fill caseView placed path block items) := by
  have hitems : caseView.Kind p items := by
    intro a ha c hc
    have hobeys := casesObey_iff.1 h a ha
    cases a with
    | comment k =>
      cases hc
      exact hobeys
    | _ => cases hc
  refine casesObey_iff.2 fun a ha => ?_
  rcases mem_fill hp (fun _ => rfl) hplaced hitems ha with ha | ⟨c, hc, rfl⟩
  · exact casesObey_iff.1 h a ha
  · exact hc

end

theorem isReal_fillStmt (page : Page) (placed : List Placed) (path : Path) (s : Stmt) :
    (fillStmt page placed path s).isReal = s.isReal := by
  cases s <;> rfl

theorem any_isReal_fillStmts (page : Page) (placed : List Placed) (path : Path) (block : Block) (i : Nat)
    (ss : List Stmt) : (fillStmts page placed path block i ss).any Stmt.isReal = ss.any Stmt.isReal := by
  induction ss generalizing i with
  | nil => rfl
  | cons s ss ih => simp [fillStmts, isReal_fillStmt, ih]

/-- Handlers stay handlers, so that a `try` is as bare after placing comments as before. -/
theorem isEmpty_of_fillHandlers {page : Page} {i : Nat} {hs : List Handler}
    (h : (fill handlerView placed path block (fillHandlers page placed path i hs)).isEmpty = true) :
    hs.isEmpty = true := by
  have hl := length_le_fill handlerView placed path block (fillHandlers page placed path i hs)
  rw [List.isEmpty_iff.1 h] at hl
  cases hs with
  | nil => rfl
  | cons a hs => cases a <;> simp [fillHandlers] at hl

/-- A block with its comments, after those of the blocks in it. -/
theorem obeys_fillBlock (hp : IgnoresInline p) (hplaced : ∀ q ∈ placed, p q.comment) {page : Page} {i : Nat}
    {span span' : Span} {isBare isBare' : Bool} {slot : Slot} {ss : List Stmt} (h : Rule.Filled (.item span isBare) slot ss)
    (hb : isBare' = true → isBare = true) (hss : stmtsObey (commented p) false (fillStmts page placed path block i ss)) :
    Rule.Filled (.item span' isBare') slot (fill stmtView placed path block (fillStmts page placed path block i ss)) ∧
      stmtsObey (commented p) false (fill stmtView placed path block (fillStmts page placed path block i ss)) := by
  refine ⟨h.imp hb fun hr => any_isReal_fill ?_, stmtsObey_fill hp hplaced hss⟩
  rw [any_isReal_fillStmts]
  exact hr

mutual

theorem obeys_fillStmt (hp : IgnoresInline p) (hplaced : ∀ q ∈ placed, p q.comment) {page : Page} {outer : Bool} :
    (path : Path) → (s : Stmt) → s.Obeys Grammar.parsed outer → (fillStmt page placed path s).Obeys (commented p) outer
  | _, .simple info what, h => h
  | _, .comment c, h => absurd h (by simp [Stmt.Obeys, Rule.bare])
  | path, .block info head body, ⟨hi, hf, hb⟩ => by
    have hm : head.isModule = false := BlockHead.isModule_of_ordinary hi.1
    refine ⟨hi, ?_⟩
    rw [hm] at hb ⊢
    exact obeys_fillBlock hp hplaced hf id (obeys_fillStmts hp hplaced path .body 0 body hb)
  | path, .branch info head body orelse, ⟨hi, ⟨hf, hb⟩, hfo, ho⟩ =>
    ⟨hi, obeys_fillBlock hp hplaced hf id (obeys_fillStmts hp hplaced path .body 0 body hb),
      obeys_fillBlock hp hplaced hfo id (obeys_fillStmts hp hplaced path .orelse 0 orelse ho)⟩
  | path, .attempt info isGroup body handlers orelse finalbody, ⟨hi, ⟨hf, hb⟩, hh, ⟨hfo, ho⟩, hff, hfb⟩ => by
    have hbare : (!isGroup && (fill handlerView placed path .handlers
        (fillHandlers page placed path 0 handlers)).isEmpty) = true → (!isGroup && handlers.isEmpty) = true := by
      intro h
      rw [Bool.and_eq_true] at h ⊢
      exact ⟨h.1, isEmpty_of_fillHandlers h.2⟩
    exact ⟨hi, obeys_fillBlock hp hplaced hf hbare (obeys_fillStmts hp hplaced path .body 0 body hb),
      handlersObey_fill hp hplaced (obeys_fillHandlers hp hplaced path 0 handlers hh),
      obeys_fillBlock hp hplaced hfo hbare (obeys_fillStmts hp hplaced path .orelse 0 orelse ho),
      obeys_fillBlock hp hplaced hff hbare (obeys_fillStmts hp hplaced path .finalbody 0 finalbody hfb)⟩
  | path, .select info subject cases, ⟨hi, hc⟩ =>
    ⟨hi, casesObey_fill hp hplaced (obeys_fillCases hp hplaced path 0 cases hc)⟩

theorem obeys_fillStmts (hp : IgnoresInline p) (hplaced : ∀ q ∈ placed, p q.comment) {page : Page} {outer : Bool} :
    (path : Path) → (block : Block) → (i : Nat) → (ss : List Stmt) → stmtsObey Grammar.parsed outer ss →
    stmtsObey (commented p) outer (fillStmts page placed path block i ss)
  | _, _, _, [], _ => trivial
  | path, block, i, s :: ss, ⟨hs, hss⟩ =>
    ⟨obeys_fillStmt hp hplaced (path ++ [(block, i)]) s hs, obeys_fillStmts hp hplaced path block (i + 1) ss hss⟩

theorem obeys_fillHandlers (hp : IgnoresInline p) (hplaced : ∀ q ∈ placed, p q.comment) {page : Page} :
    (path : Path) → (i : Nat) → (hs : List Handler) → handlersObey Grammar.parsed hs →
    handlersObey (commented p) (fillHandlers page placed path i hs)
  | _, _, [], _ => trivial
  | _, _, .comment _ :: _, ⟨h, _⟩ => absurd h (by simp [Rule.bare])
  | path, i, .handler _ _ _ body :: hs, ⟨⟨hf, hb⟩, hhs⟩ =>
    ⟨obeys_fillBlock hp hplaced hf id (obeys_fillStmts hp hplaced (path ++ [(.handlers, i)]) .body 0 body hb),
      obeys_fillHandlers hp hplaced path (i + 1) hs hhs⟩

theorem obeys_fillCases (hp : IgnoresInline p) (hplaced : ∀ q ∈ placed, p q.comment) {page : Page} :
    (path : Path) → (i : Nat) → (cs : List Case) → casesObey Grammar.parsed cs →
    casesObey (commented p) (fillCases page placed path i cs)
  | _, _, [], _ => trivial
  | _, _, .comment _ :: _, ⟨h, _⟩ => absurd h (by simp [Rule.bare])
  | path, i, .case _ _ _ body :: cs, ⟨⟨hf, hb⟩, hcs⟩ =>
    ⟨obeys_fillBlock hp hplaced hf id (obeys_fillStmts hp hplaced (path ++ [(.cases, i)]) .body 0 body hb),
      obeys_fillCases hp hplaced path (i + 1) cs hcs⟩

end

/-- A bare tree stays bare when its comments are placed. -/
theorem obeys_of_attach {source : List Char} {comments : List Comment} {body out : List Stmt}
    (hp : IgnoresInline p) (hcomments : ∀ c ∈ comments, p c) (hb : stmtsObey Grammar.parsed true body)
    (h : attach source comments body = .ok out) : stmtsObey (commented p) true out := by
  unfold attach at h
  split at h
  · cases h
    have hwhole : ∀ (outer : Bool) (ss : List Stmt), stmtsObey Grammar.parsed outer ss → ss.any Stmt.isErased = false :=
      fun outer ss h => List.any_eq_false.2 fun s hs => by
        simp [Grammar.isErased_of_parsed (stmtsObey_iff.1 h s hs)]
    have hr : Grammar.parsed.Implies true (commented p) :=
      ⟨fun _ _ _ _ _ h => h, fun _ _ _ _ => rfl, fun _ h => h.elim, fun _ _ _ _ h => h,
        fun inner _ _ ss _ h => hwhole inner ss h⟩
    exact stmtsObey_mono hr id body (hwhole true body hb) hb
  · obtain ⟨found, -, h⟩ := bind_eq_ok_iff.1 h
    cases h
    have hplaced : ∀ q ∈ comments.map (place found), p q.comment := by
      intro q hq
      obtain ⟨c, hc, rfl⟩ := List.mem_map.1 hq
      have hcomment : (place found c).comment = c := by
        simp only [place]
        split <;> rfl
      rw [hcomment]
      exact hcomments c hc
    exact stmtsObey_fill hp hplaced (obeys_fillStmts hp hplaced [] .body 0 body hb)

end TwinModule.Comments
