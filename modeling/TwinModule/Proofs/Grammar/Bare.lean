import TwinModule.Proofs.Grammar.Ensures
import TwinModule.Proofs.Tree.Rule
/-!
What the grammar reads is bare: no tags, no comments, no modules, nothing erased, and a statement in every block
that needs one.
-/
set_option autoImplicit false

namespace TwinModule

namespace Rule

/-- A statement in every block that is not written without one. -/
def Filled (owner : Owner) (slot : Slot) (ss : List Stmt) : Prop :=
  (BlockMap.filler? owner slot).isSome = true → ss.any Stmt.isReal = true

/-- It matters neither where the block is nor what else is in it. -/
theorem Filled.imp {span span' : Span} {isBare isBare' : Bool} {slot : Slot} {ss us : List Stmt}
    (h : Filled (.item span isBare) slot ss) (hb : isBare' = true → isBare = true)
    (hu : ss.any Stmt.isReal = true → us.any Stmt.isReal = true) : Filled (.item span' isBare') slot us := by
  intro hf
  refine hu (h ?_)
  cases slot <;> cases isBare' <;> simp_all [BlockMap.filler?]

/-- Ordinary statements without tags, every block having what it needs, and comments of some kind. -/
def bare (comment : Comment → Prop) : Rule where
  stmt _ role tags := role = .ordinary ∧ tags = []
  comment := comment
  block _ owner slot ss := Filled owner slot ss

end Rule

namespace Grammar
open Reader

/-- Bare statements without comments. -/
abbrev parsed : Rule := .bare fun _ => False

theorem isReal_of_parsed {outer : Bool} {s : Stmt} (h : s.Obeys parsed outer) : s.isReal = true := by
  cases s with
  | comment c => exact absurd h (by simp [Stmt.Obeys, Rule.bare])
  | _ => rfl

theorem isErased_of_parsed {outer : Bool} {s : Stmt} (h : s.Obeys parsed outer) : s.isErased = false := by
  rw [Stmt.isErased_eq_false_iff]
  cases s with
  | simple info what => simp [Stmt.role, h.1]
  | block info head body => simp [Stmt.role, h.1.1]
  | _ => simp [Stmt.role]

/-- Where a file or a block stands makes no difference. -/
theorem obeys_parsed_outer {outer : Bool} {s : Stmt} (h : s.Obeys parsed false) : s.Obeys parsed outer := by
  cases s <;> exact h

/-- What a reader of blocks reads: one statement or more. -/
def IsBlock (ss : List Stmt) : Prop := ss ≠ [] ∧ stmtsObey parsed false ss

namespace IsBlock

theorem any_isReal {ss : List Stmt} (h : IsBlock ss) : ss.any Stmt.isReal = true := by
  obtain ⟨hne, hss⟩ := h
  cases ss with
  | nil => exact absurd rfl hne
  | cons s ss => simp [isReal_of_parsed hss.1]

theorem obeys {ss : List Stmt} (h : IsBlock ss) (owner : Owner) (slot : Slot) :
    parsed.block false owner slot ss ∧ stmtsObey parsed false ss :=
  ⟨fun _ => h.any_isReal, h.2⟩

theorem single {s : Stmt} (h : s.Obeys parsed false) : IsBlock [s] := ⟨by simp, h, trivial⟩

theorem flatten {blocks : List (List Stmt)} (hne : blocks ≠ []) (h : ∀ ss ∈ blocks, IsBlock ss) :
    IsBlock blocks.flatten := by
  cases blocks with
  | nil => exact absurd rfl hne
  | cons ss blocks =>
    refine ⟨?_, stmtsObey_iff.2 fun s hs => ?_⟩
    · have := (h ss (by simp)).1
      simp [this]
    · obtain ⟨us, hus, hs⟩ := List.mem_flatten.1 hs
      exact stmtsObey_iff.1 (h us hus).2 s hs

end IsBlock

/-- A block that may be missing. -/
def IsClause (ss : List Stmt) : Prop := ss = [] ∨ IsBlock ss

theorem IsClause.obeys {ss : List Stmt} (h : IsClause ss) {owner : Owner} {slot : Slot}
    (hn : (BlockMap.filler? owner slot).isSome = true → ss ≠ []) :
    parsed.block false owner slot ss ∧ stmtsObey parsed false ss := by
  rcases h with rfl | h
  · exact ⟨fun hf => absurd rfl (hn hf), trivial⟩
  · exact h.obeys owner slot

variable {α : Type} {P : α → Prop}

theorem ensures_located {make : Info → α → Stmt} {p : Reader α} {Q : Stmt → Prop} (hp : Ensures p P)
    (h : ∀ span a, P a → Q (make ⟨span, []⟩ a)) : Ensures (located make p) Q := by
  refine .bind (P := fun x => P x.2) (.after fun _ => .bind hp fun a ha => .after fun _ => .pure ha) ?_
  intro x hx
  exact .pure (h _ _ hx)

def IsOrdinary (what : Simple) : Prop := what.role = .ordinary

theorem ensures_expressionStatement (r : Rules) : Ensures (expressionStatement r) IsOrdinary := by
  refine .after fun _ => .after fun _ => .after fun next => ?_
  split
  · refine .after fun _ => .after fun _ => .after fun _ => .after fun _ => ?_
    exact .afterIf fun _ => .pure rfl
  · split
    · refine .after fun _ => .after fun _ => .after fun _ => ?_
      exact .pure rfl
    · split
      · refine .after fun _ => .after fun _ => .after fun _ => ?_
        exact .pure rfl
      · exact .pure rfl

theorem ensures_importFrom : Ensures importFrom IsOrdinary := by
  have hnames : ∀ (level : Nat) (module : Option String), Ensures (do
      word "import"
      let names ← importedNames
      return .importFrom module names (some level)) IsOrdinary :=
    fun _ _ => .after fun _ => .after fun _ => .pure rfl
  refine .after fun _ => .after fun level => .after fun _ => ?_
  split
  · exact .after (hnames level)
  · exact .afterIf (hnames level)

theorem ensures_simple (r : Rules) : Ensures (simple r) IsOrdinary := by
  refine .after fun t => ?_
  split
  · exact ensures_expressionStatement r
  · split
    · exact .after fun _ => .pure rfl
    · exact .after fun _ => .pure rfl
    · exact .after fun _ => .pure rfl
    · exact .after fun _ => .after fun _ => .pure rfl
    · refine .after fun _ => .after fun e => ?_
      split
      · exact .pure rfl
      · exact .after fun _ => .afterIf fun _ => .pure rfl
    · exact .after fun _ => .after fun _ => .pure rfl
    · exact .after fun _ => .after fun _ => .pure rfl
    · exact .after fun _ => .after fun _ => .after fun _ => .pure rfl
    · exact .after fun _ => .after fun _ => .after fun _ => .afterIf fun _ => .pure rfl
    · exact .after fun _ => .after fun _ => .pure rfl
    · exact ensures_importFrom
    · exact ensures_expressionStatement r

theorem ensures_locatedSimple (r : Rules) :
    Ensures (located .simple (simple r)) fun s => s.Obeys parsed false :=
  ensures_located (ensures_simple r) fun _ _ h => ⟨h, rfl⟩

theorem ensures_simpleLine (r : Rules) : Ensures (simpleLine r) IsBlock := by
  refine .bind (ensures_locatedSimple r) fun first hfirst => ?_
  refine .bind (.many (.after fun _ => ensures_locatedSimple r)) fun rest hrest => ?_
  refine .after fun _ => .after fun _ => .pure ⟨by simp, hfirst, stmtsObey_iff.2 hrest⟩

theorem ensures_blockOf (r : Rules) {statement : Reader (List Stmt)} (h : Ensures statement IsBlock) :
    Ensures (blockOf r statement) IsBlock := by
  refine .after fun t => ?_
  split
  · refine .after fun _ => .after fun _ => .bind (.many1 h) fun blocks hb => .after fun _ => .pure ?_
    exact .flatten hb.1 hb.2
  · exact ensures_simpleLine r

/-- The head of a statement that is no module, with its block. -/
def IsHeaded (x : BlockHead × List Stmt) : Prop := x.1.role = .ordinary ∧ IsBlock x.2

theorem ensures_headed {p : Reader (BlockHead × List Stmt)} (hp : Ensures p IsHeaded) :
    Ensures (located (fun info p => .block info p.1 p.2) p) fun s => s.Obeys parsed false := by
  refine ensures_located hp ?_
  rintro span ⟨head, ss⟩ ⟨hr, hss⟩
  have hm : head.isModule = false := by
    cases head with
    | module_ name => simp [BlockHead.role] at hr
    | _ => rfl
  refine ⟨⟨hr, rfl⟩, ?_⟩
  rw [hm]
  exact hss.obeys _ _

/-- A block and a clause after it. -/
def IsBranched (x : BranchHead × List Stmt × List Stmt) : Prop := IsBlock x.2.1 ∧ IsClause x.2.2

theorem obeys_branch {span : Span} {x : BranchHead × List Stmt × List Stmt} (h : IsBranched x) :
    (Stmt.branch ⟨span, []⟩ x.1 x.2.1 x.2.2).Obeys parsed false := by
  refine ⟨⟨rfl, rfl⟩, h.1.obeys _ _, h.2.obeys ?_⟩
  simp [BlockMap.filler?]

section

variable {block : Reader (List Stmt)} (hb : Ensures block IsBlock)
include hb

theorem ensures_body : Ensures (body block) IsBlock := .after fun _ => hb

theorem ensures_clauseBlock (w : String) : Ensures (clauseBlock w block) IsClause := by
  refine .after fun found => ?_
  split
  · exact (ensures_body hb).imp fun _ h => .inr h
  · exact .pure (.inl rfl)

theorem ensures_function (r : Rules) (ds : List Decorator) :
    Ensures (function r block ds) fun s => s.Obeys parsed false := by
  refine ensures_headed ?_
  refine .after fun _ => .after fun _ => .after fun _ => .after fun _ => .after fun _ => .after fun _ => ?_
  refine .after fun _ => .afterIf fun _ => .bind (ensures_body hb) fun ss hss => .pure ⟨rfl, hss⟩

theorem ensures_classDefinition (r : Rules) (ds : List Decorator) :
    Ensures (classDefinition r block ds) fun s => s.Obeys parsed false := by
  refine ensures_headed ?_
  have hrest : ∀ (name : String) (as : List Expr × List Keyword), Ensures (do
      return (.class_ name as.1 as.2 ds, ← body block)) IsHeaded :=
    fun _ _ => .bind (ensures_body hb) fun ss hss => .pure ⟨rfl, hss⟩
  refine .after fun _ => .after fun name => .after fun _ => ?_
  split
  · exact .after fun as => .after fun _ => hrest name as
  · exact hrest name ([], [])

theorem ensures_withStatement (r : Rules) : Ensures (withStatement r block) fun s => s.Obeys parsed false := by
  refine ensures_headed ?_
  exact .after fun _ => .after fun _ => .after fun _ => .bind (ensures_body hb) fun ss hss => .pure ⟨rfl, hss⟩

theorem ensures_forStatement (r : Rules) : Ensures (forStatement r block) fun s => s.Obeys parsed false := by
  refine ensures_located (P := IsBranched) ?_ fun span x h => obeys_branch h
  refine .after fun _ => .after fun _ => .after fun _ => .after fun _ => .after fun _ => ?_
  exact .bind (ensures_body hb) fun ss hss => .bind (ensures_clauseBlock hb "else") fun us hus => .pure ⟨hss, hus⟩

theorem ensures_whileStatement (r : Rules) :
    Ensures (whileStatement r block) fun s => s.Obeys parsed false := by
  refine ensures_located (P := IsBranched) ?_ fun span x h => obeys_branch h
  refine .after fun _ => .after fun _ => ?_
  exact .bind (ensures_body hb) fun ss hss => .bind (ensures_clauseBlock hb "else") fun us hus => .pure ⟨hss, hus⟩

theorem ensures_ifStatementUpTo (r : Rules) (w : String) (n : Nat) :
    Ensures (ifStatementUpTo r block w n) fun s => s.Obeys parsed false := by
  induction n generalizing w with
  | zero => exact .failure
  | succ n ih =>
    refine ensures_located (P := IsBranched) ?_ fun span x h => obeys_branch h
    refine .after fun _ => .after fun _ => .bind (ensures_body hb) fun ss hss => .after fun _ => ?_
    split
    · exact .bind (ih "elif") fun s hs => .pure ⟨hss, .inr (.single hs)⟩
    · exact .bind (ensures_clauseBlock hb "else") fun us hus => .pure ⟨hss, hus⟩

theorem ensures_exceptClause (r : Rules) (isGroup : Bool) :
    Ensures (exceptClause r block isGroup) fun h => h.Obeys parsed ∧ h.isReal = true := by
  refine .bind (P := fun x : Span × Option Expr × Option String × List Stmt => IsBlock x.2.2.2)
    (.after fun _ => .bind (P := fun x : Option Expr × Option String × List Stmt => IsBlock x.2.2) ?_
      fun a ha => .after fun _ => .pure ha) ?_
  · have hrest : Ensures (do
        let seen ← sees ":"
        if !isGroup && seen then return (none, none, ← body block)
        else do
          let type ← r.expression
          let name ← if ← accept "as" then some <$> identifier else pure none
          return (some type, name, ← body block))
        fun x : Option Expr × Option String × List Stmt => IsBlock x.2.2 := by
      refine .after fun _ => ?_
      split
      · exact .bind (ensures_body hb) fun ss hss => .pure hss
      · refine .after fun _ => .after fun _ => .afterIf fun _ => ?_
        exact .bind (ensures_body hb) fun ss hss => .pure hss
    refine .after fun _ => ?_
    split
    · exact .after fun _ => hrest
    · exact hrest
  · rintro ⟨span, type, name, ss⟩ hss
    exact .pure ⟨IsBlock.obeys hss _ _, rfl⟩

/-- A clause that has been seen is there. -/
theorem ensures_seenClause {w : String} {β : Type} {f : List Stmt → Reader β} {Q : β → Prop}
    (hf : ∀ ss, IsBlock ss → Ensures (f ss) Q) :
    Ensures (do let seen ← sees w; ensure seen; let ss ← clauseBlock w block; f ss) Q := by
  intro i b j h
  -- The clause is looked for twice at the same place, once to be sure of it and once to read it.
  by_cases hs : (i.tokens.headD ⟨.stop, "", i.last, i.last⟩).is w = true
  · have hrun : (do let seen ← sees w; ensure seen; let ss ← clauseBlock w block; f ss : Reader β) i =
        (word w >>= fun _ => body block >>= f) i := by
      rw [sees_bind, hs, ensure_true_bind]
      simp only [clauseBlock, accept, bind_assoc, sees_bind, hs, if_true, pure_bind]
    rw [hrun] at h
    exact (Ensures.after fun _ => .bind (ensures_body hb) hf) i b j h
  · rw [sees_bind, eq_false_of_ne_true hs, ensure_false_bind] at h
    cases h

theorem ensures_tryStatement (r : Rules) : Ensures (tryStatement r block) fun s => s.Obeys parsed false := by
  refine ensures_located (P := fun x : Bool × List Stmt × List Handler × List Stmt × List Stmt =>
    IsBlock x.2.1 ∧ handlersObey parsed x.2.2.1 ∧ IsClause x.2.2.2.1 ∧ IsClause x.2.2.2.2 ∧
      (x.2.2.1 = [] → x.2.2.2.2 ≠ [])) ?_ ?_
  · refine .after fun _ => .bind (ensures_body hb) fun ss hss => .after fun isGroup => ?_
    refine .bind (.many (ensures_exceptClause hb r isGroup)) fun handlers hhs => ?_
    have hobey : handlersObey parsed handlers := handlersObey_iff.2 fun h hm => (hhs h hm).1
    cases handlers with
    | nil =>
      refine .bind (P := fun orelse => orelse = []) (.pure rfl) fun orelse ho => ?_
      subst ho
      simp only [List.isEmpty_nil, Bool.not_true, Bool.or_false]
      exact ensures_seenClause hb fun finalbody hf => .pure ⟨hss, hobey, .inl rfl, .inr hf, fun _ => hf.1⟩
    | cons h handlers =>
      refine .bind (ensures_clauseBlock hb "else") fun orelse ho => .after fun _ => .after fun _ => ?_
      exact .bind (ensures_clauseBlock hb "finally") fun finalbody hf => .pure ⟨hss, hobey, ho, hf, by simp⟩
  · rintro span ⟨isGroup, ss, handlers, orelse, finalbody⟩ ⟨hss, hhs, ho, hf, hn⟩
    refine ⟨⟨rfl, rfl⟩, hss.obeys _ _, hhs, ho.obeys ?_, hf.obeys ?_⟩
    · simp [BlockMap.filler?]
    · cases handlers with
      | nil => exact fun _ => hn rfl
      | cons h handlers => simp [BlockMap.filler?]

theorem ensures_caseBlock (r : Rules) :
    Ensures (caseBlock r block) fun c => c.Obeys parsed := by
  refine .after fun _ => .after fun _ => .after fun _ => .after fun _ => .after fun _ => ?_
  exact .bind (ensures_body hb) fun ss hss => .pure (IsBlock.obeys hss _ _)

theorem ensures_matchStatement (r : Rules) : Ensures (matchStatement r block) fun s => s.Obeys parsed false := by
  refine ensures_located (P := fun x : Expr × List Case => casesObey parsed x.2) ?_ fun span x h => ⟨⟨rfl, rfl⟩, h⟩
  refine .after fun _ => .after fun _ => .after fun _ => .after fun _ => .after fun _ => ?_
  exact .bind (.many1 (ensures_caseBlock hb r)) fun cases hc => .after fun _ => .pure (casesObey_iff.2 hc.2)

theorem ensures_statementOf (r : Rules) : Ensures (statementOf r block) IsBlock := by
  have one : ∀ {p : Reader Stmt}, Ensures p (fun s => s.Obeys parsed false) →
      Ensures (do return [← p]) IsBlock := fun hp => .bind hp fun s hs => .pure (.single hs)
  refine .after fun t => .after fun second => ?_
  split
  · refine .after fun ds => .after fun _ => ?_
    split
    · exact one (ensures_classDefinition hb r ds)
    · exact one (ensures_function hb r ds)
  · split
    · exact ensures_simpleLine r
    · split
      · exact one (ensures_function hb r [])
      · exact one (ensures_classDefinition hb r [])
      · exact .after fun _ => one (ensures_ifStatementUpTo hb r "if" _)
      · exact one (ensures_forStatement hb r)
      · exact one (ensures_whileStatement hb r)
      · exact one (ensures_withStatement hb r)
      · exact one (ensures_tryStatement hb r)
      · split
        · exact one (ensures_function hb r [])
        · split
          · exact one (ensures_withStatement hb r)
          · exact one (ensures_forStatement hb r)
      · exact .orElse (one (ensures_matchStatement hb r)) (ensures_simpleLine r)
      · exact ensures_simpleLine r

end

theorem ensures_statementUpTo (r : Rules) (n : Nat) : Ensures (statementUpTo r n) IsBlock := by
  induction n with
  | zero => exact .failure
  | succ n ih => exact ensures_statementOf (ensures_blockOf r ih) r

theorem ensures_file (r : Rules) (depth : Nat) : Ensures (file r depth) fun ss => stmtsObey parsed true ss := by
  refine .bind (.many (ensures_statementUpTo r depth)) fun blocks hb => .after fun _ => .pure ?_
  refine stmtsObey_iff.2 fun s hs => ?_
  obtain ⟨ss, hss, hs⟩ := List.mem_flatten.1 hs
  exact obeys_parsed_outer (stmtsObey_iff.1 (hb ss hss).2 s hs)

/-- The statements of a source text are bare. -/
theorem obeys_of_parse {source : List Char} {ss : List Stmt} (h : parse source = some ss) :
    stmtsObey parsed true ss := by
  simp only [parse, Option.bind_eq_bind, Option.bind_eq_some_iff] at h
  obtain ⟨tokens, -, ⟨us, rest⟩, hrun, hss⟩ := h
  cases hss
  exact ensures_file _ _ _ _ _ hrun

end Grammar

end TwinModule
