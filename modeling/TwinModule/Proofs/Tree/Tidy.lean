import TwinModule.Proofs.Tree.Rule
/-!
Rules and passes over the blocks of a tree. A pass makes a tree obey a rule if the tree obeys the rule as it reads
before the pass.
-/
set_option autoImplicit false

namespace TwinModule

def Tree.Obeys (r : Rule) : Tree → Prop
  | .file body => r.block true .file .body body ∧ stmtsObey r true body
  | .module_ info _ body => r.block true (.item info.span false) .body body ∧ stmtsObey r true body

theorem Tree.Obeys.body {r : Rule} {t : Tree} (h : t.Obeys r) : stmtsObey r true t.body := by
  cases t <;> exact h.2

/-- The rule for a tree whose blocks are going to be replaced. -/
def Rule.before (r : Rule) (w : BlockMap) : Rule where
  stmt := r.stmt
  comment := r.comment
  block inner owner slot ss := r.block inner owner slot (w.block owner slot ss)

/-- What a pass over blocks may tell statements by. -/
def Stmt.kind (s : Stmt) : Bool × Bool := (s.isReal, s.isErased)

theorem any_isReal_of_kind {ss us : List Stmt} (h : us.map Stmt.kind = ss.map Stmt.kind) :
    us.any Stmt.isReal = ss.any Stmt.isReal := by
  have hk : ∀ vs : List Stmt, vs.any Stmt.isReal = (vs.map Stmt.kind).any Prod.fst := by
    intro vs
    rw [List.any_map]
    rfl
  rw [hk, hk, h]

namespace Rule

/-- Blocks are only told apart by the kinds of their statements. -/
def Coarse (r : Rule) : Prop :=
  ∀ (inner : Bool) (owner : Owner) (slot : Slot) (ss us : List Stmt), us.map Stmt.kind = ss.map Stmt.kind →
    (r.block inner owner slot us ↔ r.block inner owner slot ss)

theorem Coarse.before_pad {r : Rule} (h : r.Coarse) : (r.before .pad).Coarse := by
  intro inner owner slot ss us hk
  refine h inner owner slot _ _ ?_
  simp only [BlockMap.pad, any_isReal_of_kind hk]
  split
  · exact hk
  · simp [hk]

theorem Coarse.before_dropErased {r : Rule} (h : r.Coarse) : (r.before .dropErased).Coarse := by
  intro inner owner slot ss us hk
  refine h inner owner slot _ _ ?_
  have hf : ∀ vs : List Stmt, (vs.filter fun s => !s.isErased).map Stmt.kind =
      (vs.map Stmt.kind).filter fun k => !k.2 := by
    intro vs
    rw [List.filter_map]
    rfl
  simp only [BlockMap.dropErased]
  rw [hf, hf, hk]

end Rule

theorem kind_mapBlocks (w : BlockMap) (s : Stmt) : (s.mapBlocks w).kind = s.kind := by
  cases s <;> rfl

theorem kind_mapStmts (w : BlockMap) (ss : List Stmt) : (mapStmts w ss).map Stmt.kind = ss.map Stmt.kind := by
  rw [mapStmts_eq_map, List.map_map]
  exact List.map_congr_left fun s _ => kind_mapBlocks w s

theorem isEmpty_mapHandlers (w : BlockMap) (hs : List Handler) : (mapHandlers w hs).isEmpty = hs.isEmpty := by
  cases hs with
  | nil => rfl
  | cons h hs => cases h <;> rfl

/-- The pass leaves handlers and cases alone and adds or takes away only statements that obey the rule. -/
structure BlockMap.Admits (w : BlockMap) (r : Rule) : Prop where
  handlers : ∀ hs, w.handlers hs = hs
  cases : ∀ cs, w.cases cs = cs
  stmts : ∀ inner owner slot ss, stmtsObey r inner (w.block owner slot ss) ↔ stmtsObey r inner ss
  coarse : (r.before w).Coarse

theorem admits_pad {r : Rule} (hc : r.Coarse) (hp : ∀ outer, r.stmt outer .ordinary []) :
    BlockMap.pad.Admits r where
  handlers _ := rfl
  cases _ := rfl
  stmts inner owner slot ss := by
    simp only [BlockMap.pad]
    split
    · rfl
    · cases hf : BlockMap.filler? owner slot with
      | none => simp
      | some s =>
        have hs : s.Obeys r inner := by
          unfold BlockMap.filler? at hf
          split at hf <;> cases hf
          all_goals exact hp inner
        simp [hs]
  coarse := hc.before_pad

theorem admits_dropErased {r : Rule} (hc : r.Coarse) (he : ∀ outer tags, r.stmt outer .erased tags) :
    BlockMap.dropErased.Admits r where
  handlers _ := rfl
  cases _ := rfl
  stmts inner owner slot ss := by
    simp only [stmtsObey_iff, BlockMap.dropErased, List.mem_filter]
    constructor
    · intro h s hs
      cases hse : s.isErased with
      | false => exact h s ⟨hs, by simp [hse]⟩
      | true =>
        unfold Stmt.isErased at hse
        split at hse
        · exact he inner _
        · cases hse
    · exact fun h s hs => h s hs.1
  coarse := hc.before_dropErased

section

variable {w : BlockMap} {r : Rule}

/-- A block after the pass over the blocks in it. -/
theorem obeys_mapBlock_iff (hw : w.Admits r) {inner : Bool} {owner : Owner} {slot : Slot} {ss : List Stmt}
    (hss : stmtsObey r inner (mapStmts w ss) ↔ stmtsObey (r.before w) inner ss) :
    r.block inner owner slot (w.block owner slot (mapStmts w ss)) ∧
        stmtsObey r inner (w.block owner slot (mapStmts w ss)) ↔
      (r.before w).block inner owner slot ss ∧ stmtsObey (r.before w) inner ss :=
  and_congr (hw.coarse inner owner slot ss (mapStmts w ss) (kind_mapStmts w ss)) ((hw.stmts ..).trans hss)

mutual

theorem obeys_mapBlocks_iff {outer : Bool} (hw : w.Admits r) :
    (s : Stmt) → ((s.mapBlocks w).Obeys r outer ↔ s.Obeys (r.before w) outer)
  | .simple info what => Iff.rfl
  | .comment c => Iff.rfl
  | .block info head body => and_congr Iff.rfl (obeys_mapBlock_iff hw (stmtsObey_mapStmts_iff hw body))
  | .branch info head body orelse =>
    and_congr Iff.rfl (and_congr (obeys_mapBlock_iff hw (stmtsObey_mapStmts_iff hw body))
      (obeys_mapBlock_iff hw (stmtsObey_mapStmts_iff hw orelse)))
  | .attempt info isGroup body handlers orelse finalbody => by
    have hh := handlersObey_mapHandlers_iff hw handlers
    have he := isEmpty_mapHandlers w handlers
    simp only [Stmt.mapBlocks, Stmt.Obeys, hw.handlers, he, hh]
    exact and_congr Iff.rfl (and_congr (obeys_mapBlock_iff hw (stmtsObey_mapStmts_iff hw body))
      (and_congr Iff.rfl (and_congr (obeys_mapBlock_iff hw (stmtsObey_mapStmts_iff hw orelse))
        (obeys_mapBlock_iff hw (stmtsObey_mapStmts_iff hw finalbody)))))
  | .select info subject cases => by
    have hc := casesObey_mapCases_iff hw cases
    simp only [Stmt.mapBlocks, Stmt.Obeys, hw.cases, hc]
    exact Iff.rfl

theorem stmtsObey_mapStmts_iff {outer : Bool} (hw : w.Admits r) :
    (ss : List Stmt) → (stmtsObey r outer (mapStmts w ss) ↔ stmtsObey (r.before w) outer ss)
  | [] => Iff.rfl
  | s :: ss => and_congr (obeys_mapBlocks_iff hw s) (stmtsObey_mapStmts_iff hw ss)

theorem handlersObey_mapHandlers_iff (hw : w.Admits r) :
    (hs : List Handler) → (handlersObey r (mapHandlers w hs) ↔ handlersObey (r.before w) hs)
  | [] => Iff.rfl
  | .comment _ :: hs => and_congr Iff.rfl (handlersObey_mapHandlers_iff hw hs)
  | .handler _ _ _ body :: hs =>
    and_congr (obeys_mapBlock_iff hw (stmtsObey_mapStmts_iff hw body)) (handlersObey_mapHandlers_iff hw hs)

theorem casesObey_mapCases_iff (hw : w.Admits r) :
    (cs : List Case) → (casesObey r (mapCases w cs) ↔ casesObey (r.before w) cs)
  | [] => Iff.rfl
  | .comment _ :: cs => and_congr Iff.rfl (casesObey_mapCases_iff hw cs)
  | .case _ _ _ body :: cs =>
    and_congr (obeys_mapBlock_iff hw (stmtsObey_mapStmts_iff hw body)) (casesObey_mapCases_iff hw cs)

end

theorem Tree.obeys_mapBlocks_iff (hw : w.Admits r) (t : Tree) :
    (t.mapBlocks w).Obeys r ↔ t.Obeys (r.before w) := by
  cases t <;> exact obeys_mapBlock_iff hw (stmtsObey_mapStmts_iff hw _)

end

/-- A tree that is finalized obeys a rule if what it was obeys the rule before the two passes. -/
theorem Tree.finalize_obeys_iff {r : Rule} (hc : r.Coarse) (he : ∀ outer tags, r.stmt outer .erased tags)
    (hp : ∀ outer, r.stmt outer .ordinary []) (t : Tree) :
    t.finalize.Obeys r ↔ t.Obeys ((r.before .pad).before .dropErased) := by
  rw [Tree.finalize, Tree.pad, Tree.obeys_mapBlocks_iff (admits_pad hc hp), Tree.dropErased,
    Tree.obeys_mapBlocks_iff (admits_dropErased hc.before_pad he)]

/-- A block with a statement at its end if it has none. -/
def orPass (span : Span) (ss : List Stmt) : List Stmt := if ss.any Stmt.isReal then ss else ss ++ [.pass span.forChild]

theorem orPass_of_any {span : Span} {ss : List Stmt} (h : ss.any Stmt.isReal = true) : orPass span ss = ss := if_pos h

theorem any_orPass (span : Span) (ss : List Stmt) : (orPass span ss).any Stmt.isReal = true := by
  unfold orPass
  split
  · assumption
  · simp [Stmt.pass, Stmt.isReal, Stmt.isComment]

theorem pad_body (span : Span) (isBare : Bool) (ss : List Stmt) :
    BlockMap.pad.block (.item span isBare) .body ss = orPass span ss := rfl

theorem pad_orelse (owner : Owner) (ss : List Stmt) : BlockMap.pad.block owner .orelse ss = ss := by
  simp [BlockMap.pad, BlockMap.filler?]

theorem pad_file (slot : Slot) (ss : List Stmt) : BlockMap.pad.block .file slot ss = ss := by
  simp [BlockMap.pad, BlockMap.filler?]

theorem pad_finalbody (span : Span) (isBare : Bool) (ss : List Stmt) :
    BlockMap.pad.block (.item span isBare) .finalbody ss = if isBare then orPass span ss else ss := by
  cases isBare with
  | true => rfl
  | false => simp [BlockMap.pad, BlockMap.filler?]

/-- The statement when its tree is finalized. -/
def Stmt.tidy (s : Stmt) : Stmt := (s.mapBlocks .dropErased).mapBlocks .pad

/-- A block when its tree is finalized, without the statement that it may need. -/
def tidyStmts (ss : List Stmt) : List Stmt :=
  mapStmts .pad (BlockMap.dropErased.block .file .body (mapStmts .dropErased ss))

def tidyHandlers (hs : List Handler) : List Handler := mapHandlers .pad (mapHandlers .dropErased hs)

def tidyCases (cs : List Case) : List Case := mapCases .pad (mapCases .dropErased cs)

theorem tidyStmts_eq (ss : List Stmt) : tidyStmts ss = (ss.filter fun s => !s.isErased).map Stmt.tidy := by
  have he : ∀ s : Stmt, (s.mapBlocks .dropErased).isErased = s.isErased := fun s =>
    congrArg Prod.snd (kind_mapBlocks .dropErased s)
  have hd : tidyStmts ss = mapStmts .pad ((mapStmts .dropErased ss).filter fun s => !s.isErased) := rfl
  rw [hd, mapStmts_eq_map, mapStmts_eq_map, List.filter_map, List.map_map]
  exact congrArg (List.map Stmt.tidy) (List.filter_congr fun s _ => congrArg not (he s))

theorem tidyStmts_append (ss us : List Stmt) : tidyStmts (ss ++ us) = tidyStmts ss ++ tidyStmts us := by
  simp [tidyStmts_eq]

theorem tidy_block (info : Info) (head : BlockHead) (body : List Stmt) :
    (Stmt.block info head body).tidy = .block info head (orPass info.span (tidyStmts body)) := rfl

theorem tidy_branch (info : Info) (head : BranchHead) (body orelse : List Stmt) :
    (Stmt.branch info head body orelse).tidy =
      .branch info head (orPass info.span (tidyStmts body)) (tidyStmts orelse) :=
  congrArg (Stmt.branch info head _) (pad_orelse _ _)

theorem tidy_attempt (info : Info) (isGroup : Bool) (body : List Stmt) (handlers : List Handler)
    (orelse finalbody : List Stmt) :
    (Stmt.attempt info isGroup body handlers orelse finalbody).tidy =
      .attempt info isGroup (orPass info.span (tidyStmts body)) (tidyHandlers handlers) (tidyStmts orelse)
        (if !isGroup && (tidyHandlers handlers).isEmpty then orPass info.span (tidyStmts finalbody)
          else tidyStmts finalbody) := by
  rw [← pad_finalbody, ← pad_orelse (.item info.span (!isGroup && (tidyHandlers handlers).isEmpty)) (tidyStmts orelse)]
  rfl

theorem tidy_select (info : Info) (subject : Expr) (cases : List Case) :
    (Stmt.select info subject cases).tidy = .select info subject (tidyCases cases) := rfl

theorem Tree.finalize_file (body : List Stmt) : (Tree.file body).finalize = .file (tidyStmts body) :=
  congrArg Tree.file (pad_file _ _)

end TwinModule
