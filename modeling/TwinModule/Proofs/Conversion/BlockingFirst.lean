import TwinModule.Proofs.Conversion.Converted
/-!
Converting a tree and making it blocking can be done in either order. A conversion tells statements apart by their tags,
by whether they are declarations and by whether there is anything to them at all, and these are the same in the blocking
form; what becomes of imports and what becomes of everything else do not meet.
-/
set_option autoImplicit false

namespace TwinModule

namespace Traced

variable {α β γ δ : Type} {g : α → β} {k : γ → δ} {x : Traced α} {y : Traced β}

/-- The one computation comes to the image of what the other comes to, or to the same failure, whatever they note. -/
def Follows (g : α → β) (x : Traced α) (y : Traced β) : Prop := y.result = x.result.map g

theorem follows_pure (g : α → β) (a : α) : Follows g (pure a) (pure (g a)) := rfl

theorem follows_fail (g : α → β) (f : Failure) : Follows g (fail f) (fail f) := rfl

theorem Follows.bind (h : Follows g x y) {f : α → Traced γ} {f' : β → Traced δ}
    (hf : ∀ a, Follows k (f a) (f' (g a))) : Follows k (x >>= f) (y >>= f') := by
  unfold Follows at h ⊢
  rw [bind_result, bind_result, h]
  cases x.result with
  | error e => rfl
  | ok a => exact hf a

theorem Follows.mapFailure (h : Follows g x y) (f : Failure → Failure) :
    Follows g (x.mapFailure f) (y.mapFailure f) := by
  unfold Follows at h ⊢
  simp only [Traced.mapFailure, h]
  cases x.result <;> rfl

end Traced

section

variable (s : Stmt) (ss : List Stmt)

theorem Stmt.tags_blocking : s.blocking.tags = s.tags := by
  cases s with
  | block info head body => exact tags_renewed info head.isAsync
  | branch info head body orelse => exact tags_renewed info head.isAsync
  | _ => rfl

theorem Stmt.isFor_blocking (v : Variant) : s.blocking.isFor v = s.isFor v := by
  rw [Stmt.isFor, Stmt.isFor, s.tags_blocking]

theorem Stmt.isDeclaration_blocking : s.blocking.isDeclaration = s.isDeclaration := by
  cases s with
  | block info head body => cases head <;> rfl
  | _ => rfl

theorem Stmt.isReal_blocking : s.blocking.isReal = s.isReal := by
  cases s <;> rfl

theorem Stmt.isErased_blocking : s.blocking.isErased = s.isErased := by
  cases s with
  | simple info what => cases what <;> rfl
  | _ => rfl

theorem Info.forChild_renewed (info : Info) (isNew : Bool) :
    (info.renewed isNew).span.forChild = info.span.forChild := by
  cases isNew <;> rfl

/-- A statement that replaces another one gives way to others as that does. -/
theorem Stmt.forChild_blocking : s.blocking.span.forChild = s.span.forChild := by
  cases s with
  | block info head body => exact info.forChild_renewed head.isAsync
  | branch info head body orelse => exact info.forChild_renewed head.isAsync
  | _ => rfl

theorem any_isReal_blockingStmts : (blockingStmts ss).any Stmt.isReal = ss.any Stmt.isReal := by
  rw [blockingStmts_eq_map, List.any_map]
  exact congrArg ss.any (funext Stmt.isReal_blocking)

theorem blockingStmts_append (us : List Stmt) :
    blockingStmts (ss ++ us) = blockingStmts ss ++ blockingStmts us := by
  simp [blockingStmts_eq_map]

end

namespace BlockMap

/-- A pass over blocks that does the same to blocks in their blocking form. -/
structure SuitsBlocking (w : BlockMap) : Prop where
  block : ∀ owner slot ss, w.block owner slot (blockingStmts ss) = blockingStmts (w.block owner slot ss)
  /-- Whether the owner has been replaced makes no difference. -/
  renewed : ∀ span isBare slot ss,
    w.block (.item (Span.forChild span) isBare) slot ss = w.block (.item span isBare) slot ss
  handlers : ∀ hs, w.handlers hs = hs
  cases : ∀ cs, w.cases cs = cs

theorem suitsBlocking_dropErased : dropErased.SuitsBlocking where
  block owner slot ss := by
    simp only [dropErased, blockingStmts_eq_map, List.filter_map]
    exact congrArg (List.map Stmt.blocking) (List.filter_congr fun s _ => congrArg not s.isErased_blocking)
  renewed _ _ _ _ := rfl
  handlers _ := rfl
  cases _ := rfl

theorem filler?_forChild (span : Span) (isBare : Bool) (slot : Slot) :
    filler? (.item span.forChild isBare) slot = filler? (.item span isBare) slot := by
  cases slot <;> cases isBare <;> rfl

theorem blockingStmts_filler? (owner : Owner) (slot : Slot) :
    blockingStmts (filler? owner slot).toList = (filler? owner slot).toList := by
  unfold filler?
  split <;> rfl

theorem suitsBlocking_pad : pad.SuitsBlocking where
  block owner slot ss := by
    simp only [pad, any_isReal_blockingStmts]
    split
    · rfl
    · rw [blockingStmts_append, blockingStmts_filler?]
  renewed span isBare slot ss := by
    simp only [pad, filler?_forChild]
  handlers _ := rfl
  cases _ := rfl

variable {w : BlockMap}

theorem SuitsBlocking.block_renewed (h : w.SuitsBlocking) (info : Info) (isNew isBare : Bool) (slot : Slot)
    (ss : List Stmt) :
    w.block (.item (info.renewed isNew).span isBare) slot (blockingStmts ss) =
      blockingStmts (w.block (.item info.span isBare) slot ss) := by
  cases isNew with
  | false => exact h.block ..
  | true => exact (h.renewed ..).trans (h.block ..)

end BlockMap

section

variable {w : BlockMap}

mutual

theorem Stmt.blocking_mapBlocks (hw : w.SuitsBlocking) : (s : Stmt) → s.blocking.mapBlocks w = (s.mapBlocks w).blocking
  | .simple _ _ => rfl
  | .comment _ => rfl
  | .block info head body => by
    simp only [Stmt.blocking, Stmt.mapBlocks, blockingStmts_mapStmts hw body, hw.block_renewed]
  | .branch info head body orelse => by
    simp only [Stmt.blocking, Stmt.mapBlocks, blockingStmts_mapStmts hw body, blockingStmts_mapStmts hw orelse,
      hw.block_renewed]
  | .attempt info isGroup body handlers orelse finalbody => by
    simp only [Stmt.blocking, Stmt.mapBlocks, hw.handlers, blockingStmts_mapStmts hw body,
      blockingHandlers_mapHandlers hw handlers, blockingStmts_mapStmts hw orelse, blockingStmts_mapStmts hw finalbody,
      isEmpty_blockingHandlers, hw.block]
  | .select info subject cases => by
    simp only [Stmt.blocking, Stmt.mapBlocks, hw.cases, blockingCases_mapCases hw cases]

theorem blockingStmts_mapStmts (hw : w.SuitsBlocking) :
    (ss : List Stmt) → mapStmts w (blockingStmts ss) = blockingStmts (mapStmts w ss)
  | [] => rfl
  | s :: ss => by
    simp only [blockingStmts, mapStmts, Stmt.blocking_mapBlocks hw s, blockingStmts_mapStmts hw ss]

theorem blockingHandlers_mapHandlers (hw : w.SuitsBlocking) :
    (hs : List Handler) → mapHandlers w (blockingHandlers hs) = blockingHandlers (mapHandlers w hs)
  | [] => rfl
  | .comment c :: hs => by
    simp only [blockingHandlers, mapHandlers, blockingHandlers_mapHandlers hw hs]
  | .handler span type name body :: hs => by
    simp only [blockingHandlers, mapHandlers, blockingStmts_mapStmts hw body, hw.block,
      blockingHandlers_mapHandlers hw hs]

theorem blockingCases_mapCases (hw : w.SuitsBlocking) :
    (cs : List Case) → mapCases w (blockingCases cs) = blockingCases (mapCases w cs)
  | [] => rfl
  | .comment c :: cs => by
    simp only [blockingCases, mapCases, blockingCases_mapCases hw cs]
  | .case lines pattern guard body :: cs => by
    simp only [blockingCases, mapCases, blockingStmts_mapStmts hw body, hw.block, blockingCases_mapCases hw cs]

end

theorem Tree.blocking_mapBlocks (hw : w.SuitsBlocking) (t : Tree) :
    t.blocking.mapBlocks w = (t.mapBlocks w).blocking := by
  cases t <;>
    simp only [Tree.blocking, Tree.mapBlocks, Tree.withBody, Tree.body, blockingStmts_mapStmts hw, hw.block]

end

theorem Tree.blocking_finalize (t : Tree) : t.blocking.finalize = t.finalize.blocking := by
  rw [Tree.finalize, Tree.finalize, Tree.dropErased, Tree.pad, Tree.dropErased, Tree.pad,
    Tree.blocking_mapBlocks BlockMap.suitsBlocking_dropErased, Tree.blocking_mapBlocks BlockMap.suitsBlocking_pad]

namespace Conversion

open Traced

variable (c : Conversion)

theorem exists_retarget_importFrom (module : Option String) (names : List Alias) (level : Option Nat) :
    ∃ module' names', c.retarget (.importFrom module names level) = .importFrom module' names' level := by
  simp only [retarget]
  repeat' split
  all_goals exact ⟨_, _, rfl⟩

/-- Imports are not changed by making things blocking, and nothing else is changed by a conversion. -/
theorem retarget_blocking (what : Simple) : c.retarget (Blocking.simple what) = Blocking.simple (c.retarget what) := by
  cases what with
  | importFrom module names level =>
    obtain ⟨module', names', h⟩ := c.exists_retarget_importFrom module names level
    exact h.trans (congrArg Blocking.simple h).symm
  | _ => rfl

theorem untagged_renewed (info : Info) (isNew : Bool) :
    c.untagged (info.renewed isNew) = (c.untagged info).renewed isNew := by
  cases isNew <;> rfl

variable {c}

theorem follows_leave (s : Stmt) : Follows blockingStmts (c.leave s) (c.leave s.blocking) := by
  rw [Follows, leave_result, leave_result, s.isDeclaration_blocking, s.forChild_blocking]
  cases s.isDeclaration <;> rfl

theorem follows_tailor_of_other {load load' : Loader} {around : Surroundings} {s : Stmt}
    (h : s.isFor c.variant.other = true) :
    Follows blockingStmts (c.tailor load around s) (c.tailor load' around s.blocking) := by
  rw [tailor_of_other h, tailor_of_other ((s.isFor_blocking _).trans h)]
  exact follows_leave s

/-- What is loaded for a module is the blocking form of what is loaded for it in the other case. -/
abbrev Loader.Follows (load load' : Loader) : Prop :=
  ∀ around name explicit line,
    Traced.Follows blockingStmts (load around name explicit line) (load' around name explicit line)

section

variable {load load' : Loader}

mutual

theorem follows_tailor (hl : Loader.Follows load load') (around : Surroundings) :
    (s : Stmt) → Follows blockingStmts (c.tailor load around s) (c.tailor load' around s.blocking)
  | .comment k => follows_pure ..
  | .simple info what => by
    cases hf : info.tags.any (Tag.names c.variant.other) with
    | true => exact follows_tailor_of_other hf
    | false =>
      rw [Stmt.blocking, tailor_simple hf, tailor_simple hf, retarget_blocking]
      exact follows_pure ..
  | .block info head body => by
    cases hf : info.tags.any (Tag.names c.variant.other) with
    | true => exact follows_tailor_of_other hf
    | false =>
      have hf' : (info.renewed head.isAsync).tags.any (Tag.names c.variant.other) = false := by
        rw [tags_renewed, hf]
      cases hm : head.role with
      | erased => cases head <;> cases hm
      | ordinary =>
        have hm' : (Blocking.blockHead head).role = .ordinary := by
          cases head with
          | module_ name => cases hm
          | _ => rfl
        rw [Stmt.blocking, tailor_block hf hm, tailor_block hf' hm', untagged_renewed]
        exact (follows_tailorStmts hl around body).bind fun _ => follows_pure ..
      | module_ =>
        cases head with
        | module_ name =>
          have hblock : (Stmt.block info (.module_ name) body).blocking =
              .block info (.module_ name) (blockingStmts body) := rfl
          have hsame : isInline (blockingStmts body) = isInline body := any_isReal_blockingStmts body
          cases hinline : isInline body with
          | false =>
            simp only [hblock, tailor, keptTags_of_own hf, hsame, hinline, Bool.false_eq_true, if_false]
            exact (hl ..).bind fun _ => follows_pure ..
          | true =>
            simp only [hblock, tailor, keptTags_of_own hf, hsame, hinline, if_true]
            cases (Tag.take Tag.sourceFamily (info.tags.filter fun t => !t.names c.variant)).1 with
            | some path => exact follows_fail ..
            | none => exact (follows_tailorStmts hl _ body).bind fun _ => follows_pure ..
        | _ => cases hm
  | .branch info head body orelse => by
    cases hf : info.tags.any (Tag.names c.variant.other) with
    | true => exact follows_tailor_of_other hf
    | false =>
      have hf' : (info.renewed head.isAsync).tags.any (Tag.names c.variant.other) = false := by
        rw [tags_renewed, hf]
      rw [Stmt.blocking, tailor_branch hf, tailor_branch hf', untagged_renewed]
      exact (follows_tailorStmts hl around body).bind fun _ => (follows_tailorStmts hl around orelse).bind fun _ =>
        follows_pure ..
  | .attempt info isGroup body handlers orelse finalbody => by
    cases hf : info.tags.any (Tag.names c.variant.other) with
    | true => exact follows_tailor_of_other hf
    | false =>
      rw [Stmt.blocking, tailor_attempt hf, tailor_attempt hf]
      exact (follows_tailorStmts hl around body).bind fun _ => (follows_tailorHandlers hl around handlers).bind fun _ =>
        (follows_tailorStmts hl around orelse).bind fun _ => (follows_tailorStmts hl around finalbody).bind fun _ =>
          follows_pure ..
  | .select info subject cases => by
    cases hf : info.tags.any (Tag.names c.variant.other) with
    | true => exact follows_tailor_of_other hf
    | false =>
      rw [Stmt.blocking, tailor_select hf, tailor_select hf]
      exact (follows_tailorCases hl around cases).bind fun _ => follows_pure ..

theorem follows_tailorStmts (hl : Loader.Follows load load') (around : Surroundings) : (ss : List Stmt) →
    Follows blockingStmts (c.tailorStmts load around ss) (c.tailorStmts load' around (blockingStmts ss))
  | [] => follows_pure ..
  | s :: ss => by
    refine (follows_tailor hl around s).bind fun first => (follows_tailorStmts hl around ss).bind fun rest => ?_
    rw [← blockingStmts_append]
    exact follows_pure ..

theorem follows_tailorHandlers (hl : Loader.Follows load load') (around : Surroundings) : (hs : List Handler) →
    Follows blockingHandlers (c.tailorHandlers load around hs) (c.tailorHandlers load' around (blockingHandlers hs))
  | [] => follows_pure ..
  | .comment _ :: hs => (follows_tailorHandlers hl around hs).bind fun _ => follows_pure ..
  | .handler _ _ _ body :: hs =>
    (follows_tailorStmts hl around body).bind fun _ =>
      (follows_tailorHandlers hl around hs).bind fun _ => follows_pure ..

theorem follows_tailorCases (hl : Loader.Follows load load') (around : Surroundings) : (cs : List Case) →
    Follows blockingCases (c.tailorCases load around cs) (c.tailorCases load' around (blockingCases cs))
  | [] => follows_pure ..
  | .comment _ :: cs => (follows_tailorCases hl around cs).bind fun _ => follows_pure ..
  | .case _ _ _ body :: cs =>
    (follows_tailorStmts hl around body).bind fun _ => (follows_tailorCases hl around cs).bind fun _ => follows_pure ..

end

end

/-- A conversion without a library has the same outcome for the blocking form of a tree as for the tree, made blocking
afterwards: the same tree, or the same complaint with its file and line. -/
theorem convert_blocking (c : Conversion) (origin : Option FilePath) (t : Tree) :
    (c.convert none origin t.blocking).result = (c.convert none origin t).result.map Tree.blocking := by
  have hload : Loader.Follows (c.loader none) (c.loader none) := fun _ _ _ _ => follows_fail ..
  have hbody : t.blocking.body = blockingStmts t.body := Tree.body_withBody ..
  have hwith : ∀ body, t.blocking.withBody (blockingStmts body) = (t.withBody body).blocking := by
    intro body
    simp only [Tree.blocking, Tree.withBody_withBody, Tree.body_withBody]
  simp only [convert, firstChain_none, hbody]
  refine Follows.mapFailure ((follows_pure id []).bind fun chain => ?_) _
  refine (follows_tailorStmts hload _ t.body).bind fun body => ?_
  rw [hwith, Tree.blocking_finalize]
  exact follows_pure ..

end Conversion

end TwinModule
