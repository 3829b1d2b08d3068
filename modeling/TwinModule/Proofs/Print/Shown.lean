import TwinModule.Proofs.Print.WrittenOut
import TwinModule.Proofs.Tree.Gist
import TwinModule.Proofs.Tree.Modules
/-!
A tree with those of its tags that are written is a tree that could have been read, and it says less than the tree
unless it is the tree.
-/
set_option autoImplicit false

namespace TwinModule

open Directive

theorem any_isReal_map_untagged (ss : List Stmt) : (ss.map (·.withTags [])).any Stmt.isReal = ss.any Stmt.isReal := by
  simp [List.any_map, Function.comp_def, isReal_withTags]

theorem any_isReal_withShownDoc (ss : List Stmt) : (withShownDoc ss).any Stmt.isReal = ss.any Stmt.isReal := by
  cases ss with
  | nil => rfl
  | cons s ss =>
    rw [withShownDoc, List.any_cons, List.any_cons]
    split
    · rw [isReal_withTags]
    · rfl

theorem any_isReal_withShownChain (ss : List Stmt) (head : BranchHead) :
    (withShownChain ss head).any Stmt.isReal = ss.any Stmt.isReal := by
  cases head with
  | if_ test =>
    rw [withShownChain]
    split
    · exact any_isReal_map_untagged ss
    · rfl
  | _ => rfl

theorem Stmt.isReal_shown (s : Stmt) : s.shown.isReal = s.isReal := by
  cases s <;> rfl

theorem any_isReal_stmtsShown (ss : List Stmt) : (stmtsShown ss).any Stmt.isReal = ss.any Stmt.isReal := by
  induction ss with
  | nil => rfl
  | cons s ss ih => rw [stmtsShown, List.any_cons, List.any_cons, ih, Stmt.isReal_shown]

section

variable {outer : Bool}

/-- No rule asks for tags. -/
theorem attached_stmt_untagged {role : Role} {ts : List Tag} (h : Rule.attached.stmt outer role ts) :
    Rule.attached.stmt outer role [] := ⟨h.1, h.2.1, by simp⟩

theorem Stmt.Obeys.untagged {s : Stmt} (h : s.Obeys .attached outer) : (s.withTags []).Obeys .attached outer := by
  cases s with
  | comment c => exact h
  | _ => exact h.retag rfl (attached_stmt_untagged (h.stmt rfl))

theorem obeys_withShownDoc {ss : List Stmt} (h : stmtsObey .attached outer ss) :
    stmtsObey .attached outer (withShownDoc ss) := by
  cases ss with
  | nil => exact h
  | cons s ss =>
    refine ⟨?_, h.2⟩
    split
    · exact h.1.untagged
    · exact h.1

theorem obeys_withShownChain {ss : List Stmt} (h : stmtsObey .attached outer ss) (head : BranchHead) :
    stmtsObey .attached outer (withShownChain ss head) := by
  cases head with
  | if_ test =>
    rw [withShownChain]
    split
    · exact stmtsObey_iff.2 (List.forall_mem_map.2 fun s hs => (stmtsObey_iff.1 h s hs).untagged)
    · exact h
  | _ => exact h

theorem attached_block_shown {inner isBare : Bool} {span : Span} {slot : Slot} {ss us : List Stmt}
    (h : Rule.attached.block inner (.item span isBare) slot ss) (hu : us.any Stmt.isReal = ss.any Stmt.isReal) :
    Rule.attached.block inner (.item span isBare) slot us := fun hm => (h hm).imp id hu.trans

theorem isEmpty_handlersShown (hs : List Handler) : (handlersShown hs).isEmpty = hs.isEmpty := by
  cases hs with
  | nil => rfl
  | cons h hs => cases h <;> rfl

end

mutual

/-- What a tree obeys that has been read, it obeys with those of its tags that are written. -/
theorem Stmt.Obeys.shown {outer : Bool} : (s : Stmt) → s.Obeys .attached outer → s.shown.Obeys .attached outer
  | .simple info what, h => h
  | .comment c, h => h
  | .block info head body, ⟨hi, hf, hb⟩ => by
    have hbody := stmtsObey_shown body hb
    refine ⟨hi, attached_block_shown hf ?_, ?_⟩
    · split
      · rw [any_isReal_withShownDoc, any_isReal_stmtsShown]
      · exact any_isReal_stmtsShown body
    · split
      · exact obeys_withShownDoc hbody
      · exact hbody
  | .branch info head body orelse, ⟨hi, ⟨hf, hb⟩, hfo, ho⟩ => by
    refine ⟨hi, ⟨attached_block_shown hf (any_isReal_stmtsShown body), stmtsObey_shown body hb⟩,
      attached_block_shown hfo ?_, obeys_withShownChain (stmtsObey_shown orelse ho) head⟩
    rw [any_isReal_withShownChain, any_isReal_stmtsShown]
  | .attempt info isGroup body handlers orelse finalbody, ⟨hi, ⟨hf, hb⟩, hh, ⟨hfo, ho⟩, hff, hfb⟩ => by
    rw [Stmt.shown, Stmt.Obeys, isEmpty_handlersShown]
    exact ⟨hi, ⟨attached_block_shown hf (any_isReal_stmtsShown body), stmtsObey_shown body hb⟩,
      handlersObey_shown handlers hh,
      ⟨attached_block_shown hfo (any_isReal_stmtsShown orelse), stmtsObey_shown orelse ho⟩,
      attached_block_shown hff (any_isReal_stmtsShown finalbody), stmtsObey_shown finalbody hfb⟩
  | .select info subject cases, ⟨hi, hc⟩ => ⟨hi, casesObey_shown cases hc⟩

theorem stmtsObey_shown {outer : Bool} : (ss : List Stmt) → stmtsObey .attached outer ss →
    stmtsObey .attached outer (stmtsShown ss)
  | [], _ => trivial
  | s :: ss, ⟨hs, hss⟩ => ⟨Stmt.Obeys.shown s hs, stmtsObey_shown ss hss⟩

theorem handlersObey_shown : (hs : List Handler) → handlersObey .attached hs → handlersObey .attached (handlersShown hs)
  | [], _ => trivial
  | .comment _ :: hs, ⟨hc, hhs⟩ => ⟨hc, handlersObey_shown hs hhs⟩
  | .handler _ _ _ body :: hs, ⟨⟨hf, hb⟩, hhs⟩ =>
    ⟨⟨attached_block_shown hf (any_isReal_stmtsShown body), stmtsObey_shown body hb⟩, handlersObey_shown hs hhs⟩

theorem casesObey_shown : (cs : List Case) → casesObey .attached cs → casesObey .attached (casesShown cs)
  | [], _ => trivial
  | .comment _ :: cs, ⟨hc, hcs⟩ => ⟨hc, casesObey_shown cs hcs⟩
  | .case _ _ _ body :: cs, ⟨⟨hf, hb⟩, hcs⟩ =>
    ⟨⟨attached_block_shown hf (any_isReal_stmtsShown body), stmtsObey_shown body hb⟩, casesObey_shown cs hcs⟩

end

section

variable {p : String → Option Nat → Prop}

theorem modules_withShownDoc {ss : List Stmt} (h : stmtsModules p ss) : stmtsModules p (withShownDoc ss) := by
  cases ss with
  | nil => exact h
  | cons s ss =>
    refine ⟨?_, h.2⟩
    split
    · exact Stmt.modules_withTags h.1 []
    · exact h.1

mutual

theorem Stmt.Modules.shown : (s : Stmt) → s.Modules p → s.shown.Modules p
  | .block _ (.module_ _) body, h => ⟨h.1, stmtsModules_shown body h.2⟩
  | .simple .., _ | .comment _, _ | .block _ (.function ..) _, _ | .block _ (.class_ ..) _, _
  | .block _ (.with_ ..) _, _ | .branch .., _ | .attempt .., _ | .select .., _ => trivial

theorem stmtsModules_shown : (ss : List Stmt) → stmtsModules p ss → stmtsModules p (stmtsShown ss)
  | [], _ => trivial
  | s :: ss, h => ⟨Stmt.Modules.shown s h.1, stmtsModules_shown ss h.2⟩

end

end

theorem obeys_shownBody {body : List Stmt} (h : stmtsObey .attached true body) :
    stmtsObey .attached true (shownBody body) :=
  obeys_withShownDoc (stmtsObey_shown body h)

theorem modules_shownBody {p : String → Option Nat → Prop} {body : List Stmt} (h : stmtsModules p body) :
    stmtsModules p (shownBody body) :=
  modules_withShownDoc (stmtsModules_shown body h)

theorem Stmt.isRemark_shown (s : Stmt) : s.shown.isRemark = s.isRemark := by
  cases s <;> rfl

theorem Stmt.tags_shown (s : Stmt) : s.shown.tags = s.tags := by
  cases s <;> rfl

theorem Stmt.isRemark_withTags (s : Stmt) (ts : List Tag) : (s.withTags ts).isRemark = s.isRemark := by
  cases s <;> rfl

/-- Blocks that say the same begin with what says the same and go on so. -/
theorem stmtsGist_cons_inj {s t : Stmt} {ss us : List Stmt} (hr : s.isRemark = t.isRemark)
    (h : stmtsGist (s :: ss) = stmtsGist (t :: us)) :
    (t.isRemark = true ∨ s.gist = t.gist) ∧ stmtsGist ss = stmtsGist us := by
  rw [stmtsGist_cons, stmtsGist_cons, hr] at h
  split at h
  · exact ⟨.inl ‹_›, h⟩
  · obtain ⟨hhead, htail⟩ := List.cons.inj h
    exact ⟨.inr hhead, htail⟩

/-- A statement that says what another one does, without its tags, has none to lose. -/
theorem Stmt.untagged_eq_self {s t : Stmt} (ht : s.tags = t.tags)
    (h : t.isRemark = true ∨ (s.withTags []).gist = t.gist) (hr : s.isRemark = t.isRemark) : s.withTags [] = s := by
  cases hs : s.isReal with
  | false =>
    cases s with
    | comment c => rfl
    | _ => cases hs
  | true =>
    rcases h with h | h
    · rw [← hr] at h
      cases s with
      | comment c => cases hs
      | _ => cases h
    · have htags : (s.withTags []).gist.tags = t.gist.tags := congrArg Stmt.tags h
      rw [Stmt.tags_gist, Stmt.tags_gist, Stmt.tags_withTags hs, ← ht] at htags
      have hnone : s.tags = [] := List.map_eq_nil_iff.1 htags.symm
      have hself := s.withTags_tags
      rwa [hnone] at hself

mutual

/-- A statement that says as much with those of its tags that are written has no other tags. -/
theorem Stmt.shown_eq_self : (s : Stmt) → s.isRemark = true ∨ s.shown.gist = s.gist → s.shown = s
  | .simple info what, _ => rfl
  | .comment c, _ => rfl
  | .block info head body, h => by
    have hmeans := h.resolve_left Bool.false_ne_true
    simp only [Stmt.shown, Stmt.gist, Stmt.block.injEq, true_and] at hmeans ⊢
    split
    · rename_i hspaced
      rw [if_pos hspaced] at hmeans
      exact shownBody_eq_self body hmeans
    · rename_i hspaced
      rw [if_neg hspaced] at hmeans
      exact stmtsShown_eq_self body hmeans
  | .branch info head body orelse, h => by
    have hmeans := h.resolve_left Bool.false_ne_true
    simp only [Stmt.shown, Stmt.gist, Stmt.branch.injEq, true_and] at hmeans ⊢
    refine ⟨stmtsShown_eq_self body hmeans.1, ?_⟩
    cases head with
    | if_ test =>
      simp only [withShownChain] at hmeans ⊢
      split
      · rename_i hchain
        rw [if_pos hchain] at hmeans
        exact stmtsUntagged_eq_self orelse hmeans.2
      · rename_i hchain
        rw [if_neg hchain] at hmeans
        exact stmtsShown_eq_self orelse hmeans.2
    | _ => exact stmtsShown_eq_self orelse hmeans.2
  | .attempt info isGroup body handlers orelse finalbody, h => by
    have hmeans := h.resolve_left Bool.false_ne_true
    simp only [Stmt.shown, Stmt.gist, Stmt.attempt.injEq, true_and] at hmeans ⊢
    obtain ⟨hbody, hhandlers, horelse, hfinal⟩ := hmeans
    exact ⟨stmtsShown_eq_self body hbody, handlersShown_eq_self handlers hhandlers, stmtsShown_eq_self orelse horelse,
      stmtsShown_eq_self finalbody hfinal⟩
  | .select info subject cases, h => by
    have hmeans := h.resolve_left Bool.false_ne_true
    simp only [Stmt.shown, Stmt.gist, Stmt.select.injEq, true_and] at hmeans ⊢
    exact casesShown_eq_self cases hmeans

theorem stmtsShown_eq_self : (ss : List Stmt) → stmtsGist (stmtsShown ss) = stmtsGist ss → stmtsShown ss = ss
  | [], _ => rfl
  | s :: ss, h => by
    obtain ⟨hs, hss⟩ := stmtsGist_cons_inj s.isRemark_shown h
    rw [stmtsShown, Stmt.shown_eq_self s hs, stmtsShown_eq_self ss hss]

theorem stmtsUntagged_eq_self : (ss : List Stmt) →
    stmtsGist ((stmtsShown ss).map (·.withTags [])) = stmtsGist ss → (stmtsShown ss).map (·.withTags []) = ss
  | [], _ => rfl
  | s :: ss, h => by
    have hr : (s.shown.withTags []).isRemark = s.isRemark := (Stmt.isRemark_withTags ..).trans s.isRemark_shown
    obtain ⟨hs, hss⟩ := stmtsGist_cons_inj hr h
    have huntagged := Stmt.untagged_eq_self s.tags_shown hs s.isRemark_shown
    rw [huntagged] at hs
    rw [stmtsShown, List.map_cons, huntagged, Stmt.shown_eq_self s hs, stmtsUntagged_eq_self ss hss]

/-- A body that says as much with those of its tags that are written has no other tags. -/
theorem shownBody_eq_self : (body : List Stmt) → stmtsGist (shownBody body) = stmtsGist body → shownBody body = body
  | [], _ => rfl
  | s :: ss, h => by
    rw [shownBody, stmtsShown, withShownDoc] at h ⊢
    split
    · rename_i hdoc
      rw [if_pos hdoc] at h
      have hr : (s.shown.withTags []).isRemark = s.isRemark := (Stmt.isRemark_withTags ..).trans s.isRemark_shown
      obtain ⟨hs, hss⟩ := stmtsGist_cons_inj hr h
      have huntagged := Stmt.untagged_eq_self s.tags_shown hs s.isRemark_shown
      rw [huntagged] at hs ⊢
      rw [Stmt.shown_eq_self s hs, stmtsShown_eq_self ss hss]
    · rename_i hdoc
      rw [if_neg hdoc] at h
      obtain ⟨hs, hss⟩ := stmtsGist_cons_inj s.isRemark_shown h
      rw [Stmt.shown_eq_self s hs, stmtsShown_eq_self ss hss]

theorem handlersShown_eq_self : (hs : List Handler) → handlersGist (handlersShown hs) = handlersGist hs →
    handlersShown hs = hs
  | [], _ => rfl
  | .comment c :: hs, h => by
    simp only [handlersShown, handlersGist] at h
    rw [handlersShown, handlersShown_eq_self hs]
    split at h
    · exact h
    · exact (List.cons.inj h).2
  | .handler span type name body :: hs, h => by
    simp only [handlersShown, handlersGist, List.cons.injEq, Handler.handler.injEq, true_and] at h
    rw [handlersShown, stmtsShown_eq_self body h.1, handlersShown_eq_self hs h.2]

theorem casesShown_eq_self : (cs : List Case) → casesGist (casesShown cs) = casesGist cs → casesShown cs = cs
  | [], _ => rfl
  | .comment c :: cs, h => by
    simp only [casesShown, casesGist] at h
    rw [casesShown, casesShown_eq_self cs]
    split at h
    · exact h
    · exact (List.cons.inj h).2
  | .case lines pattern guard body :: cs, h => by
    simp only [casesShown, casesGist, List.cons.injEq, Case.case.injEq, true_and] at h
    rw [casesShown, stmtsShown_eq_self body h.1, casesShown_eq_self cs h.2]

end

theorem stmtsGist_shownBody_iff {body : List Stmt} :
    stmtsGist (shownBody body) = stmtsGist body ↔ shownBody body = body :=
  ⟨shownBody_eq_self body, fun h => by rw [h]⟩

end TwinModule
