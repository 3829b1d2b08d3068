import TwinModule.Proofs.Conversion.Tailor
import TwinModule.Proofs.Directive.Attached
import TwinModule.Proofs.Tree.Tidy
import TwinModule.Blocking
/-!
What a tree is like once it is converted, whatever files it was filled in from: nothing for another variant, nothing
erased and no directive is in it, and it stays so in its blocking form.
-/
set_option autoImplicit false

namespace TwinModule

/-- No tags but those for the sources of modules, modules only in files and modules, plain comments, nothing erased,
and a statement in every block that needs one. -/
def Rule.converted : Rule where
  stmt outer role tags :=
    (role = .ordinary → tags = []) ∧ (role = .module_ → outer = true ∧ ∀ t ∈ tags, t.IsSource)
  comment := Comment.IsPlain
  block _ owner slot ss := ss.any Stmt.isErased = false ∧ Filled owner slot ss

namespace Conversion

theorem coarse_converted : Rule.converted.Coarse := by
  intro inner owner slot ss us hk
  have he : ∀ vs : List Stmt, vs.any Stmt.isErased = (vs.map Stmt.kind).any Prod.snd := by
    intro vs
    rw [List.any_map]
    rfl
  have hr : us.any Stmt.isReal = ss.any Stmt.isReal := any_isReal_of_kind hk
  simp only [Rule.converted, Rule.Filled]
  rw [he, he, hk, hr]

/-- The rule for a tree that is going to be tidied. -/
abbrev tailored : Rule := (Rule.converted.before .pad).before .dropErased

/-- Tidying makes every block right. -/
theorem tailored_block (inner : Bool) (owner : Owner) (slot : Slot) (ss : List Stmt) :
    tailored.block inner owner slot ss := by
  simp only [Rule.before, Rule.converted]
  have hd : (BlockMap.dropErased.block owner slot ss).any Stmt.isErased = false := by
    simp [BlockMap.dropErased]
  generalize BlockMap.dropErased.block owner slot ss = us at hd
  simp only [BlockMap.pad]
  split
  · rename_i hr
    exact ⟨hd, fun _ => hr⟩
  · cases hf : BlockMap.filler? owner slot with
    | none => exact ⟨by simp [hd], fun h => by simp [hf] at h⟩
    | some s =>
      have hs : s.isErased = false ∧ s.isReal = true := by
        unfold BlockMap.filler? at hf
        split at hf <;> cases hf
        all_goals exact ⟨rfl, rfl⟩
      exact ⟨by simp [hd, hs.1], fun _ => by simp [hs.2]⟩

variable {c : Conversion} {load : Loader}

theorem obeys_of_other {outer : Bool} {around : Surroundings} {s : Stmt} {ns : List Note} {out : List Stmt}
    (h : (c.tailor load around s).Yields ns out) (hf : s.isFor c.variant.other = true) :
    stmtsObey tailored outer out := by
  rw [tailor_of_other hf] at h
  have hr := h.result
  rw [leave_result] at hr
  cases hr
  split
  · trivial
  · exact ⟨⟨by simp [Simple.role], by simp [Simple.role]⟩, trivial⟩

/-- Of the tags that a source may have on its statements those for other variants are gone. -/
theorem stmt_of_untagged {outer : Bool} {role : Role} {info : Info} (h : Rule.attached.stmt outer role info.tags)
    (hf : info.tags.any (Tag.names c.variant.other) = false) : tailored.stmt outer role (c.untagged info).tags := by
  obtain ⟨-, houter, htags⟩ := h
  -- There are two variants, so a tag that is left names a source, and only modules have such tags.
  have hsource : ∀ t ∈ (c.untagged info).tags, t.IsSource ∧ role = .module_ := by
    intro t ht
    obtain ⟨ht, hown⟩ := List.mem_filter.1 ht
    rcases htags t ht with ⟨v, hv⟩ | hs
    · have hv' : v = c.variant ∨ v = c.variant.other := by cases v <;> cases c.variant <;> simp [Variant.other]
      rcases hv' with rfl | rfl
      · simp [hv] at hown
      · rw [List.any_eq_true.2 ⟨t, ht, hv⟩] at hf
        cases hf
    · exact hs
  refine ⟨fun hr => List.eq_nil_iff_forall_not_mem.2 fun t ht => ?_, fun hr => ⟨houter hr, fun t ht => ?_⟩⟩
  · have := (hsource t ht).2
    simp [hr] at this
  · exact (hsource t ht).1

/-- What a loader gives can be put into a module. -/
def Loader.Sound (load : Loader) : Prop :=
  ∀ around name explicit line ns body, (load around name explicit line).Yields ns body → stmtsObey tailored true body

theorem obeys_of_tailor_block (hl : Loader.Sound load) {outer : Bool} {around : Surroundings} {info : Info}
    {head : BlockHead} {body : List Stmt} {ns : List Note} {out : List Stmt}
    (hi : Rule.attached.stmt outer head.role info.tags)
    (ih : ∀ (around : Surroundings) (ms : List Note) (body' : List Stmt),
      (c.tailorStmts load around body).Yields ms body' → stmtsObey tailored head.isModule body')
    (h : (c.tailor load around (.block info head body)).Yields ns out) : stmtsObey tailored outer out := by
  cases hf : info.tags.any (Tag.names c.variant.other) with
  | true => exact obeys_of_other h hf
  | false =>
    have hkept := stmt_of_untagged hi hf
    cases hm : head.role with
    | erased => exact absurd hm hi.1
    | ordinary =>
      rw [tailor_block hf hm] at h
      obtain ⟨body', hbody, rfl⟩ := Traced.bind_pure_yields_iff.1 h
      exact ⟨⟨hkept, tailored_block .., ih around ns body' hbody⟩, trivial⟩
    | module_ =>
      cases head with
      | module_ name =>
        obtain ⟨explicit, body', rfl, hbody⟩ := exists_tailored_module hf h
        have hmodule : tailored.stmt outer .module_ (Tag.take Tag.sourceFamily (c.untagged info).tags).2 :=
          ⟨by simp, fun hr => ⟨(hkept.2 hr).1, fun t ht => (hkept.2 hr).2 t (Tag.mem_take ht)⟩⟩
        rcases hbody with ⟨-, hbody⟩ | ⟨-, hbody⟩
        · exact ⟨⟨hmodule, tailored_block .., ih _ ns body' hbody⟩, trivial⟩
        · exact ⟨⟨hmodule, tailored_block .., hl _ _ _ _ _ _ hbody⟩, trivial⟩
      | _ => cases hm

mutual

theorem obeys_of_tailor (hl : Loader.Sound load) {outer : Bool} {around : Surroundings} {ns : List Note}
    {out : List Stmt} : (s : Stmt) → s.Obeys .attached outer → (c.tailor load around s).Yields ns out →
    stmtsObey tailored outer out
  | .comment k, hs, h => by
    obtain ⟨-, rfl⟩ := Traced.pure_yields_iff.1 h
    exact ⟨hs, trivial⟩
  | .simple info what, hs, h => by
    cases hf : info.tags.any (Tag.names c.variant.other) with
    | true => exact obeys_of_other h hf
    | false =>
      rw [tailor_simple hf] at h
      obtain ⟨-, rfl⟩ := Traced.pure_yields_iff.1 h
      refine ⟨?_, trivial⟩
      simp only [Stmt.Obeys, role_retarget]
      exact stmt_of_untagged hs hf
  | .block info head body, ⟨hi, _, hb⟩, h =>
    obeys_of_tailor_block hl hi (fun _ _ _ hbody => obeys_of_tailorStmts hl body hb hbody) h
  | .branch info head body orelse, ⟨hi, ⟨_, hb⟩, _, ho⟩, h => by
    cases hf : info.tags.any (Tag.names c.variant.other) with
    | true => exact obeys_of_other h hf
    | false =>
      rw [tailor_branch hf] at h
      obtain ⟨_, body', _, orelse', hbody, horelse, -, rfl⟩ := Traced.bind_bind_pure_yields_iff.1 h
      exact ⟨⟨stmt_of_untagged hi hf, ⟨tailored_block .., obeys_of_tailorStmts hl body hb hbody⟩,
        tailored_block .., obeys_of_tailorStmts hl orelse ho horelse⟩, trivial⟩
  | .attempt info isGroup body handlers orelse finalbody, ⟨hi, ⟨_, hb⟩, hh, ⟨_, ho⟩, _, hfb⟩, h => by
    cases hf : info.tags.any (Tag.names c.variant.other) with
    | true => exact obeys_of_other h hf
    | false =>
      obtain ⟨_, body', _, handlers', _, orelse', _, finalbody', hbody, hhandlers, horelse, hfinal, -, rfl⟩ :=
        exists_tailored_attempt hf h
      exact ⟨⟨stmt_of_untagged hi hf, ⟨tailored_block .., obeys_of_tailorStmts hl body hb hbody⟩,
        obeys_of_tailorHandlers hl handlers hh hhandlers,
        ⟨tailored_block .., obeys_of_tailorStmts hl orelse ho horelse⟩,
        tailored_block .., obeys_of_tailorStmts hl finalbody hfb hfinal⟩, trivial⟩
  | .select info subject cases, ⟨hi, hc⟩, h => by
    cases hf : info.tags.any (Tag.names c.variant.other) with
    | true => exact obeys_of_other h hf
    | false =>
      rw [tailor_select hf] at h
      obtain ⟨cases', hcases, rfl⟩ := Traced.bind_pure_yields_iff.1 h
      exact ⟨⟨stmt_of_untagged hi hf, obeys_of_tailorCases hl cases hc hcases⟩, trivial⟩
termination_by structural s => s

theorem obeys_of_tailorStmts (hl : Loader.Sound load) {outer : Bool} {around : Surroundings} {ns : List Note}
    {out : List Stmt} : (ss : List Stmt) → stmtsObey .attached outer ss →
    (c.tailorStmts load around ss).Yields ns out → stmtsObey tailored outer out
  | [], _, h => by
    obtain ⟨-, rfl⟩ := Traced.pure_yields_iff.1 h
    trivial
  | s :: ss, ⟨hs, hss⟩, h => by
    obtain ⟨_, first, _, rest, hfirst, hrest, -, rfl⟩ := Traced.bind_bind_pure_yields_iff.1 h
    exact (stmtsObey_append ..).2 ⟨obeys_of_tailor hl s hs hfirst, obeys_of_tailorStmts hl ss hss hrest⟩
termination_by structural ss => ss

theorem obeys_of_tailorHandlers (hl : Loader.Sound load) {around : Surroundings} {ns : List Note}
    {out : List Handler} : (hs : List Handler) → handlersObey .attached hs →
    (c.tailorHandlers load around hs).Yields ns out → handlersObey tailored out
  | [], _, h => by
    obtain ⟨-, rfl⟩ := Traced.pure_yields_iff.1 h
    trivial
  | .comment k :: hs, ⟨hk, hhs⟩, h => by
    obtain ⟨rest, hrest, rfl⟩ := Traced.bind_pure_yields_iff.1 h
    exact ⟨hk, obeys_of_tailorHandlers hl hs hhs hrest⟩
  | .handler span type name body :: hs, ⟨⟨_, hb⟩, hhs⟩, h => by
    obtain ⟨_, body', _, rest, hbody, hrest, -, rfl⟩ := Traced.bind_bind_pure_yields_iff.1 h
    exact ⟨⟨tailored_block .., obeys_of_tailorStmts hl body hb hbody⟩, obeys_of_tailorHandlers hl hs hhs hrest⟩
termination_by structural hs => hs

theorem obeys_of_tailorCases (hl : Loader.Sound load) {around : Surroundings} {ns : List Note}
    {out : List Case} : (cs : List Case) → casesObey .attached cs →
    (c.tailorCases load around cs).Yields ns out → casesObey tailored out
  | [], _, h => by
    obtain ⟨-, rfl⟩ := Traced.pure_yields_iff.1 h
    trivial
  | .comment k :: cs, ⟨hk, hcs⟩, h => by
    obtain ⟨rest, hrest, rfl⟩ := Traced.bind_pure_yields_iff.1 h
    exact ⟨hk, obeys_of_tailorCases hl cs hcs hrest⟩
  | .case lines pattern guard body :: cs, ⟨⟨_, hb⟩, hcs⟩, h => by
    obtain ⟨_, body', _, rest, hbody, hrest, -, rfl⟩ := Traced.bind_bind_pure_yields_iff.1 h
    exact ⟨⟨tailored_block .., obeys_of_tailorStmts hl body hb hbody⟩, obeys_of_tailorCases hl cs hcs hrest⟩
termination_by structural cs => cs

end

theorem sound_noLibrary : Loader.Sound noLibrary :=
  fun _ _ _ _ _ _ h => absurd h (Traced.not_fail_yields _)

/-- However deep files are read in files, what is filled in has been tailored. -/
theorem sound_fromLibrary (c : Conversion) (lib : Library) (depth : Nat) :
    Loader.Sound (c.fromLibrary lib depth) := by
  induction depth with
  | zero =>
    intro around name explicit line ns body h
    exact absurd h (Traced.not_fail_yields _)
  | succ depth ih =>
    intro around name explicit line ns body h
    obtain ⟨path, chain, loaded, ks, hload, h, -⟩ := exists_loaded_of_fromLibrary h
    exact obeys_of_tailorStmts ih loaded (Library.load_obeys hload) h

theorem sound_loader (c : Conversion) (lib : Option Library) : Loader.Sound (c.loader lib) := by
  cases lib with
  | none => exact sound_noLibrary
  | some lib => exact sound_fromLibrary c lib (maxDepth lib)

/-- Whatever a tree is filled in from, it is converted as a whole. -/
theorem obeys_of_convert {c : Conversion} {lib : Option Library} {origin : Option FilePath} {t t' : Tree}
    (ht : stmtsObey .attached true t.body) (h : (c.convert lib origin t).result = .ok t') : t'.Obeys .converted := by
  obtain ⟨around, body, hbody, rfl⟩ := exists_tailored_of_convert (Traced.yields_of_result h)
  refine (Tree.finalize_obeys_iff coarse_converted ?_ ?_ _).2 ?_
  · exact fun _ _ => ⟨by simp, by simp⟩
  · exact fun _ => ⟨by simp, by simp⟩
  · have hobeys := obeys_of_tailorStmts (sound_loader c lib) t.body ht hbody
    cases t <;> exact ⟨tailored_block .., hobeys⟩

end Conversion

theorem kind_blocking (s : Stmt) : s.blocking.kind = s.kind := by
  cases s with
  | simple info what => cases what <;> rfl
  | _ => rfl

theorem kind_blockingStmts (ss : List Stmt) : (blockingStmts ss).map Stmt.kind = ss.map Stmt.kind := by
  rw [blockingStmts_eq_map, List.map_map]
  exact List.map_congr_left fun s _ => kind_blocking s

theorem role_blocking_simple (what : Simple) : (Blocking.simple what).role = what.role := by
  cases what <;> rfl

theorem role_blockHead (head : BlockHead) : (Blocking.blockHead head).role = head.role := by
  cases head <;> rfl

theorem isModule_blockHead (head : BlockHead) : (Blocking.blockHead head).isModule = head.isModule := by
  cases head <;> rfl

theorem isEmpty_blockingHandlers (hs : List Handler) : (blockingHandlers hs).isEmpty = hs.isEmpty := by
  cases hs with
  | nil => rfl
  | cons h hs => cases h <;> rfl

namespace Rule

/-- It does not matter to a block of a converted tree where its owner is. -/
theorem block_blocking {inner : Bool} {span span' : Span} {isBare : Bool} {slot : Slot} {ss : List Stmt}
    (h : converted.block inner (.item span isBare) slot ss) :
    converted.block inner (.item span' isBare) slot (blockingStmts ss) := by
  obtain ⟨he, hf⟩ := (Conversion.coarse_converted inner (.item span isBare) slot ss _ (kind_blockingStmts ss)).2 h
  exact ⟨he, hf.imp id id⟩

end Rule

open Rule

mutual

theorem obeys_blocking {outer : Bool} : (s : Stmt) → s.Obeys .converted outer → s.blocking.Obeys .converted outer
  | .simple info what, h => by
    simp only [Stmt.blocking, Stmt.Obeys, role_blocking_simple]
    exact h
  | .comment c, h => h
  | .block info head body, ⟨hi, hf, hb⟩ => by
    simp only [Stmt.blocking, Stmt.Obeys, role_blockHead, isModule_blockHead, tags_renewed]
    exact ⟨hi, block_blocking hf, stmtsObey_blocking body hb⟩
  | .branch info head body orelse, ⟨hi, ⟨hf, hb⟩, hfo, ho⟩ => by
    simp only [Stmt.blocking, Stmt.Obeys, tags_renewed]
    exact ⟨hi, ⟨block_blocking hf, stmtsObey_blocking body hb⟩, block_blocking hfo, stmtsObey_blocking orelse ho⟩
  | .attempt info isGroup body handlers orelse finalbody, ⟨hi, ⟨hf, hb⟩, hh, ⟨hfo, ho⟩, hff, hfb⟩ => by
    simp only [Stmt.blocking, Stmt.Obeys, isEmpty_blockingHandlers]
    exact ⟨hi, ⟨block_blocking hf, stmtsObey_blocking body hb⟩, handlersObey_blocking handlers hh,
      ⟨block_blocking hfo, stmtsObey_blocking orelse ho⟩, block_blocking hff, stmtsObey_blocking finalbody hfb⟩
  | .select info subject cases, ⟨hi, hc⟩ => ⟨hi, casesObey_blocking cases hc⟩

theorem stmtsObey_blocking {outer : Bool} :
    (ss : List Stmt) → stmtsObey .converted outer ss → stmtsObey .converted outer (blockingStmts ss)
  | [], _ => trivial
  | s :: ss, ⟨hs, hss⟩ => ⟨obeys_blocking s hs, stmtsObey_blocking ss hss⟩

theorem handlersObey_blocking :
    (hs : List Handler) → handlersObey .converted hs → handlersObey .converted (blockingHandlers hs)
  | [], _ => trivial
  | .comment _ :: hs, ⟨hc, hhs⟩ => ⟨hc, handlersObey_blocking hs hhs⟩
  | .handler _ _ _ body :: hs, ⟨⟨hf, hb⟩, hhs⟩ =>
    ⟨⟨block_blocking hf, stmtsObey_blocking body hb⟩, handlersObey_blocking hs hhs⟩

theorem casesObey_blocking :
    (cs : List Case) → casesObey .converted cs → casesObey .converted (blockingCases cs)
  | [], _ => trivial
  | .comment _ :: cs, ⟨hc, hcs⟩ => ⟨hc, casesObey_blocking cs hcs⟩
  | .case _ _ _ body :: cs, ⟨⟨hf, hb⟩, hcs⟩ =>
    ⟨⟨block_blocking hf, stmtsObey_blocking body hb⟩, casesObey_blocking cs hcs⟩

end

theorem Tree.obeys_blocking {t : Tree} (h : t.Obeys .converted) : t.blocking.Obeys .converted := by
  cases t with
  | file body =>
    have hblock := (Conversion.coarse_converted true .file .body body _ (kind_blockingStmts body)).2 h.1
    exact ⟨hblock, stmtsObey_blocking body h.2⟩
  | module_ info name body => exact ⟨block_blocking h.1, stmtsObey_blocking body h.2⟩

end TwinModule
