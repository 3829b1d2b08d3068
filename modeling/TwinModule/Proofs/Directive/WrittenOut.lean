import TwinModule.Proofs.Directive.Gist
import TwinModule.Proofs.Directive.Rendered
import TwinModule.Proofs.Print.WrittenOut
/-!
Putting into effect the directives that are written out of a tree gives back the tree, up to places and the lines of
tags.
-/
set_option autoImplicit false

namespace TwinModule

namespace Directive

theorem Derives.append {v w : List Item} {out out' : List Stmt} (h : Derives v out) (h' : Derives w out') :
    Derives (v ++ w) (out ++ out') := by
  induction h with
  | nil => exact h'
  | remark rest ih => exact .remark ih
  | statement lines noSource rest ih => simpa using Derives.statement lines noSource ih
  | declare lines rest ih => simpa using Derives.declare lines ih
  | inline lines within rest ihWithin ih => simpa using Derives.inline lines within ih

theorem word?_append {ss us : List Stmt} {v w : List Item} (hv : word? ss = some v) (hw : word? us = some w) :
    word? (ss ++ us) = some (v ++ w) := by
  induction ss generalizing v with
  | nil =>
    cases hv
    exact hw
  | cons s ss ih =>
    obtain ⟨i, hi, v', hv', rfl⟩ := word?_cons_eq_some_iff.1 hv
    exact word?_cons_eq_some_iff.2 ⟨i, hi, v' ++ w, ih hv', rfl⟩

end Directive

open Directive

theorem attachStmts_append {ss us ss' us' : List Stmt} (hs : attachStmts ss = .ok ss') (hu : attachStmts us = .ok us') :
    attachStmts (ss ++ us) = .ok (ss' ++ us') := by
  induction ss generalizing ss' with
  | nil =>
    cases hs
    exact hu
  | cons s ss ih =>
    simp only [attachStmts, bind_eq_ok_iff] at hs
    obtain ⟨t, ht, rest, hrest, hs⟩ := hs
    cases hs
    rw [List.cons_append, attachStmts, ht, ih hrest]
    rfl

namespace Directive

/-- A block that is read as another one: its word is derived, and the tree of the derivation says what the other one
says. -/
def ReadAs (outer : Bool) (us ss : List Stmt) : Prop :=
  ∃ inner w out, attachStmts us = .ok inner ∧ word? inner = some w ∧ (outer = false → ∀ i ∈ w, i.isModule = false) ∧
    Derives w out ∧ stmtsGist out = stmtsGist ss

namespace ReadAs

variable {outer : Bool} {us us' ss ss' : List Stmt}

theorem nil : ReadAs outer [] [] := ⟨[], [], [], rfl, rfl, by simp, .nil, rfl⟩

theorem append (h : ReadAs outer us ss) (h' : ReadAs outer us' ss') : ReadAs outer (us ++ us') (ss ++ ss') := by
  obtain ⟨inner, w, out, hinner, hw, hm, hd, hgist⟩ := h
  obtain ⟨inner', w', out', hinner', hw', hm', hd', hgist'⟩ := h'
  refine ⟨inner ++ inner', w ++ w', out ++ out', attachStmts_append hinner hinner', word?_append hw hw',
    fun ho i hi => ?_, hd.append hd', by rw [stmtsGist_append, hgist, hgist', ← stmtsGist_append]⟩
  rcases List.mem_append.1 hi with hi | hi
  · exact hm ho i hi
  · exact hm' ho i hi

/-- Its directives can be put into effect. -/
theorem exists_group (h : ReadAs outer us ss) :
    ∃ inner out, attachStmts us = .ok inner ∧ group outer inner = .ok out ∧ stmtsGist out = stmtsGist ss := by
  obtain ⟨inner, w, out, hinner, hw, hm, hd, hgist⟩ := h
  exact ⟨inner, out, hinner, (group_eq_ok_iff hw).2 ⟨hd, hm⟩, hgist⟩

end ReadAs

/-- Tags that may be written out. -/
def AreTags (ts : List Tag) : Prop := ∀ t ∈ ts, t.IsVariant ∨ t.IsSource

theorem attachStmts_tagComments (ts : List Tag) : attachStmts (tagComments ts) = .ok (tagComments ts) := by
  induction ts with
  | nil => rfl
  | cons t ts ih =>
    simp only [tagComments, List.map_cons, attachStmts, Stmt.attach] at ih ⊢
    rw [ih]
    rfl

/-- Tags that are written out are read as a run of lines with these tags. -/
theorem exists_run_of_tags {ts : List Tag} (h : AreTags ts) : ∃ run, word? (tagComments ts) = some run ∧
    (∀ i ∈ run, i.isLine = true) ∧ ((∀ t ∈ ts, ¬t.IsSource) → ∀ i ∈ run, i.isSource = false) ∧ remarksOf run = [] ∧
      (tagsOf run).map Tag.gist = ts.map Tag.gist := by
  induction ts with
  | nil => exact ⟨[], rfl, by simp, by simp, rfl, rfl⟩
  | cons t ts ih =>
    obtain ⟨ht, hts⟩ := List.forall_mem_cons.1 h
    obtain ⟨run, hrun, hlines, hsource, hremarks, htags⟩ := ih hts
    have hcons {i : Item} (hi : Item.of? (.comment (.alone t.render)) = some i) :
        word? (tagComments (t :: ts)) = some (i :: run) := word?_cons_eq_some_iff.2 ⟨i, hi, run, hrun, rfl⟩
    rcases ht with ht | ht
    · have hfamily : t.family = Tag.variantFamily := by
        obtain ⟨v, hv⟩ := ht
        simp only [Tag.names, Bool.and_eq_true, beq_iff_eq] at hv
        exact hv.1
      refine ⟨_, hcons (of?_variantTag ht), by simpa [Item.isLine] using hlines, fun hn => ?_, ?_, ?_⟩
      · simpa [Item.isSource] using hsource fun u hu => hn u (List.mem_cons_of_mem _ hu)
      · simpa [Item.remark?] using hremarks
      · simp [Item.tag?, Tag.gist, hfamily, ← htags]
    · refine ⟨_, hcons (of?_sourceTag ht), by simpa [Item.isLine] using hlines, fun hn => ?_, ?_, ?_⟩
      · exact absurd ht (hn t (List.mem_cons_self ..))
      · simpa [Item.remark?] using hremarks
      · simp [Item.tag?, Tag.gist, show t.family = Tag.sourceFamily from ht, ← htags]

theorem isModule_of_isLine {run : List Item} (h : ∀ i ∈ run, i.isLine = true) : ∀ i ∈ run, i.isModule = false := by
  intro i hi
  have hline := h i hi
  cases i <;> first | rfl | cases hline

namespace ReadAs

variable {outer : Bool}

/-- A comment that is no directive. -/
theorem comment {c : Comment} (h : c.IsPlain) : ReadAs outer [.comment c] [.comment c] := by
  have hof : Item.of? (.comment c) = some (.remark c) := by
    simp only [Item.of?, inComment?_of_isOrdinary (isOrdinary_of_isPlain h)]
  refine ⟨[.comment c], [.remark c], [.comment c], rfl, word?_cons_eq_some_iff.2 ⟨_, hof, [], rfl, rfl⟩, ?_,
    .remark .nil, rfl⟩
  simp [Item.isModule]

/-- A statement after its tags, which may be any that says the same. -/
theorem statement {ts : List Tag} {s t u : Stmt} (htags : AreTags ts) (hsource : ∀ t ∈ ts, ¬t.IsSource)
    (hu : u.attach = .ok s) (hs : s.isReal = true) (hbare : s.tags = []) (hmeans : (s.withTags ts).gist = t.gist) :
    ReadAs outer (tagComments ts ++ [u]) [t] := by
  obtain ⟨run, hrun, hlines, hn, hremarks, hgist⟩ := exists_run_of_tags htags
  have hword : word? (tagComments ts ++ [s]) = some (run ++ [.statement s]) :=
    word?_append hrun (word?_cons_eq_some_iff.2 ⟨_, of?_of_isReal hs, [], rfl, rfl⟩)
  have hone : attachStmts [u] = .ok [s] := by
    rw [attachStmts, hu]
    rfl
  refine ⟨_, _, _, attachStmts_append (attachStmts_tagComments ts) hone, hword, fun _ i hi => ?_,
    .statement hlines (hn hsource) .nil, ?_⟩
  · rcases List.mem_append.1 hi with hi | hi
    · exact isModule_of_isLine hlines i hi
    · rw [List.mem_singleton.1 hi]
      rfl
  · rw [hremarks, hbare]
    exact stmtsGist_cons_congr ((Stmt.withTags_congr rfl hgist).trans hmeans) rfl

/-- A declared module after its tags. -/
theorem declared {ts : List Tag} {name : String} (htags : AreTags ts) (hname : IsIdentifier name) (span : Span) :
    ReadAs true (tagComments ts ++ [.comment (.alone (Print.declareText ++ name))])
      [.block ⟨span, ts⟩ (.module_ name) []] := by
  obtain ⟨run, hrun, hlines, -, hremarks, hgist⟩ := exists_run_of_tags htags
  have hword : word? (tagComments ts ++ [.comment (.alone (Print.declareText ++ name))]) =
      some (run ++ [.declare name Span.unset]) :=
    word?_append hrun (word?_cons_eq_some_iff.2 ⟨_, of?_declare hname, [], rfl, rfl⟩)
  refine ⟨_, _, _, attachStmts_append (attachStmts_tagComments ts) rfl, hword, fun ho => (nomatch ho),
    .declare hlines .nil, ?_⟩
  have hmeans : (declaredModule name (tagsOf run) Span.unset).gist =
      (Stmt.block ⟨span, ts⟩ (.module_ name) []).gist := by
    simp only [declaredModule, Stmt.gist, Info.gist, hgist]
  rw [hremarks]
  exact stmtsGist_cons_congr hmeans rfl

/-- A module with a body after its tags. -/
theorem inlined {ts : List Tag} {name : String} {us body : List Stmt} (htags : AreTags ts) (hname : IsIdentifier name)
    (h : ReadAs true us body) (span : Span) :
    ReadAs true (tagComments ts ++ (.comment (.alone (Print.beginText ++ name)) :: us ++
      [.comment (.alone (Print.endText ++ name))])) [.block ⟨span, ts⟩ (.module_ name) body] := by
  obtain ⟨run, hrun, hlines, -, hremarks, hgist⟩ := exists_run_of_tags htags
  obtain ⟨inner, w, out, hinner, hw, -, hd, hbody⟩ := h
  have hattach : attachStmts (.comment (.alone (Print.beginText ++ name)) :: us ++
      [.comment (.alone (Print.endText ++ name))]) = .ok (.comment (.alone (Print.beginText ++ name)) :: inner ++
        [.comment (.alone (Print.endText ++ name))]) := by
    refine attachStmts_append ?_ rfl
    simp only [attachStmts, Stmt.attach, hinner]
    rfl
  have hword : word? (.comment (.alone (Print.beginText ++ name)) :: inner ++
      [.comment (.alone (Print.endText ++ name))]) = some (.begin_ name 1 :: w ++ [.end_ name Span.unset]) :=
    word?_append (word?_cons_eq_some_iff.2 ⟨_, of?_begin hname, w, hw, rfl⟩)
      (word?_cons_eq_some_iff.2 ⟨_, of?_end hname, [], rfl, rfl⟩)
  have hderives : Derives (run ++ .begin_ name 1 :: w ++ [.end_ name Span.unset])
      (remarksOf run ++ [inlineModule name 1 (tagsOf run) out Span.unset]) := .inline hlines hd .nil
  rw [List.append_assoc] at hderives
  refine ⟨_, _, _, attachStmts_append (attachStmts_tagComments ts) hattach, word?_append hrun hword,
    fun ho => (nomatch ho), hderives, ?_⟩
  have hmeans : (inlineModule name 1 (tagsOf run) out Span.unset).gist =
      (Stmt.block ⟨span, ts⟩ (.module_ name) body).gist := by
    simp only [inlineModule, Stmt.gist, Info.gist, hgist, hbody]
  rw [hremarks]
  exact stmtsGist_cons_congr hmeans rfl

end ReadAs

theorem areTags_of_attached {outer : Bool} {role : Role} {ts : List Tag} (h : Rule.attached.stmt outer role ts) :
    AreTags ts := fun t ht => (h.2.2 t ht).imp id And.left

theorem not_isSource_of_attached {outer : Bool} {role : Role} {ts : List Tag} (h : Rule.attached.stmt outer role ts)
    (hr : role ≠ .module_) : ∀ t ∈ ts, ¬t.IsSource := by
  intro t ht hsource
  rcases h.2.2 t ht with ⟨v, hv⟩ | ⟨-, hm⟩
  · simp only [Tag.names, Bool.and_eq_true, beq_iff_eq] at hv
    rw [Tag.IsSource, hv.1] at hsource
    exact absurd hsource (by decide)
  · exact hr hm

/-- Where there may be no modules, there are none to be named. -/
theorem modules_of_obeys {p : String → Option Nat → Prop} {ss : List Stmt} (h : stmtsObey .attached false ss) :
    stmtsModules p ss :=
  stmtsModules_iff.2 fun s hs => Stmt.modules_of_role (Print.role_ne_module (stmtsObey_iff.1 h s hs))

theorem readAs_of_simple {outer : Bool} {info : Info} {what : Simple}
    (h : Rule.attached.stmt outer what.role info.tags) :
    ReadAs outer (Stmt.simple info what).writtenOut [.simple info what] := by
  have hr : what.role ≠ .module_ := by cases what <;> simp [Simple.role]
  exact .statement (areTags_of_attached h) (not_isSource_of_attached h hr) rfl rfl rfl rfl

theorem readAs_of_module {outer : Bool} {info : Info} {name : String} {body : List Stmt}
    (h : Rule.attached.stmt outer .module_ info.tags) (hname : IsIdentifier name)
    (hbody : ReadAs true (stmtsWrittenOut body) body) :
    ReadAs outer (Stmt.block info (.module_ name) body).writtenOut [.block info (.module_ name) body] := by
  obtain rfl : outer = true := h.2.1 rfl
  rw [Stmt.writtenOut, BlockHead.writtenOut]
  by_cases hnil : body = []
  · rw [hnil]
    exact .declared (areTags_of_attached h) hname info.span
  · rw [if_neg (by simpa using stmtsWrittenOut_ne_nil hnil)]
    exact .inlined (areTags_of_attached h) hname hbody info.span

mutual

/-- What is written out of a statement is read as the statement. -/
theorem Stmt.readAs_writtenOut {outer : Bool} : (s : Stmt) → s.Obeys .attached outer → s.Modules IsNamed →
    ReadAs outer s.writtenOut [s]
  | .simple info what, h, _ => readAs_of_simple h
  | .comment c, h, _ => .comment h
  | .block info head body, ⟨hi, hf, hb⟩, hm => by
    cases hmod : head.isModule with
    | true =>
      cases head with
      | module_ name => exact readAs_of_module hi hm.1 (stmts_readAs_writtenOut body hb hm.2)
      | _ => cases hmod
    | false =>
      rw [hmod] at hb
      obtain ⟨inner, out, hinner, hout, hmeans⟩ := (stmts_readAs_writtenOut body hb (modules_of_obeys hb)).exists_group
      have hr : head.role ≠ .module_ := by
        cases head with
        | module_ name => cases hmod
        | _ => simp [BlockHead.role]
      have hattach : (Stmt.block ⟨info.span, []⟩ head (stmtsWrittenOut body)).attach =
          .ok (.block ⟨info.span, []⟩ head out) := by
        rw [Stmt.attach, hinner, hmod]
        exact congrArg (Functor.map _) hout
      rw [Stmt.writtenOut, BlockHead.writtenOut_of_not_isModule hmod]
      exact .statement (areTags_of_attached hi) (not_isSource_of_attached hi hr) hattach rfl rfl
        (by simp [Stmt.withTags, Stmt.mapInfo, Stmt.gist, hmeans])
  | .branch info head body orelse, ⟨hi, ⟨hf, hb⟩, hfo, ho⟩, _ => by
    obtain ⟨inner, out, hinner, hout, hmeans⟩ := (stmts_readAs_writtenOut body hb (modules_of_obeys hb)).exists_group
    obtain ⟨innerElse, outElse, hinnerElse, houtElse, hmeansElse⟩ :=
      (stmts_readAs_writtenOut orelse ho (modules_of_obeys ho)).exists_group
    have hattach : (Stmt.branch ⟨info.span, []⟩ head (stmtsWrittenOut body) (stmtsWrittenOut orelse)).attach =
        .ok (.branch ⟨info.span, []⟩ head out outElse) := by
      simp only [Stmt.attach, bind_eq_ok_iff]
      exact ⟨_, hinner, _, hout, _, hinnerElse, _, houtElse, rfl⟩
    exact .statement (areTags_of_attached hi) (not_isSource_of_attached hi (by simp)) hattach rfl rfl
      (by simp [Stmt.withTags, Stmt.mapInfo, Stmt.gist, hmeans, hmeansElse])
  | .attempt info isGroup body handlers orelse finalbody, ⟨hi, ⟨hf, hb⟩, hh, ⟨hfo, ho⟩, hff, hfb⟩, _ => by
    obtain ⟨inner, out, hinner, hout, hmeans⟩ := (stmts_readAs_writtenOut body hb (modules_of_obeys hb)).exists_group
    obtain ⟨outs, houts, hcheck, hmeansHandlers⟩ := handlers_readAs_writtenOut handlers hh
    obtain ⟨innerElse, outElse, hinnerElse, houtElse, hmeansElse⟩ :=
      (stmts_readAs_writtenOut orelse ho (modules_of_obeys ho)).exists_group
    obtain ⟨innerFinal, outFinal, hinnerFinal, houtFinal, hmeansFinal⟩ :=
      (stmts_readAs_writtenOut finalbody hfb (modules_of_obeys hfb)).exists_group
    have hattach : (Stmt.attempt ⟨info.span, []⟩ isGroup (stmtsWrittenOut body) (handlersWrittenOut handlers)
        (stmtsWrittenOut orelse) (stmtsWrittenOut finalbody)).attach =
          .ok (.attempt ⟨info.span, []⟩ isGroup out outs outElse outFinal) := by
      simp only [Stmt.attach, bind_eq_ok_iff]
      exact ⟨_, hinner, _, hout, _, houts, _, hcheck, _, hinnerElse, _, houtElse, _, hinnerFinal, _, houtFinal, rfl⟩
    exact .statement (areTags_of_attached hi) (not_isSource_of_attached hi (by simp)) hattach rfl rfl
      (by simp [Stmt.withTags, Stmt.mapInfo, Stmt.gist, hmeans, hmeansHandlers, hmeansElse, hmeansFinal])
  | .select info subject cases, ⟨hi, hc⟩, _ => by
    obtain ⟨outs, houts, hcheck, hmeans⟩ := cases_readAs_writtenOut cases hc
    have hattach : (Stmt.select ⟨info.span, []⟩ subject (casesWrittenOut cases)).attach =
        .ok (.select ⟨info.span, []⟩ subject outs) := by
      simp only [Stmt.attach, bind_eq_ok_iff]
      exact ⟨_, houts, _, hcheck, rfl⟩
    exact .statement (areTags_of_attached hi) (not_isSource_of_attached hi (by simp)) hattach rfl rfl
      (by simp [Stmt.withTags, Stmt.mapInfo, Stmt.gist, hmeans])

theorem stmts_readAs_writtenOut {outer : Bool} : (ss : List Stmt) → stmtsObey .attached outer ss →
    stmtsModules IsNamed ss → ReadAs outer (stmtsWrittenOut ss) ss
  | [], _, _ => .nil
  | s :: ss, ⟨hs, hss⟩, ⟨hm, hms⟩ => (Stmt.readAs_writtenOut s hs hm).append (stmts_readAs_writtenOut ss hss hms)

theorem handlers_readAs_writtenOut : (hs : List Handler) → handlersObey .attached hs →
    ∃ outs, attachHandlers (handlersWrittenOut hs) = .ok outs ∧ checkHandlers outs = .ok () ∧
      handlersGist outs = handlersGist hs
  | [], _ => ⟨[], rfl, rfl, rfl⟩
  | .comment c :: hs, ⟨hc, hhs⟩ => by
    obtain ⟨outs, houts, hcheck, hmeans⟩ := handlers_readAs_writtenOut hs hhs
    refine ⟨.comment c :: outs, ?_, ?_, by simp only [handlersGist, hmeans]⟩
    · rw [handlersWrittenOut, attachHandlers, houts]
      rfl
    · rw [checkHandlers, checkLoose_of_isOrdinary (isOrdinary_of_isPlain hc)]
      exact hcheck
  | .handler span type name body :: hs, ⟨⟨_, hb⟩, hhs⟩ => by
    obtain ⟨inner, out, hinner, hout, hmeans⟩ := (stmts_readAs_writtenOut body hb (modules_of_obeys hb)).exists_group
    obtain ⟨outs, houts, hcheck, hmeansRest⟩ := handlers_readAs_writtenOut hs hhs
    refine ⟨.handler span type name out :: outs, ?_, hcheck, by simp only [handlersGist, hmeans, hmeansRest]⟩
    simp only [handlersWrittenOut, attachHandlers, bind_eq_ok_iff]
    exact ⟨_, hinner, _, hout, _, houts, rfl⟩

theorem cases_readAs_writtenOut : (cs : List Case) → casesObey .attached cs →
    ∃ outs, attachCases (casesWrittenOut cs) = .ok outs ∧ checkCases outs = .ok () ∧ casesGist outs = casesGist cs
  | [], _ => ⟨[], rfl, rfl, rfl⟩
  | .comment c :: cs, ⟨hc, hcs⟩ => by
    obtain ⟨outs, houts, hcheck, hmeans⟩ := cases_readAs_writtenOut cs hcs
    refine ⟨.comment c :: outs, ?_, ?_, by simp only [casesGist, hmeans]⟩
    · rw [casesWrittenOut, attachCases, houts]
      rfl
    · rw [checkCases, checkLoose_of_isOrdinary (isOrdinary_of_isPlain hc)]
      exact hcheck
  | .case lines pattern guard body :: cs, ⟨⟨_, hb⟩, hcs⟩ => by
    obtain ⟨inner, out, hinner, hout, hmeans⟩ := (stmts_readAs_writtenOut body hb (modules_of_obeys hb)).exists_group
    obtain ⟨outs, houts, hcheck, hmeansRest⟩ := cases_readAs_writtenOut cs hcs
    refine ⟨.case lines pattern guard out :: outs, ?_, hcheck, by simp only [casesGist, hmeans, hmeansRest]⟩
    simp only [casesWrittenOut, attachCases, bind_eq_ok_iff]
    exact ⟨_, hinner, _, hout, _, houts, rfl⟩

end

end Directive

/-- What is written out of a tree is read as the tree. -/
theorem attachBody_writtenOut {body : List Stmt} (hobeys : stmtsObey .attached true body)
    (hnamed : stmtsModules IsNamed body) :
    ∃ out, attachBody (stmtsWrittenOut body) = .ok out ∧ stmtsGist out = stmtsGist body := by
  obtain ⟨inner, out, hinner, hout, hmeans⟩ := (stmts_readAs_writtenOut body hobeys hnamed).exists_group
  refine ⟨out, ?_, hmeans⟩
  rw [attachBody, hinner]
  exact hout

end TwinModule
