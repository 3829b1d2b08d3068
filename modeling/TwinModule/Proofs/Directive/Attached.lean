import TwinModule.Proofs.Comments.Scan
import TwinModule.Proofs.Directive.Acceptance
import TwinModule.Library
/-!
What a source that has been read is like: no directive is left among its comments, modules stand only in files and
modules, and tags are what directives say.
-/
set_option autoImplicit false

namespace TwinModule

/-- A comment that is no directive, on whatever line it is. -/
def Comment.IsPlain (c : Comment) : Prop := ∀ line, Directive.ofComment? line c.text = .ok none

/-- Plain comments, modules only in files and modules, and tags of the two families, those for sources only on
modules. Nothing is erased, and blocks other than the bodies of modules have the statements they need. -/
def Rule.attached : Rule where
  stmt outer role tags := role ≠ .erased ∧ (role = .module_ → outer = true) ∧
    ∀ t ∈ tags, t.IsVariant ∨ (t.IsSource ∧ role = .module_)
  comment := Comment.IsPlain
  block inner owner slot ss := inner = false → Filled owner slot ss

namespace Directive
open Rule Comments

theorem attached_stmt_of_bare {outer : Bool} {role : Role} {tags : List Tag} (h : role = .ordinary ∧ tags = []) :
    attached.stmt outer role tags := by
  obtain ⟨rfl, rfl⟩ := h
  exact ⟨by simp, by simp, by simp⟩

theorem isPlain_of_inComment? {c : Comment} (h : inComment? c = .ok none) : c.IsPlain := by
  have hc : ofComment? (c.span.line.getD 1) c.text = .ok none := by
    cases ho : ofComment? (c.span.line.getD 1) c.text with
    | error f => simp [inComment?, ho] at h
    | ok found =>
      cases found with
      | none => rfl
      | some d =>
        simp only [inComment?, ho] at h
        split at h <;> cases h
  have hs : Shape.of? (Text.trim c.text.toList) = none := by
    simp only [ofComment?] at hc
    split at hc
    · assumption
    · split at hc <;> cases hc
  intro line
  simp [ofComment?, hs]

theorem argument_of_requestOf? {line : Nat} {family : String} {argument : List Char} {v : Variant}
    (h : requestOf? line family argument = .ok (some (.variant v))) : String.ofList argument = v.name := by
  simp only [requestOf?] at h
  split at h
  · split at h
    · cases h
    · split at h
      · rename_i w hw
        cases h
        exact Variant.ofName?_eq_some_iff.1 hw
      · cases h
  · split at h
    · split at h
      · cases h
      · split at h <;> cases h
    · split at h
      · split at h
        · cases h
        · split at h <;> cases h
      · split at h
        · split at h
          · cases h
          · split at h <;> cases h
        · split at h
          · split at h
            · cases h
            · split at h <;> cases h
          · cases h

/-- A directive for a variant is written as the name of the variant. -/
theorem argument_of_variant {line : Nat} {text : String} {d : Directive} {v : Variant}
    (h : ofComment? line text = .ok (some d)) (hv : d.request = .variant v) : d.argument = v.name := by
  simp only [ofComment?] at h
  split at h
  · cases h
  · split at h
    · cases h
    · rename_i request hr
      cases h
      simp only at hv
      subst hv
      exact argument_of_requestOf? hr
    · cases h

theorem ofComment?_of_inComment? {c : Comment} {d : Directive} (h : inComment? c = .ok (some d)) :
    ofComment? (c.span.line.getD 1) c.text = .ok (some d) := by
  cases ho : ofComment? (c.span.line.getD 1) c.text with
  | error f => simp [inComment?, ho] at h
  | ok found =>
    cases found with
    | none => simp [inComment?, ho] at h
    | some e =>
      simp only [inComment?, ho] at h
      split at h <;> cases h
      rfl

/-- A statement whose blocks have their directives in effect and that may still take tags. -/
def Ready (s : Stmt) : Prop :=
  s.isReal = true → s.role = .ordinary ∧ s.tags = [] ∧ s.Obeys attached false

/-- What is known of an item of a block. -/
def Item.Fits : Item → Prop
  | .remark c => c.IsPlain
  | .statement s => s.isReal = true ∧ Ready s
  | .variant argument _ => ∃ v : Variant, argument = v.name
  | _ => True

theorem families_of_fits {run : List Item} (h : ∀ i ∈ run, i.Fits) :
    ∀ t ∈ tagsOf run, t.IsVariant ∨ t.IsSource := by
  intro t ht
  obtain ⟨i, hi, hit⟩ := List.mem_filterMap.1 ht
  cases i with
  | variant argument line =>
    simp only [Item.tag?, Option.some.injEq] at hit
    subst hit
    obtain ⟨v, hv⟩ := h _ hi
    exact .inl ⟨v, by simp [Tag.names, hv]⟩
  | source path line =>
    simp only [Item.tag?, Option.some.injEq] at hit
    subst hit
    exact .inr rfl
  | _ => simp [Item.tag?] at hit

theorem obeys_remarksOf {run : List Item} {outer : Bool} (h : ∀ i ∈ run, i.Fits) :
    stmtsObey attached outer (remarksOf run) := by
  refine stmtsObey_iff.2 fun s hs => ?_
  obtain ⟨i, hi, his⟩ := List.mem_filterMap.1 hs
  cases i with
  | remark c =>
    simp only [Item.remark?, Option.some.injEq] at his
    subst his
    exact h _ hi
  | _ => simp [Item.remark?] at his

/-- A module obeys the rule where modules are allowed. -/
theorem obeys_module {span : Span} {run : List Item} {name : String} {body : List Stmt}
    (h : ∀ i ∈ run, i.Fits) (hb : stmtsObey attached true body) :
    (Stmt.block ⟨span, tagsOf run⟩ (.module_ name) body).Obeys attached true := by
  refine ⟨⟨by simp [BlockHead.role], fun _ => rfl, fun t ht => ?_⟩, by simp [attached, BlockHead.isModule], hb⟩
  exact (families_of_fits h t ht).imp_right fun hs => ⟨hs, rfl⟩

theorem Derives.obeys {w : List Item} {out : List Stmt} (h : Derives w out) {outer : Bool}
    (hw : ∀ i ∈ w, i.Fits) (hm : outer = false → ∀ i ∈ w, i.isModule = false) : stmtsObey attached outer out := by
  induction h generalizing outer with
  | nil => trivial
  | @remark c w out rest ih =>
    exact ⟨hw (.remark c) (by simp), ih (fun i hi => hw i (by simp [hi])) fun ho i hi => hm ho i (by simp [hi])⟩
  | @statement run w s out lines noSource rest ih =>
    have hrun : ∀ i ∈ run, i.Fits := fun i hi => hw i (by simp [hi])
    obtain ⟨hr, hready⟩ := hw (.statement s) (by simp)
    obtain ⟨hrole, htags, hobeys⟩ := hready hr
    have htagged : attached.stmt outer s.role (s.tags ++ tagsOf run) := by
      rw [hrole, htags]
      refine ⟨by simp, by simp, fun t ht => .inl ?_⟩
      rcases families_of_fits hrun t ht with hv | hs
      · exact hv
      · exact absurd hs (family_of_mem_tagsOf noSource t ht)
    refine (stmtsObey_append ..).2 ⟨obeys_remarksOf hrun, hobeys.retag hr htagged, ?_⟩
    exact ih (fun i hi => hw i (by simp [hi])) fun ho i hi => hm ho i (by simp [hi])
  | @declare run w name place out lines rest ih =>
    have hrun : ∀ i ∈ run, i.Fits := fun i hi => hw i (by simp [hi])
    cases outer with
    | false => exact absurd (hm rfl (.declare name place) (by simp)) (by simp [Item.isModule])
    | true =>
      refine (stmtsObey_append ..).2 ⟨obeys_remarksOf hrun, obeys_module hrun trivial, ?_⟩
      exact ih (fun i hi => hw i (by simp [hi])) (by simp)
  | @inline run inner w name line place body out lines within rest ihWithin ih =>
    have hrun : ∀ i ∈ run, i.Fits := fun i hi => hw i (by simp [hi])
    cases outer with
    | false => exact absurd (hm rfl (.begin_ name line) (by simp)) (by simp [Item.isModule])
    | true =>
      have hbody : stmtsObey attached true body := ihWithin (fun i hi => hw i (by simp [hi])) (by simp)
      refine (stmtsObey_append ..).2 ⟨obeys_remarksOf hrun, obeys_module hrun hbody, ?_⟩
      exact ih (fun i hi => hw i (by simp [hi])) (by simp)

theorem isReal_withTags (s : Stmt) (ts : List Tag) : (s.withTags ts).isReal = s.isReal := by
  cases s <;> rfl

theorem Derives.any_isReal {w : List Item} {out : List Stmt} (h : Derives w out) {s : Stmt}
    (hs : .statement s ∈ w) (hr : s.isReal = true) : out.any Stmt.isReal = true := by
  induction h with
  | nil => simp at hs
  | @remark c w out rest ih =>
    have hw : Item.statement s ∈ w := by simpa using hs
    simp [ih hw]
  | @statement run w u out lines noSource rest ih =>
    rcases List.mem_append.1 hs with hs | hs
    · simpa [Item.isLine] using lines _ hs
    · rcases List.mem_cons.1 hs with e | hs
      · cases e
        simp [isReal_withTags, hr]
      · simp [ih hs]
  | @declare run w name place out lines rest ih => simp [declaredModule, Stmt.isReal, Stmt.isComment]
  | @inline run inner w name line place body out lines within rest ihWithin ih =>
    simp [inlineModule, Stmt.isReal, Stmt.isComment]

/-- A block that has its directives in effect has a word, for every directive in it is well-formed. -/
theorem exists_word_of_steps {modules : Bool} {o next : OpenBlocks} {ss : List Stmt}
    (h : steps modules o ss = .ok next) : ∃ w, word? ss = some w := by
  induction ss generalizing o with
  | nil => exact ⟨[], rfl⟩
  | cons s ss ih =>
    simp only [steps] at h
    split at h
    · cases h
    · rename_i stepped hs
      obtain ⟨w, hw⟩ := ih h
      have hi : ∃ i, Item.of? s = some i := by
        cases s with
        | comment c =>
          simp only [step] at hs
          split at hs
          · cases hs
          · rename_i d hc
            exact ⟨Item.ofDirective d c.span, by simp [Item.of?, hc]⟩
          · rename_i hc
            exact ⟨.remark c, by simp [Item.of?, hc]⟩
        | _ => exact ⟨_, rfl⟩
      obtain ⟨i, hi⟩ := hi
      exact ⟨i :: w, word?_cons_eq_some_iff.2 ⟨i, hi, w, hw, rfl⟩⟩

theorem exists_word_of_group {modules : Bool} {ss out : List Stmt} (h : group modules ss = .ok out) :
    ∃ w, word? ss = some w := by
  unfold group at h
  split at h
  · cases h
  · rename_i hs
    exact exists_word_of_steps hs

theorem mem_word_iff {ss : List Stmt} {w : List Item} (hw : word? ss = some w) {i : Item} :
    i ∈ w ↔ ∃ s ∈ ss, Item.of? s = some i := by
  induction ss generalizing w with
  | nil =>
    cases hw
    simp
  | cons s ss ih =>
    obtain ⟨j, hj, v, hv, rfl⟩ := word?_cons_eq_some_iff.1 hw
    simp only [List.mem_cons, ih hv, exists_eq_or_imp, hj, Option.some.injEq]
    exact or_congr_left eq_comm

theorem fits_of_ready {s : Stmt} {i : Item} (h : Ready s) (hi : Item.of? s = some i) : i.Fits := by
  cases s with
  | comment c =>
    simp only [Item.of?] at hi
    split at hi
    · rename_i hc
      cases hi
      exact isPlain_of_inComment? hc
    · rename_i d hc
      cases hi
      unfold Item.ofDirective
      split
      · rename_i v hv
        exact ⟨v, argument_of_variant (ofComment?_of_inComment? hc) hv⟩
      all_goals trivial
    · cases hi
  | _ =>
    simp only [Item.of?, Option.some.injEq] at hi
    subst hi
    exact ⟨rfl, h⟩

theorem of?_of_isReal {s : Stmt} (h : s.isReal = true) : Item.of? s = some (.statement s) := by
  cases s with
  | comment c => simp [Stmt.isReal, Stmt.isComment] at h
  | _ => rfl

/-- Where the blocks inside are done, putting the directives of a block into effect makes it obey the rule, and a
block with a statement keeps one. -/
theorem obeys_of_group {modules : Bool} {ss out : List Stmt} (hss : ∀ s ∈ ss, Ready s)
    (h : group modules ss = .ok out) :
    stmtsObey attached modules out ∧ (ss.any Stmt.isReal = true → out.any Stmt.isReal = true) := by
  obtain ⟨w, hw⟩ := exists_word_of_group h
  obtain ⟨hd, hm⟩ := (group_eq_ok_iff hw).1 h
  constructor
  · refine hd.obeys (fun i hi => ?_) hm
    obtain ⟨s, hs, his⟩ := (mem_word_iff hw).1 hi
    exact fits_of_ready (hss s hs) his
  · intro hr
    obtain ⟨s, hs, hr⟩ := List.any_eq_true.1 hr
    exact hd.any_isReal ((mem_word_iff hw).2 ⟨s, hs, of?_of_isReal hr⟩) hr

/-- The block of a statement with the directives in it and its inner blocks in effect. -/
theorem obeys_attachBlock {span : Span} {isBare isBare' : Bool} {slot : Slot} {ss inner out : List Stmt}
    (hf : Filled (.item span isBare) slot ss) (hb : isBare' = true → isBare = true)
    (hready : ∀ s ∈ inner, Ready s) (hreal : inner.any Stmt.isReal = ss.any Stmt.isReal)
    (h : group false inner = .ok out) :
    attached.block false (.item span isBare') slot out ∧ stmtsObey attached false out := by
  obtain ⟨hobeys, hkept⟩ := obeys_of_group hready h
  exact ⟨fun _ => hf.imp hb fun hr => hkept (hreal.trans hr), hobeys⟩

theorem isPlain_of_checkLoose {c : Comment} (h : checkLoose c = .ok ()) : c.IsPlain := by
  unfold checkLoose at h
  split at h
  · cases h
  · rename_i hc
    exact isPlain_of_inComment? hc
  · cases h

mutual

theorem ready_of_attach {k : Comment → Prop} {outer : Bool} :
    (s s' : Stmt) → s.Obeys (commented k) outer → s.attach = .ok s' →
    s'.isReal = s.isReal ∧ Ready s'
  | .simple info what, s', hs, h => by
    cases h
    exact ⟨rfl, fun _ => ⟨hs.1, hs.2, by simp [hs.1], by simp [hs.1], by simp [hs.2]⟩⟩
  | .comment c, s', _, h => by
    cases h
    exact ⟨rfl, fun hr => absurd hr (by simp [Stmt.isReal, Stmt.isComment])⟩
  | .block info head body, s', ⟨hi, hf, hb⟩, h => by
    have hm : head.isModule = false := BlockHead.isModule_of_ordinary hi.1
    simp only [Stmt.attach, bind_eq_ok_iff] at h
    obtain ⟨inner, hinner, out, hout, h⟩ := h
    cases h
    obtain ⟨hreal, hready⟩ := ready_of_attachStmts body inner hb hinner
    rw [hm] at hout
    have hblock := obeys_attachBlock hf id hready hreal hout
    refine ⟨rfl, fun _ => ⟨hi.1, hi.2, ?_⟩⟩
    simp only [Stmt.Obeys, hm]
    exact ⟨attached_stmt_of_bare hi, hblock⟩
  | .branch info head body orelse, s', ⟨hi, ⟨hf, hb⟩, hfo, ho⟩, h => by
    simp only [Stmt.attach, bind_eq_ok_iff] at h
    obtain ⟨inner, hinner, out, hout, innerElse, hinnerElse, outElse, houtElse, h⟩ := h
    cases h
    obtain ⟨hreal, hready⟩ := ready_of_attachStmts body inner hb hinner
    obtain ⟨hrealElse, hreadyElse⟩ := ready_of_attachStmts orelse innerElse ho hinnerElse
    exact ⟨rfl, fun _ => ⟨rfl, hi.2, attached_stmt_of_bare hi, obeys_attachBlock hf id hready hreal hout,
      obeys_attachBlock hfo id hreadyElse hrealElse houtElse⟩⟩
  | .attempt info isGroup body handlers orelse finalbody, s', ⟨hi, ⟨hf, hb⟩, hh, ⟨hfo, ho⟩, hff, hfb⟩, h => by
    simp only [Stmt.attach, bind_eq_ok_iff] at h
    obtain ⟨inner, hinner, out, hout, outHandlers, hhandlers, ⟨⟩, hloose, innerElse, hinnerElse, outElse, houtElse,
      innerFinal, hinnerFinal, outFinal, houtFinal, h⟩ := h
    cases h
    obtain ⟨hreal, hready⟩ := ready_of_attachStmts body inner hb hinner
    obtain ⟨hrealElse, hreadyElse⟩ := ready_of_attachStmts orelse innerElse ho hinnerElse
    obtain ⟨hrealFinal, hreadyFinal⟩ := ready_of_attachStmts finalbody innerFinal hfb hinnerFinal
    obtain ⟨hempty, hobeys⟩ := obeys_of_attachHandlers handlers outHandlers hh hhandlers
    -- What a `try` needs depends on whether it has handlers, and comments count among those.
    have hbare : (!isGroup && outHandlers.isEmpty) = true → (!isGroup && handlers.isEmpty) = true := by
      rw [hempty]
      exact id
    exact ⟨rfl, fun _ => ⟨rfl, hi.2, attached_stmt_of_bare hi, obeys_attachBlock hf hbare hready hreal hout,
      hobeys hloose, obeys_attachBlock hfo hbare hreadyElse hrealElse houtElse,
      obeys_attachBlock hff hbare hreadyFinal hrealFinal houtFinal⟩⟩
  | .select info subject cases, s', ⟨hi, hc⟩, h => by
    simp only [Stmt.attach, bind_eq_ok_iff] at h
    obtain ⟨outCases, hcases, ⟨⟩, hloose, h⟩ := h
    cases h
    exact ⟨rfl, fun _ => ⟨rfl, hi.2, attached_stmt_of_bare hi, obeys_of_attachCases cases outCases hc hcases hloose⟩⟩
termination_by structural s => s

theorem ready_of_attachStmts {k : Comment → Prop} {outer : Bool} :
    (ss out : List Stmt) → stmtsObey (commented k) outer ss →
    attachStmts ss = .ok out → out.any Stmt.isReal = ss.any Stmt.isReal ∧ ∀ s ∈ out, Ready s
  | [], out, _, h => by
    cases h
    exact ⟨rfl, by simp⟩
  | s :: ss, out, ⟨hs, hss⟩, h => by
    simp only [attachStmts, bind_eq_ok_iff] at h
    obtain ⟨s', hs', rest, hrest, h⟩ := h
    cases h
    obtain ⟨hreal, hready⟩ := ready_of_attach s s' hs hs'
    obtain ⟨hreals, hreadys⟩ := ready_of_attachStmts ss rest hss hrest
    refine ⟨by simp [hreal, hreals], fun t ht => ?_⟩
    rcases List.mem_cons.1 ht with rfl | ht
    · exact hready
    · exact hreadys t ht
termination_by structural ss => ss

theorem obeys_of_attachHandlers {k : Comment → Prop} :
    (hs out : List Handler) → handlersObey (commented k) hs →
    attachHandlers hs = .ok out → out.isEmpty = hs.isEmpty ∧ (checkHandlers out = .ok () → handlersObey attached out)
  | [], out, _, h => by
    cases h
    exact ⟨rfl, fun _ => trivial⟩
  | .comment c :: hs, out, ⟨_, hhs⟩, h => by
    simp only [attachHandlers, bind_eq_ok_iff] at h
    obtain ⟨rest, hrest, h⟩ := h
    cases h
    refine ⟨rfl, fun hc => ?_⟩
    simp only [checkHandlers, bind_eq_ok_iff] at hc
    obtain ⟨⟨⟩, hloose, hc⟩ := hc
    exact ⟨isPlain_of_checkLoose hloose, (obeys_of_attachHandlers hs rest hhs hrest).2 hc⟩
  | .handler span type name body :: hs, out, ⟨⟨hf, hb⟩, hhs⟩, h => by
    simp only [attachHandlers, bind_eq_ok_iff] at h
    obtain ⟨inner, hinner, body', hbody, rest, hrest, h⟩ := h
    cases h
    obtain ⟨hreal, hready⟩ := ready_of_attachStmts body inner hb hinner
    have hblock := obeys_attachBlock hf id hready hreal hbody
    exact ⟨rfl, fun hc => ⟨hblock, (obeys_of_attachHandlers hs rest hhs hrest).2 hc⟩⟩
termination_by structural hs => hs

theorem obeys_of_attachCases {k : Comment → Prop} :
    (cs out : List Case) → casesObey (commented k) cs → attachCases cs = .ok out →
    checkCases out = .ok () → casesObey attached out
  | [], out, _, h, _ => by
    cases h
    trivial
  | .comment c :: cs, out, ⟨_, hcs⟩, h, hc => by
    simp only [attachCases, bind_eq_ok_iff] at h
    obtain ⟨rest, hrest, h⟩ := h
    cases h
    simp only [checkCases, bind_eq_ok_iff] at hc
    obtain ⟨⟨⟩, hloose, hc⟩ := hc
    exact ⟨isPlain_of_checkLoose hloose, obeys_of_attachCases cs rest hcs hrest hc⟩
  | .case lines pattern guard body :: cs, out, ⟨⟨hf, hb⟩, hcs⟩, h, hc => by
    simp only [attachCases, bind_eq_ok_iff] at h
    obtain ⟨inner, hinner, body', hbody, rest, hrest, h⟩ := h
    cases h
    obtain ⟨hreal, hready⟩ := ready_of_attachStmts body inner hb hinner
    exact ⟨obeys_attachBlock hf id hready hreal hbody, obeys_of_attachCases cs rest hcs hrest hc⟩
termination_by structural cs => cs

end

end Directive

/-- The comments in what is read of a text are those of the text. -/
theorem obeys_of_readAnnotated {file source : String} {body : List Stmt}
    (h : readAnnotated file source.toList = .ok body) :
    stmtsObey (Comments.commented (Comments.Scanned source)) true body := by
  unfold readAnnotated at h
  split at h
  · cases h
  · split at h
    · cases h
    · rename_i parsed hparsed
      split at h
      · cases h
      · cases h
      · rename_i comments hscan
        split at h
        · cases h
        · rename_i hattach
          cases h
          exact Comments.obeys_of_attach (Comments.ignoresInline_scanned source)
            (fun c hc => ⟨comments, hscan, c, hc, rfl, rfl⟩) (Grammar.obeys_of_parse hparsed) hattach

theorem eq_comment_of_attach {s : Stmt} {c : Comment} (h : s.attach = .ok (.comment c)) : s = .comment c := by
  cases s with
  | comment k =>
    cases h
    rfl
  | simple info what => cases h
  | block info head body =>
    simp only [Stmt.attach, bind_eq_ok_iff] at h
    obtain ⟨_, -, _, -, h⟩ := h
    cases h
  | branch info head body orelse =>
    simp only [Stmt.attach, bind_eq_ok_iff] at h
    obtain ⟨_, -, _, -, _, -, _, -, h⟩ := h
    cases h
  | attempt info isGroup body handlers orelse finalbody =>
    simp only [Stmt.attach, bind_eq_ok_iff] at h
    obtain ⟨_, -, _, -, _, -, _, -, _, -, _, -, _, -, _, -, h⟩ := h
    cases h
  | select info subject cases =>
    simp only [Stmt.attach, bind_eq_ok_iff] at h
    obtain ⟨_, -, _, -, h⟩ := h
    cases h

/-- Putting directives into effect block by block leaves the comments right in a block where they are. -/
theorem mem_of_attachStmts {ss out : List Stmt} (h : attachStmts ss = .ok out) {c : Comment}
    (hc : .comment c ∈ out) : .comment c ∈ ss := by
  induction ss generalizing out with
  | nil =>
    cases h
    exact hc
  | cons s ss ih =>
    simp only [attachStmts, bind_eq_ok_iff] at h
    obtain ⟨s', hs, rest, hrest, h⟩ := h
    cases h
    rcases List.mem_cons.1 hc with rfl | hc
    · rw [eq_comment_of_attach hs]
      exact List.mem_cons_self ..
    · exact List.mem_cons_of_mem _ (ih hrest hc)

open Directive in
/-- A source is read by putting the directives of a block into effect whose inner blocks are done. -/
theorem exists_ready_of_readSource {file source : String} {body : List Stmt} (h : readSource file source = .ok body) :
    ∃ inner, (∀ s ∈ inner, Ready s) ∧ (∀ c, .comment c ∈ inner → Comments.Scanned source c) ∧
      group true inner = .ok body := by
  unfold readSource at h
  split at h
  · cases h
  · rename_i annotated hannotated
    have hcommented := obeys_of_readAnnotated hannotated
    split at h
    · cases h
    · rename_i hbody
      cases h
      obtain ⟨inner, hinner, hgroup⟩ := bind_eq_ok_iff.1 hbody
      exact ⟨inner, (ready_of_attachStmts annotated inner hcommented hinner).2,
        fun c hc => stmtsObey_iff.1 hcommented _ (mem_of_attachStmts hinner hc), hgroup⟩

open Directive in
/-- What every source that can be read is like. -/
theorem readSource_obeys {file source : String} {body : List Stmt} (h : readSource file source = .ok body) :
    stmtsObey .attached true body := by
  obtain ⟨inner, hready, -, hgroup⟩ := exists_ready_of_readSource h
  exact (obeys_of_group hready hgroup).1

/-- A file of a store holds a text. -/
def Library.Holds (store : Store) (path : FilePath) (source : String) : Prop :=
  ∃ bytes, store.read path = .ok bytes ∧ Library.readText bytes = .ok source

theorem exists_readSource_of_load {store : Store} {path : FilePath} {name : String} {body : List Stmt}
    (h : Library.load store path name = .ok body) :
    ∃ source, Library.Holds store path source ∧ readSource path.text source = .ok body := by
  unfold Library.load at h
  split at h
  · cases h
  · rename_i bytes hbytes
    split at h
    · cases h
    · rename_i source hsource
      exact ⟨source, ⟨bytes, hbytes, hsource⟩, h⟩

theorem Library.load_obeys {store : Store} {path : FilePath} {name : String} {body : List Stmt}
    (h : Library.load store path name = .ok body) : stmtsObey .attached true body := by
  obtain ⟨source, -, hsource⟩ := exists_readSource_of_load h
  exact readSource_obeys hsource

end TwinModule
