import TwinModule.Proofs.Agreement
import TwinModule.Proofs.Directive.Attached
import TwinModule.Proofs.Tree.Gist
/-!
Putting directives into effect depends on nothing but what a tree says: neither on its places nor on its ordinary
comments.
-/
set_option autoImplicit false

namespace TwinModule

namespace Directive

/-- What a directive asks for does not depend on its line. -/
theorem requestOf?_agree (line line' : Nat) (family : String) (argument : List Char) :
    AgreeOn id (requestOf? line family argument) (requestOf? line' family argument) := by
  simp only [AgreeOn, requestOf?]
  repeat' split
  all_goals rfl

/-- A directive without its line. -/
def gist (d : Directive) : Directive := { d with line := 0 }

theorem ofComment?_agree (line line' : Nat) (text : String) :
    AgreeOn (Option.map gist) (ofComment? line text) (ofComment? line' text) := by
  unfold ofComment?
  cases hs : Shape.of? (Text.trim text.toList) with
  | none =>
    simp only [hs]
    rfl
  | some shape =>
    simp only [hs]
    rcases (requestOf?_agree line line' shape.family shape.argument).cases with
      ⟨f, f', h, h'⟩ | ⟨request, request', h, h', rfl⟩
    · rw [h, h']
      rfl
    · rw [h, h']
      cases request <;> rfl

theorem inComment?_agree (c : Comment) : AgreeOn (Option.map gist) (inComment? c) (inComment? c.gist) := by
  have hline : c.gist.span.line.getD 1 = 1 := rfl
  have htext : c.gist.text = c.text := rfl
  have hinline : c.gist.isInline = c.isInline := rfl
  simp only [inComment?, hline, htext, hinline]
  rcases (ofComment?_agree (c.span.line.getD 1) 1 c.text).cases with ⟨f, f', h, h'⟩ | ⟨found, found', h, h', hfound⟩
  · simp only [h, h']
    rfl
  · simp only [h, h']
    cases found with
    | none =>
      cases found' with
      | none => rfl
      | some d' => cases hfound
    | some d =>
      cases found' with
      | none => cases hfound
      | some d' =>
        cases c.isInline with
        | true => rfl
        | false => exact .ok hfound

theorem shape_of_isPlain {c : Comment} (h : c.IsPlain) : Shape.of? (Text.trim c.text.toList) = none := by
  have hc := h 1
  simp only [ofComment?] at hc
  split at hc
  · assumption
  · split at hc <;> cases hc

theorem isOrdinary_of_isPlain {c : Comment} (h : c.IsPlain) : c.isOrdinary = true := by
  rw [Comment.isOrdinary, shape_of_isPlain h]
  rfl

theorem inComment?_of_isOrdinary {c : Comment} (h : c.isOrdinary = true) : inComment? c = .ok none := by
  have hc : ofComment? (c.span.line.getD 1) c.text = .ok none := by
    simp only [ofComment?, Option.isNone_iff_eq_none.1 h]
  rw [inComment?, hc]

namespace Item

/-- An item without its place. -/
def gist : Item → Item
  | remark c => remark c.gist
  | statement s => statement s.gist
  | variant argument _ => variant argument 0
  | source path _ => source path 0
  | declare name _ => declare name Span.unset
  | begin_ name _ => begin_ name 0
  | end_ name _ => end_ name Span.unset

def isRemark : Item → Bool
  | remark _ => true
  | _ => false

end Item

/-- A word without places and ordinary comments. -/
def wordGist : List Item → List Item
  | [] => []
  | i :: w => if i.isRemark then wordGist w else i.gist :: wordGist w

theorem isRemark_eq_of_of? {s : Stmt} {i : Item} (h : Item.of? s = some i) : i.isRemark = s.isRemark := by
  cases s with
  | comment c =>
    simp only [Item.of?] at h
    split at h
    · rename_i hc
      cases h
      exact (isOrdinary_of_isPlain (isPlain_of_inComment? hc)).symm
    · rename_i d hc
      cases h
      have hordinary : c.isOrdinary = false := by
        cases ho : c.isOrdinary with
        | false => rfl
        | true =>
          rw [inComment?_of_isOrdinary ho] at hc
          cases hc
      rw [Stmt.isRemark, hordinary, Item.ofDirective]
      split <;> rfl
    · cases h
  | _ =>
    cases h
    rfl

theorem ofDirective_gist {d d' : Directive} (h : d.gist = d'.gist) (place place' : Span) :
    (Item.ofDirective d place).gist = (Item.ofDirective d' place').gist := by
  obtain ⟨line, argument, request⟩ := d
  obtain ⟨line', argument', request'⟩ := d'
  obtain ⟨rfl, rfl⟩ : argument = argument' ∧ request = request' := by simpa [gist] using h
  cases request <;> rfl

/-- Which item a statement is depends on what it says. -/
theorem of?_gist (s : Stmt) : (Item.of? s).map Item.gist = (Item.of? s.gist).map Item.gist := by
  cases s with
  | comment c =>
    simp only [Item.of?, Stmt.gist]
    rcases (inComment?_agree c).cases with ⟨f, f', h, h'⟩ | ⟨found, found', h, h', hfound⟩
    · rw [h, h']
    · rw [h, h']
      cases found with
      | none =>
        cases found' with
        | none => rfl
        | some d' => cases hfound
      | some d =>
        cases found' with
        | none => cases hfound
        | some d' => exact congrArg some (ofDirective_gist (Option.some.inj hfound) _ _)
  | _ => simp [Item.of?, Item.gist, Stmt.gist]

theorem wordGist_cons (i : Item) (w : List Item) :
    wordGist (i :: w) = if i.isRemark then wordGist w else i.gist :: wordGist w := rfl

theorem word?_cons (s : Stmt) (ss : List Stmt) :
    word? (s :: ss) = (Item.of? s).bind fun i => (word? ss).map (i :: ·) := by
  simp only [word?, List.mapM_cons]
  cases Item.of? s with
  | none => rfl
  | some i => cases ss.mapM Item.of? <;> rfl

/-- The word of a block depends on what the block says. -/
theorem word?_gist (ss : List Stmt) : (word? ss).map wordGist = (word? (stmtsGist ss)).map wordGist := by
  induction ss with
  | nil => rfl
  | cons s ss ih =>
    cases hr : s.isRemark with
    | true =>
      have hskip : (word? (s :: ss)).map wordGist = (word? ss).map wordGist := by
        cases s with
        | comment c =>
          have hitem : Item.of? (.comment c) = some (.remark c) := by
            simp only [Item.of?, inComment?_of_isOrdinary hr]
          rw [word?_cons, hitem]
          cases word? ss <;> rfl
        | _ => cases hr
      rw [hskip, ih, stmtsGist_cons, hr, if_pos rfl]
    | false =>
      rw [stmtsGist_cons, hr, if_neg Bool.false_ne_true, word?_cons, word?_cons]
      have hs := of?_gist s
      cases hi : Item.of? s with
      | none =>
        rw [hi] at hs
        rw [Option.map_eq_none_iff.1 hs.symm]
        rfl
      | some i =>
        rw [hi] at hs
        obtain ⟨i', hi', hgist⟩ := Option.map_eq_some_iff.1 hs.symm
        have hremark : i.isRemark = false := (isRemark_eq_of_of? hi).trans hr
        have hremark' : i'.isRemark = false := (isRemark_eq_of_of? hi').trans (s.isRemark_gist.trans hr)
        have hcons (j : Item) (hj : j.isRemark = false) (o : Option (List Item)) :
            (o.map (j :: ·)).map wordGist = (o.map wordGist).map (j.gist :: ·) := by
          cases o <;> simp [wordGist_cons, hj]
        rw [hi', Option.bind_some, Option.bind_some, hcons i hremark, hcons i' hremark', ih, hgist]

end Directive

namespace OpenBlock

/-- A module that has begun, or the block itself, without its places. -/
def gist (b : OpenBlock) : OpenBlock :=
  ⟨b.start.map fun start => (start.1, 0), b.tags.map Tag.gist, stmtsGist b.body, b.pending.map Tag.gist⟩

variable {b b' : OpenBlock}

theorem gist_eq_iff : b.gist = b'.gist ↔ b.start.map Prod.fst = b'.start.map Prod.fst ∧
    b.tags.map Tag.gist = b'.tags.map Tag.gist ∧ stmtsGist b.body = stmtsGist b'.body ∧
      b.pending.map Tag.gist = b'.pending.map Tag.gist := by
  have hstart : b.start.map (fun start => (start.1, 0)) = b'.start.map (fun start => (start.1, 0)) ↔
      b.start.map Prod.fst = b'.start.map Prod.fst := by
    cases b.start <;> cases b'.start <;> simp
  simp only [gist, mk.injEq, hstart]

theorem gist_cleared (h : b.gist = b'.gist) {ss ss' : List Stmt} (hs : stmtsGist ss = stmtsGist ss') :
    ({ b with body := b.body ++ ss, pending := [] } : OpenBlock).gist =
      ({ b' with body := b'.body ++ ss', pending := [] } : OpenBlock).gist := by
  obtain ⟨hstart, htags, hbody, -⟩ := gist_eq_iff.1 h
  exact gist_eq_iff.2 ⟨hstart, htags, by simp only [stmtsGist_append, hbody, hs], rfl⟩

theorem gist_push (h : b.gist = b'.gist) {s s' : Stmt} (hs : s.gist = s'.gist) :
    (b.push s).gist = (b'.push s').gist := by
  obtain ⟨hstart, htags, hbody, hpending⟩ := gist_eq_iff.1 h
  exact gist_eq_iff.2
    ⟨hstart, htags, by simp only [push, stmtsGist_append, hbody, stmtsGist_cons_congr hs rfl], hpending⟩

theorem gist_push_remark {s : Stmt} (hs : s.isRemark = true) : (b.push s).gist = b.gist :=
  gist_eq_iff.2 ⟨rfl, rfl, by simp [push, stmtsGist_append, stmtsGist_cons, hs], rfl⟩

theorem gist_pushTagged (h : b.gist = b'.gist) {s s' : Stmt} (hs : s.gist = s'.gist) :
    (b.pushTagged s).gist = (b'.pushTagged s').gist := by
  obtain ⟨-, -, -, hpending⟩ := gist_eq_iff.1 h
  have htags : (s.tags ++ b.pending).map Tag.gist = (s'.tags ++ b'.pending).map Tag.gist := by
    rw [List.map_append, List.map_append, ← Stmt.tags_gist, ← Stmt.tags_gist, hs, hpending]
  exact gist_cleared h (stmtsGist_cons_congr (Stmt.withTags_congr hs htags) rfl)

theorem gist_await (h : b.gist = b'.gist) {t t' : Tag} (ht : t.gist = t'.gist) :
    (b.await t).gist = (b'.await t').gist := by
  obtain ⟨hstart, htags, hbody, hpending⟩ := gist_eq_iff.1 h
  exact gist_eq_iff.2 ⟨hstart, htags, hbody, by simp [await, hpending, ht]⟩

end OpenBlock

def OpenBlocks.gist (o : OpenBlocks) : OpenBlocks := ⟨o.top.gist, o.below.map OpenBlock.gist⟩

theorem OpenBlocks.gist_eq_iff {o o' : OpenBlocks} :
    o.gist = o'.gist ↔ o.top.gist = o'.top.gist ∧ o.below.map OpenBlock.gist = o'.below.map OpenBlock.gist := by
  simp only [gist, mk.injEq]

namespace Directive

theorem any_isSource_congr {ts us : List Tag} (h : ts.map Tag.gist = us.map Tag.gist) :
    (ts.any fun t => t.family == Tag.sourceFamily) = us.any fun t => t.family == Tag.sourceFamily := by
  have hgist : ∀ ts : List Tag, (ts.any fun t => t.family == Tag.sourceFamily) =
      (ts.map Tag.gist).any fun t => t.family == Tag.sourceFamily := fun ts => by
    simp [Tag.gist, Function.comp_def]
  rw [hgist ts, h, ← hgist us]

theorem gist_inlineModule {name : String} {line line' : Nat} {tags tags' : List Tag} {body body' : List Stmt}
    {place place' : Span} (ht : tags.map Tag.gist = tags'.map Tag.gist) (hb : stmtsGist body = stmtsGist body') :
    (inlineModule name line tags body place).gist = (inlineModule name line' tags' body' place').gist := by
  simp only [inlineModule, Stmt.gist, Info.gist, ht, hb]

theorem gist_declaredModule {name : String} {tags tags' : List Tag} {place place' : Span}
    (ht : tags.map Tag.gist = tags'.map Tag.gist) :
    (declaredModule name tags place).gist = (declaredModule name tags' place').gist := by
  simp only [declaredModule, Stmt.gist, Info.gist, ht]

theorem advance_end_gist {modules : Bool} {o o' : OpenBlocks}
    (hstart : o.top.start.map Prod.fst = o'.top.start.map Prod.fst)
    (htags : o.top.tags.map Tag.gist = o'.top.tags.map Tag.gist) (hbody : stmtsGist o.top.body = stmtsGist o'.top.body)
    (hpending : o.top.pending.map Tag.gist = o'.top.pending.map Tag.gist)
    (hbelow : o.below.map OpenBlock.gist = o'.below.map OpenBlock.gist) (name : String) (place : Span) :
    ((Item.end_ name place).advance modules o).map OpenBlocks.gist =
      ((Item.end_ name Span.unset).advance modules o').map OpenBlocks.gist := by
  obtain ⟨⟨start, tags, body, pending⟩, below⟩ := o
  obtain ⟨⟨start', tags', body', pending'⟩, below'⟩ := o'
  simp only at hstart htags hbody hpending hbelow
  cases modules with
  | false => rfl
  | true =>
    cases start with
    | none =>
      obtain rfl : start' = none := Option.map_eq_none_iff.1 hstart.symm
      rfl
    | some start =>
      obtain ⟨⟨_, line'⟩, rfl, rfl⟩ := Option.map_eq_some_iff.1 hstart.symm
      cases below with
      | nil =>
        obtain rfl : below' = [] := List.map_eq_nil_iff.1 hbelow.symm
        rfl
      | cons outer below =>
        obtain ⟨outer', below'', rfl, houter, hrest⟩ := List.map_eq_cons_iff.1 hbelow.symm
        have hempty : pending = [] ↔ pending' = [] := by
          rw [← List.map_eq_nil_iff (f := Tag.gist), hpending, List.map_eq_nil_iff]
        simp only [Item.advance, hempty]
        split
        · exact congrArg some (OpenBlocks.gist_eq_iff.2
            ⟨OpenBlock.gist_push houter.symm (gist_inlineModule htags hbody), hrest.symm⟩)
        · rfl

/-- Reading an item agrees with reading what the item says. -/
theorem advance_gist (modules : Bool) {o o' : OpenBlocks} (h : o.gist = o'.gist) {i : Item} (hi : i.isRemark = false) :
    (i.advance modules o).map OpenBlocks.gist = (i.gist.advance modules o').map OpenBlocks.gist := by
  obtain ⟨htop, hbelow⟩ := OpenBlocks.gist_eq_iff.1 h
  obtain ⟨hstart, htags, hbody, hpending⟩ := OpenBlock.gist_eq_iff.1 htop
  cases i with
  | remark c => cases hi
  | statement s =>
    simp only [Item.advance, Item.gist, any_isSource_congr hpending]
    split
    · rfl
    · exact congrArg some (OpenBlocks.gist_eq_iff.2 ⟨OpenBlock.gist_pushTagged htop s.gist_gist.symm, hbelow⟩)
  | variant argument line =>
    exact congrArg some (OpenBlocks.gist_eq_iff.2 ⟨OpenBlock.gist_await htop rfl, hbelow⟩)
  | source path line => exact congrArg some (OpenBlocks.gist_eq_iff.2 ⟨OpenBlock.gist_await htop rfl, hbelow⟩)
  | declare name place =>
    cases modules with
    | false => rfl
    | true =>
      have hs : stmtsGist [declaredModule name o.top.pending place] =
          stmtsGist [declaredModule name o'.top.pending Span.unset] :=
        stmtsGist_cons_congr (gist_declaredModule hpending) rfl
      exact congrArg some (OpenBlocks.gist_eq_iff.2 ⟨OpenBlock.gist_cleared htop hs, hbelow⟩)
  | begin_ name line =>
    cases modules with
    | false => rfl
    | true =>
      have hinner : (OpenBlock.fresh (some (name, line)) o.top.pending).gist =
          (OpenBlock.fresh (some (name, 0)) o'.top.pending).gist := OpenBlock.gist_eq_iff.2 ⟨rfl, hpending, rfl, rfl⟩
      have houter : ({ o.top with pending := [] } : OpenBlock).gist = ({ o'.top with pending := [] } : OpenBlock).gist :=
        OpenBlock.gist_eq_iff.2 ⟨hstart, htags, hbody, rfl⟩
      exact congrArg some (OpenBlocks.gist_eq_iff.2 ⟨hinner, by simp [houter, hbelow]⟩)
  | end_ name place => exact advance_end_gist hstart htags hbody hpending hbelow name place

/-- Reading a word agrees with reading what the word says. -/
theorem advanceAll_gist (modules : Bool) {o o' : OpenBlocks} (h : o.gist = o'.gist) (w : List Item)
    (hw : ∀ c, .remark c ∈ w → c.isOrdinary = true) :
    (advanceAll modules o w).map OpenBlocks.gist = (advanceAll modules o' (wordGist w)).map OpenBlocks.gist := by
  induction w generalizing o o' with
  | nil => exact congrArg some h
  | cons i w ih =>
    have hrest : ∀ c, .remark c ∈ w → c.isOrdinary = true := fun c hc => hw c (List.mem_cons_of_mem _ hc)
    rw [wordGist_cons]
    cases hi : i.isRemark with
    | true =>
      cases i with
      | remark c =>
        have hpush : (⟨o.top.push (.comment c), o.below⟩ : OpenBlocks).gist = o'.gist := by
          rw [← h]
          exact OpenBlocks.gist_eq_iff.2 ⟨OpenBlock.gist_push_remark (hw c (List.mem_cons_self ..)), rfl⟩
        exact ih hpush hrest
      | _ => cases hi
    | false =>
      have hstep := advance_gist modules h hi
      rw [if_neg Bool.false_ne_true, advanceAll_cons, advanceAll_cons]
      cases hn : i.advance modules o with
      | none =>
        rw [hn] at hstep
        rw [Option.map_eq_none_iff.1 hstep.symm]
        rfl
      | some next =>
        rw [hn] at hstep
        obtain ⟨next', hn', hnext⟩ := Option.map_eq_some_iff.1 hstep.symm
        rw [hn']
        exact ih hnext.symm hrest

theorem closeAll_gist {o o' : OpenBlocks} (h : o.gist = o'.gist) :
    (closeAll o).map stmtsGist = (closeAll o').map stmtsGist := by
  obtain ⟨htop, -⟩ := OpenBlocks.gist_eq_iff.1 h
  obtain ⟨hstart, -, hbody, hpending⟩ := OpenBlock.gist_eq_iff.1 htop
  have hopen : (o.top.start = none ∧ o.top.pending = []) ↔ (o'.top.start = none ∧ o'.top.pending = []) := by
    rw [← Option.map_eq_none_iff, hstart, Option.map_eq_none_iff, ← List.map_eq_nil_iff, hpending, List.map_eq_nil_iff]
  simp only [closeAll, hopen]
  split
  · exact congrArg some hbody
  · rfl

theorem isOrdinary_of_mem_word {ss : List Stmt} {w : List Item} (hw : word? ss = some w) {c : Comment}
    (hc : .remark c ∈ w) : c.isOrdinary = true := by
  obtain ⟨s, -, hs⟩ := (mem_word_iff hw).1 hc
  have hremark := isRemark_eq_of_of? hs
  cases s with
  | comment k =>
    simp only [Item.of?] at hs
    split at hs
    · rename_i hk
      cases hs
      exact isOrdinary_of_isPlain (isPlain_of_inComment? hk)
    · rename_i d hk
      simp only [Item.ofDirective, Option.some.injEq] at hs
      split at hs <;> cases hs
    · cases hs
  | _ => cases hs

/-- A block with its directives in effect says what it does because of what the block says. -/
theorem group_agree {modules : Bool} {ss us : List Stmt} (h : stmtsGist ss = stmtsGist us) :
    AgreeOn stmtsGist (group modules ss) (group modules us) := by
  have hread {ss : List Stmt} {w : List Item} (hw : word? ss = some w) :
      (group modules ss).toOption.map stmtsGist =
        ((advanceAll modules ⟨OpenBlock.fresh none [], []⟩ (wordGist w)).bind closeAll).map stmtsGist := by
    have hadvance := advanceAll_gist modules (rfl : (⟨OpenBlock.fresh none [], []⟩ : OpenBlocks).gist = _) w
      fun c hc => isOrdinary_of_mem_word hw hc
    rw [group_toOption modules hw]
    cases hn : advanceAll modules ⟨OpenBlock.fresh none [], []⟩ w with
    | none =>
      rw [hn] at hadvance
      rw [Option.map_eq_none_iff.1 hadvance.symm]
    | some o =>
      rw [hn] at hadvance
      obtain ⟨o', ho', hgist⟩ := Option.map_eq_some_iff.1 hadvance.symm
      rw [ho']
      exact closeAll_gist hgist.symm
  have hword : (word? ss).map wordGist = (word? us).map wordGist := by rw [word?_gist, h, ← word?_gist]
  have hnone {ss : List Stmt} (hw : word? ss = none) : (group modules ss).toOption = none := by
    cases hg : group modules ss with
    | error f => rfl
    | ok out =>
      obtain ⟨w, hsome⟩ := exists_word_of_group hg
      rw [hw] at hsome
      cases hsome
  cases hw : word? ss with
  | none =>
    rw [hw] at hword
    rw [AgreeOn, hnone hw, hnone (Option.map_eq_none_iff.1 hword.symm)]
  | some w =>
    rw [hw] at hword
    obtain ⟨v, hv, hwv⟩ := Option.map_eq_some_iff.1 hword.symm
    rw [AgreeOn, hread hw, hread hv, hwv]

/-- A comment between handlers or cases is refused if it is not ordinary. -/
theorem checkLoose_toOption (c : Comment) : (checkLoose c).toOption = if c.isOrdinary then some () else none := by
  cases h : c.isOrdinary with
  | true =>
    rw [checkLoose, inComment?_of_isOrdinary h]
    rfl
  | false =>
    cases hc : checkLoose c with
    | error f => rfl
    | ok u =>
      rw [isOrdinary_of_isPlain (isPlain_of_checkLoose hc)] at h
      cases h

theorem checkLoose_agree (c : Comment) : AgreeOn id (checkLoose c) (checkLoose c.gist) := by
  rw [AgreeOn, checkLoose_toOption, checkLoose_toOption, Comment.isOrdinary_gist]

theorem checkLoose_of_isOrdinary {c : Comment} (h : c.isOrdinary = true) : checkLoose c = .ok () := by
  rw [checkLoose, inComment?_of_isOrdinary h]

theorem checkHandlers_gist (hs : List Handler) : AgreeOn id (checkHandlers hs) (checkHandlers (handlersGist hs)) := by
  induction hs with
  | nil => rfl
  | cons h hs ih =>
    cases h with
    | comment c =>
      cases hc : c.isOrdinary with
      | true =>
        simp only [checkHandlers, handlersGist, hc, if_true, checkLoose_of_isOrdinary hc]
        exact ih
      | false =>
        simp only [checkHandlers, handlersGist, hc]
        exact (checkLoose_agree c).bind fun _ _ _ => ih
    | handler span type name body => exact ih

theorem checkHandlers_agree {hs hs' : List Handler} (h : handlersGist hs = handlersGist hs') :
    AgreeOn id (checkHandlers hs) (checkHandlers hs') :=
  (checkHandlers_gist hs).trans (h ▸ (checkHandlers_gist hs').symm)

theorem checkCases_gist (cs : List Case) : AgreeOn id (checkCases cs) (checkCases (casesGist cs)) := by
  induction cs with
  | nil => rfl
  | cons c cs ih =>
    cases c with
    | comment k =>
      cases hc : k.isOrdinary with
      | true =>
        simp only [checkCases, casesGist, hc, if_true, checkLoose_of_isOrdinary hc]
        exact ih
      | false =>
        simp only [checkCases, casesGist, hc]
        exact (checkLoose_agree k).bind fun _ _ _ => ih
    | case lines pattern guard body => exact ih

theorem checkCases_agree {cs cs' : List Case} (h : casesGist cs = casesGist cs') :
    AgreeOn id (checkCases cs) (checkCases cs') :=
  (checkCases_gist cs).trans (h ▸ (checkCases_gist cs').symm)

end Directive

open Directive

mutual

/-- What attaching makes of a statement depends on what the statement says. -/
theorem Stmt.attach_agree : (s : Stmt) → AgreeOn Stmt.gist s.attach s.gist.attach
  | .simple info what => .ok (Stmt.gist_gist (.simple info what)).symm
  | .comment c => .ok (Stmt.gist_gist (.comment c)).symm
  | .block info head body => by
    refine (attachStmts_agree body).bind fun inner inner' hinner => ?_
    rw [BlockHead.isModule_gist]
    refine (group_agree hinner).bind fun out out' hout => .ok ?_
    simp only [Stmt.gist, Info.gist_gist, BlockHead.gist_gist, hout]
  | .branch info head body orelse => by
    refine (attachStmts_agree body).bind fun inner inner' hinner => ?_
    refine (group_agree hinner).bind fun out out' hout => ?_
    refine (attachStmts_agree orelse).bind fun innerElse innerElse' hinnerElse => ?_
    refine (group_agree hinnerElse).bind fun outElse outElse' houtElse => .ok ?_
    simp only [Stmt.gist, Info.gist_gist, hout, houtElse]
  | .attempt info isGroup body handlers orelse finalbody => by
    refine (attachStmts_agree body).bind fun inner inner' hinner => ?_
    refine (group_agree hinner).bind fun out out' hout => ?_
    refine (attachHandlers_agree handlers).bind fun outHandlers outHandlers' hhandlers => ?_
    refine (checkHandlers_agree hhandlers).bind fun _ _ _ => ?_
    refine (attachStmts_agree orelse).bind fun innerElse innerElse' hinnerElse => ?_
    refine (group_agree hinnerElse).bind fun outElse outElse' houtElse => ?_
    refine (attachStmts_agree finalbody).bind fun innerFinal innerFinal' hinnerFinal => ?_
    refine (group_agree hinnerFinal).bind fun outFinal outFinal' houtFinal => .ok ?_
    simp only [Stmt.gist, Info.gist_gist, hout, hhandlers, houtElse, houtFinal]
  | .select info subject cases => by
    refine (attachCases_agree cases).bind fun outCases outCases' hcases => ?_
    refine (checkCases_agree hcases).bind fun _ _ _ => .ok ?_
    simp only [Stmt.gist, Info.gist_gist, hcases]

theorem attachStmts_agree : (ss : List Stmt) → AgreeOn stmtsGist (attachStmts ss) (attachStmts (stmtsGist ss))
  | [] => .refl ..
  | s :: ss => by
    rw [stmtsGist_cons]
    cases hr : s.isRemark with
    | true =>
      cases s with
      | comment c =>
        exact (attachStmts_agree ss).before fun out => by rw [stmtsGist_cons, hr, if_pos rfl]
      | _ => cases hr
    | false =>
      rw [if_neg Bool.false_ne_true]
      refine (Stmt.attach_agree s).bind fun t t' ht => ?_
      exact (attachStmts_agree ss).bind fun out out' hout => .ok (stmtsGist_cons_congr ht hout)

theorem attachHandlers_agree :
    (hs : List Handler) → AgreeOn handlersGist (attachHandlers hs) (attachHandlers (handlersGist hs))
  | [] => .refl ..
  | .comment c :: hs => by
    simp only [handlersGist]
    cases hc : c.isOrdinary with
    | true => exact (attachHandlers_agree hs).before fun out => by simp only [handlersGist, hc, if_true]
    | false =>
      refine (attachHandlers_agree hs).bind fun rest rest' hrest => .ok ?_
      simp [handlersGist, hc, hrest]
  | .handler span type name body :: hs => by
    refine (attachStmts_agree body).bind fun inner inner' hinner => ?_
    refine (group_agree hinner).bind fun out out' hout => ?_
    refine (attachHandlers_agree hs).bind fun rest rest' hrest => .ok ?_
    simp only [handlersGist, hout, hrest]

theorem attachCases_agree : (cs : List Case) → AgreeOn casesGist (attachCases cs) (attachCases (casesGist cs))
  | [] => .refl ..
  | .comment c :: cs => by
    simp only [casesGist]
    cases hc : c.isOrdinary with
    | true => exact (attachCases_agree cs).before fun out => by simp only [casesGist, hc, if_true]
    | false =>
      refine (attachCases_agree cs).bind fun rest rest' hrest => .ok ?_
      simp [casesGist, hc, hrest]
  | .case lines pattern guard body :: cs => by
    refine (attachStmts_agree body).bind fun inner inner' hinner => ?_
    refine (group_agree hinner).bind fun out out' hout => ?_
    refine (attachCases_agree cs).bind fun rest rest' hrest => .ok ?_
    simp only [casesGist, hout, hrest]

end

/-- What comes of a file depends on what it says. -/
theorem attachBody_agree {ss us : List Stmt} (h : stmtsGist ss = stmtsGist us) :
    AgreeOn stmtsGist (attachBody ss) (attachBody us) := by
  have hinner : AgreeOn stmtsGist (attachStmts ss) (attachStmts us) :=
    (attachStmts_agree ss).trans (h ▸ (attachStmts_agree us).symm)
  exact hinner.bind fun inner inner' hinner => group_agree hinner

end TwinModule
