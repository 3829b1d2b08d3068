import Mathlib
import TwinModule.Proofs.Directive.Attached
/-!
Nothing is lost and nothing is there twice once directives are in effect. With what is in its modules in place of them,
a block is what it was without its directives. The tags of its statements and modules, read one after the other, are
those of its directives, and each is on the first statement or module after it.
-/
set_option autoImplicit false

namespace TwinModule
open Directive

/-- Something in place of every statement and comment of every block, the inner ones first. -/
def BlockMap.each (g : Stmt → List Stmt) : BlockMap := ⟨fun _ _ ss => ss.flatMap g, fun hs => hs, fun cs => cs⟩

def throughout (g : Stmt → List Stmt) (ss : List Stmt) : List Stmt := (mapStmts (.each g) ss).flatMap g

namespace Stmt

/-- The directive on a line of a block. -/
def directive? : Stmt → Option Directive
  | comment c =>
    match inComment? c with
    | .ok d => d
    | .error _ => none
  | _ => none

/-- The tag that a line of a block puts on what comes after it. -/
def lineTag? (s : Stmt) : Option Tag := s.directive?.bind Directive.tag?

/-- Nothing in place of a directive. -/
def unlessDirective (s : Stmt) : List Stmt := if s.directive?.isSome then [] else [s]

/-- What is in a module in place of it; any other statement without its tags. -/
def opened : Stmt → List Stmt
  | block _ (.module_ _) body => body
  | s => [s.withTags []]

end Stmt

/-- The module that a directive declares or begins. -/
def Directive.begun? (d : Directive) : Option String :=
  match d.request with
  | .declare name => some name
  | .begin_ name => some name
  | _ => none

/-- What takes tags: a statement, without the directives and modules in it, or a module. -/
inductive Carrier where
  | statement (s : Stmt)
  | module_ (name : String)

/-- What takes the tags before it, in a block with directives in it. -/
def Stmt.carrier? : Stmt → Option Carrier
  | .comment c => ((Stmt.comment c).directive?.bind Directive.begun?).map .module_
  | s => some (.statement (s.mapBlocks (.each unlessDirective)))

mutual

/-- A statement with its tags; a module with its tags comes before what is in it. -/
def Stmt.carriers : Stmt → List (Carrier × List Tag)
  | .comment _ => []
  | .block info (.module_ name) body => (.module_ name, info.tags) :: stmtsCarriers body
  | s => [(.statement ((s.mapBlocks (.each Stmt.opened)).withTags []), s.tags)]

def stmtsCarriers : List Stmt → List (Carrier × List Tag)
  | [] => []
  | s :: ss => s.carriers ++ stmtsCarriers ss

end

mutual

/-- The blocks in a statement, outer ones first. What is in a module is in the block of the module. -/
def Stmt.blocks : Stmt → List (List Stmt)
  | .simple .. => []
  | .comment _ => []
  | .block _ (.module_ _) body => stmtsBlocks body
  | .block _ _ body => body :: stmtsBlocks body
  | .branch _ _ body orelse => (body :: stmtsBlocks body) ++ (orelse :: stmtsBlocks orelse)
  | .attempt _ _ body handlers orelse finalbody =>
    (body :: stmtsBlocks body) ++ (handlersBlocks handlers ++ ((orelse :: stmtsBlocks orelse) ++
      (finalbody :: stmtsBlocks finalbody)))
  | .select _ _ cases => casesBlocks cases

def stmtsBlocks : List Stmt → List (List Stmt)
  | [] => []
  | s :: ss => s.blocks ++ stmtsBlocks ss

def handlersBlocks : List Handler → List (List Stmt)
  | [] => []
  | .comment _ :: hs => handlersBlocks hs
  | .handler _ _ _ body :: hs => (body :: stmtsBlocks body) ++ handlersBlocks hs

def casesBlocks : List Case → List (List Stmt)
  | [] => []
  | .comment _ :: cs => casesBlocks cs
  | .case _ _ _ body :: cs => (body :: stmtsBlocks body) ++ casesBlocks cs

end

/-- What the second block, with its directives in effect, keeps of the first. -/
structure Kept (ss out : List Stmt) : Prop where
  /-- The statements and the comments that are no directives, each once and in order. -/
  items : throughout Stmt.opened out = throughout Stmt.unlessDirective ss
  /-- The statements and modules are those that there were, in order. -/
  carriers : (stmtsCarriers out).map Prod.fst = ss.filterMap Stmt.carrier?
  /-- Their tags are those of the directives, each once and in order. -/
  tags : (stmtsCarriers out).flatMap Prod.snd = ss.filterMap Stmt.lineTag?
  /-- The tag of a directive is on the first statement or module after it. -/
  first : ∀ {front back : List Stmt} {c : Comment} {t : Tag}, ss = front ++ .comment c :: back →
    (Stmt.comment c).lineTag? = some t → ∃ carrier ts, (back.filterMap Stmt.carrier?).head? = some carrier ∧
      (stmtsCarriers out)[(front.filterMap Stmt.carrier?).length]? = some (carrier, ts) ∧ t ∈ ts

@[simp] theorem stmtsCarriers_append (as bs : List Stmt) :
    stmtsCarriers (as ++ bs) = stmtsCarriers as ++ stmtsCarriers bs := by
  induction as with
  | nil => rfl
  | cons a as ih => simp [stmtsCarriers, ih]

theorem stmtsBlocks_eq_flatMap (ss : List Stmt) : stmtsBlocks ss = ss.flatMap Stmt.blocks := by
  induction ss with
  | nil => rfl
  | cons s ss ih => simp [stmtsBlocks, ih]

@[simp] theorem stmtsBlocks_append (as bs : List Stmt) : stmtsBlocks (as ++ bs) = stmtsBlocks as ++ stmtsBlocks bs := by
  simp [stmtsBlocks_eq_flatMap]

@[simp] theorem throughout_append (g : Stmt → List Stmt) (as bs : List Stmt) :
    throughout g (as ++ bs) = throughout g as ++ throughout g bs := by
  simp [throughout, mapStmts_eq_map]

@[simp] theorem throughout_cons (g : Stmt → List Stmt) (s : Stmt) (ss : List Stmt) :
    throughout g (s :: ss) = g (s.mapBlocks (.each g)) ++ throughout g ss := by
  simp [throughout, mapStmts_eq_map]

namespace Stmt

theorem mapBlocks_withTags (w : BlockMap) (s : Stmt) (ts : List Tag) :
    (s.withTags ts).mapBlocks w = (s.mapBlocks w).withTags ts := by
  cases s <;> rfl

theorem opened_withTags (s : Stmt) (ts : List Tag) : (s.withTags ts).opened = s.opened := by
  cases s with
  | block info head body => cases head <;> rfl
  | _ => rfl

theorem blocks_withTags (s : Stmt) (ts : List Tag) : (s.withTags ts).blocks = s.blocks := by
  cases s with
  | block info head body => cases head <;> rfl
  | _ => rfl

theorem directive?_of_isReal {s : Stmt} (h : s.isReal = true) : s.directive? = none := by
  cases s with
  | comment c => cases h
  | _ => rfl

theorem carrier?_of_isReal {s : Stmt} (h : s.isReal = true) :
    s.carrier? = some (.statement (s.mapBlocks (.each unlessDirective))) := by
  cases s with
  | comment c => cases h
  | _ => rfl

theorem isReal_mapBlocks (w : BlockMap) (s : Stmt) : (s.mapBlocks w).isReal = s.isReal := by
  cases s <;> rfl

theorem tags_mapBlocks (w : BlockMap) (s : Stmt) : (s.mapBlocks w).tags = s.tags := by
  cases s <;> rfl

theorem role_mapBlocks (w : BlockMap) (s : Stmt) : (s.mapBlocks w).role = s.role := by
  cases s <;> rfl

/-- Any statement that is no module is kept, but for its tags. -/
theorem opened_of_role {s : Stmt} (h : s.role = .ordinary) : s.opened = [s.withTags []] := by
  cases s with
  | block info head body =>
    cases head with
    | module_ name => cases h
    | _ => rfl
  | _ => rfl

/-- A statement that is no module takes tags for itself. -/
theorem carriers_withTags {s : Stmt} (hs : s.isReal = true) (h : s.role = .ordinary) (ts : List Tag) :
    (s.withTags ts).carriers = [(.statement ((s.mapBlocks (.each opened)).withTags []), ts)] := by
  cases s with
  | comment c => cases hs
  | block info head body =>
    cases head with
    | module_ name => cases h
    | _ => rfl
  | _ => rfl

end Stmt

namespace Directive

namespace Item

/-- What is left of an item with modules opened. -/
def shown : Item → List Stmt
  | remark c => [.comment c]
  | statement s => (s.mapBlocks (.each Stmt.opened)).opened
  | _ => []

def carrier? : Item → Option Carrier
  | statement s => some (.statement ((s.mapBlocks (.each Stmt.opened)).withTags []))
  | declare name _ => some (.module_ name)
  | begin_ name _ => some (.module_ name)
  | _ => none

def blocks : Item → List (List Stmt)
  | statement s => s.blocks
  | _ => []

theorem blocks_of_comment {c : Comment} {i : Item} (h : of? (.comment c) = some i) : i.blocks = [] := by
  simp only [of?] at h
  split at h
  · cases h
    rfl
  · rename_i d hc
    cases h
    unfold ofDirective
    split <;> rfl
  · cases h

theorem tag?_of_carrier? {i : Item} {k : Carrier} (h : i.carrier? = some k) : i.tag? = none := by
  cases i <;> first | rfl | cases h

theorem carrier?_of_isLine {i : Item} (h : i.isLine = true) : i.carrier? = none := by
  cases i <;> first | rfl | cases h

end Item

/-- The items after some tags, with what takes them: a line makes one more wait, and the next statement or module takes
all that wait. In the end none does. -/
inductive Settles : List Tag → List Item → List (Carrier × List Tag) → Prop
  | done : Settles [] [] []
  | carrier {waiting : List Tag} {i : Item} {w : List Item} {k : Carrier} {out : List (Carrier × List Tag)}
      (takes : i.carrier? = some k) (rest : Settles [] w out) : Settles waiting (i :: w) ((k, waiting) :: out)
  | line {waiting : List Tag} {i : Item} {w : List Item} {out : List (Carrier × List Tag)}
      (leaves : i.carrier? = none) (rest : Settles (waiting ++ i.tag?.toList) w out) : Settles waiting (i :: w) out

namespace Settles

variable {waiting : List Tag} {w : List Item} {out : List (Carrier × List Tag)}

theorem carriers (h : Settles waiting w out) : out.map Prod.fst = w.filterMap Item.carrier? := by
  induction h with
  | done => rfl
  | carrier takes rest ih => simp [takes, ih]
  | line leaves rest ih => simp [leaves, ih]

theorem tags (h : Settles waiting w out) : out.flatMap Prod.snd = waiting ++ tagsOf w := by
  induction h with
  | done => rfl
  | carrier takes rest ih => simp [Item.tag?_of_carrier? takes, ih]
  | line leaves rest ih => simp [ih]

/-- The first carrier takes the tags that wait. -/
theorem first_of_mem (h : Settles waiting w out) {t : Tag} (ht : t ∈ waiting) :
    ∃ k ts, (w.filterMap Item.carrier?).head? = some k ∧ out[0]? = some (k, ts) ∧ t ∈ ts := by
  induction h with
  | done => cases ht
  | @carrier waiting i w k out takes rest ih => exact ⟨k, waiting, by simp [takes], rfl, ht⟩
  | @line waiting i w out leaves rest ih =>
    obtain ⟨k, ts, hk, hout, hts⟩ := ih (List.mem_append_left _ ht)
    exact ⟨k, ts, by simpa [leaves] using hk, hout, hts⟩

theorem first (h : Settles waiting w out) {front back : List Item} {i : Item} {t : Tag}
    (hw : w = front ++ i :: back) (ht : i.tag? = some t) :
    ∃ k ts, (back.filterMap Item.carrier?).head? = some k ∧
      out[(front.filterMap Item.carrier?).length]? = some (k, ts) ∧ t ∈ ts := by
  induction h generalizing front with
  | done => simp at hw
  | @carrier waiting j w k out takes rest ih =>
    cases front with
    | nil =>
      obtain ⟨rfl, rfl⟩ := List.cons.inj hw
      rw [Item.tag?_of_carrier? takes] at ht
      cases ht
    | cons j' front =>
      obtain ⟨rfl, hrest⟩ := List.cons.inj hw
      simpa [takes] using ih hrest
  | @line waiting j w out leaves rest ih =>
    cases front with
    | nil =>
      obtain ⟨rfl, rfl⟩ := List.cons.inj hw
      exact rest.first_of_mem (by simp [ht])
    | cons j' front =>
      obtain ⟨rfl, hrest⟩ := List.cons.inj hw
      simpa [leaves] using ih hrest

/-- A run of lines leaves its tags to what comes after it. -/
theorem after_lines {run : List Item} (lines : ∀ i ∈ run, i.isLine = true)
    (h : Settles (waiting ++ tagsOf run) w out) : Settles waiting (run ++ w) out := by
  induction run generalizing waiting with
  | nil => simpa using h
  | cons i run ih =>
    obtain ⟨hi, lines⟩ := List.forall_mem_cons.1 lines
    exact .line (Item.carrier?_of_isLine hi) (ih lines (by simpa using h))

theorem of_lines {run : List Item} (lines : ∀ i ∈ run, i.isLine = true) (h : Settles (tagsOf run) w out) :
    Settles [] (run ++ w) out :=
  after_lines lines h

end Settles

theorem stmtsCarriers_remarksOf (run : List Item) : stmtsCarriers (remarksOf run) = [] := by
  induction run with
  | nil => rfl
  | cons i run ih => cases i <;> simp [Item.remark?, stmtsCarriers, Stmt.carriers, ih]

theorem stmtsBlocks_remarksOf (run : List Item) : stmtsBlocks (remarksOf run) = [] := by
  induction run with
  | nil => rfl
  | cons i run ih => cases i <;> simp [Item.remark?, stmtsBlocks, Stmt.blocks, ih]

theorem blocks_of_lines {run : List Item} (lines : ∀ i ∈ run, i.isLine = true) : run.flatMap Item.blocks = [] := by
  refine List.flatMap_eq_nil_iff.2 fun i hi => ?_
  cases i <;> first | rfl | cases lines _ hi

theorem throughout_remarksOf {run : List Item} (lines : ∀ i ∈ run, i.isLine = true) :
    throughout Stmt.opened (remarksOf run) = run.flatMap Item.shown := by
  induction run with
  | nil => rfl
  | cons i run ih =>
    obtain ⟨hi, hrun⟩ := List.forall_mem_cons.1 lines
    cases i with
    | remark c => simp [Item.remark?, Item.shown, Stmt.mapBlocks, Stmt.opened, Stmt.withTags, Stmt.mapInfo, ih hrun]
    | variant argument line => simp [Item.remark?, Item.shown, ih hrun]
    | source path line => simp [Item.remark?, Item.shown, ih hrun]
    | _ => cases hi

namespace Derives

variable {w : List Item} {out : List Stmt}

theorem shown (h : Derives w out) : throughout Stmt.opened out = w.flatMap Item.shown := by
  induction h with
  | nil => rfl
  | remark rest ih =>
    simp [Stmt.mapBlocks, Stmt.opened, Stmt.withTags, Stmt.mapInfo, Item.shown, ih]
  | statement lines noSource rest ih =>
    simp [throughout_remarksOf lines, Stmt.mapBlocks_withTags, Stmt.opened_withTags, Item.shown, ih]
  | declare lines rest ih =>
    simp [throughout_remarksOf lines, declaredModule, Stmt.mapBlocks, Stmt.opened, BlockMap.each, Item.shown, ih]
  | @inline run inner w name line place body out lines within rest ihWithin ih =>
    have hbody : (mapStmts (.each Stmt.opened) body).flatMap Stmt.opened = inner.flatMap Item.shown := ihWithin
    simp [throughout_remarksOf lines, inlineModule, Stmt.mapBlocks, Stmt.opened, Item.shown, ih]
    simpa [BlockMap.each] using hbody

theorem blocks (h : Derives w out) : stmtsBlocks out = w.flatMap Item.blocks := by
  induction h with
  | nil => rfl
  | remark rest ih => simp [stmtsBlocks, Stmt.blocks, Item.blocks, ih]
  | statement lines noSource rest ih =>
    simp [stmtsBlocks_remarksOf, stmtsBlocks, Stmt.blocks_withTags, blocks_of_lines lines, Item.blocks, ih]
  | declare lines rest ih =>
    simp [stmtsBlocks_remarksOf, stmtsBlocks, declaredModule, Stmt.blocks, blocks_of_lines lines, Item.blocks, ih]
  | inline lines within rest ihWithin ih =>
    simp [stmtsBlocks_remarksOf, stmtsBlocks, inlineModule, Stmt.blocks, blocks_of_lines lines, Item.blocks, ihWithin,
      ih]

/-- Whatever follows a block, no tag of the block is left for it. -/
theorem settles (h : Derives w out) (hw : ∀ i ∈ w, i.Fits) {v : List Item} {later : List (Carrier × List Tag)}
    (hv : Settles [] v later) : Settles [] (w ++ v) (stmtsCarriers out ++ later) := by
  induction h generalizing v later with
  | nil => exact hv
  | @remark c w out rest ih =>
    exact .line rfl (by simpa [Item.tag?, stmtsCarriers, Stmt.carriers] using ih (fun i hi => hw i (by simp [hi])) hv)
  | @statement run w s out lines noSource rest ih =>
    obtain ⟨hr, hready⟩ := hw (.statement s) (by simp)
    obtain ⟨hrole, htags, -⟩ := hready hr
    have hrest : Settles [] (w ++ v) (stmtsCarriers out ++ later) := ih (fun i hi => hw i (by simp [hi])) hv
    have hcarriers := Stmt.carriers_withTags hr hrole (tagsOf run)
    simpa [stmtsCarriers_remarksOf, stmtsCarriers, htags, hcarriers] using
      (Settles.carrier (i := .statement s) rfl hrest).of_lines lines
  | @declare run w name place out lines rest ih =>
    have hrest : Settles [] (w ++ v) (stmtsCarriers out ++ later) := ih (fun i hi => hw i (by simp [hi])) hv
    simpa [stmtsCarriers_remarksOf, stmtsCarriers, declaredModule, Stmt.carriers] using
      (Settles.carrier (i := .declare name place) rfl hrest).of_lines lines
  | @inline run inner w name line place body out lines within rest ihWithin ih =>
    have hrest : Settles [] (.end_ name place :: (w ++ v)) (stmtsCarriers out ++ later) :=
      .line rfl (ih (fun i hi => hw i (by simp [hi])) hv)
    have hinner := ihWithin (fun i hi => hw i (by simp [hi])) hrest
    simpa [stmtsCarriers_remarksOf, stmtsCarriers, inlineModule, Stmt.carriers] using
      (Settles.carrier (i := .begin_ name line) rfl hinner).of_lines lines

end Derives

/-- A statement with the blocks in it done and as it was before. -/
structure Settled (s s' : Stmt) : Prop where
  comment : ∀ c, s' = .comment c → s = .comment c
  isReal : s'.isReal = s.isReal
  same : s'.mapBlocks (.each Stmt.opened) = s.mapBlocks (.each Stmt.unlessDirective)
  blocks : List.Forall₂ Kept s.blocks s'.blocks

/-- What an item says of the line or statement that it comes from. -/
structure Stands (s : Stmt) (i : Item) : Prop where
  tag : s.lineTag? = i.tag?
  carrier : s.carrier? = i.carrier?
  shown : (s.mapBlocks (.each Stmt.unlessDirective)).unlessDirective = i.shown

theorem stands_of_comment {c : Comment} {i : Item} (hi : Item.of? (.comment c) = some i) : Stands (.comment c) i := by
  simp only [Item.of?] at hi
  split at hi
  · rename_i hc
    cases hi
    constructor <;> simp [Stmt.lineTag?, Stmt.carrier?, Stmt.unlessDirective, Stmt.mapBlocks, Stmt.directive?, hc,
      Item.tag?, Item.carrier?, Item.shown]
  · rename_i d hc
    cases hi
    obtain ⟨line, argument, request⟩ := d
    cases request <;> constructor <;>
      simp [Stmt.lineTag?, Stmt.carrier?, Stmt.unlessDirective, Stmt.mapBlocks, Stmt.directive?, hc, Item.ofDirective,
        Item.tag?, Item.carrier?, Item.shown, Directive.tag?, Directive.begun?]
  · cases hi

theorem stands_of_settled {s s' : Stmt} {i : Item} (hs : Settled s s') (hready : Ready s')
    (hi : Item.of? s' = some i) : Stands s i ∧ i.blocks = s'.blocks := by
  cases hr : s'.isReal with
  | false =>
    obtain ⟨c, rfl⟩ : ∃ c, s' = .comment c := by
      cases s' with
      | comment c => exact ⟨c, rfl⟩
      | _ => cases hr
    obtain rfl := hs.comment c rfl
    exact ⟨stands_of_comment hi, Item.blocks_of_comment hi⟩
  | true =>
    obtain ⟨hrole, htags, -⟩ := hready hr
    rw [of?_of_isReal hr, Option.some.injEq] at hi
    subst hi
    have hreal : s.isReal = true := hs.isReal.symm.trans hr
    have hwhole : (s'.mapBlocks (.each Stmt.opened)).withTags [] = s.mapBlocks (.each Stmt.unlessDirective) := by
      rw [← htags, ← Stmt.tags_mapBlocks (.each Stmt.opened), Stmt.withTags_tags, hs.same]
    refine ⟨⟨?_, ?_, ?_⟩, rfl⟩
    · simp [Stmt.lineTag?, Stmt.directive?_of_isReal hreal, Item.tag?]
    · simp [Stmt.carrier?_of_isReal hreal, Item.carrier?, hwhole]
    · rw [Item.shown, Stmt.opened_of_role (by rwa [Stmt.role_mapBlocks]), hwhole]
      simp [Stmt.unlessDirective, Stmt.directive?_of_isReal, Stmt.isReal_mapBlocks, hreal]

theorem stands_of_word {ss inner : List Stmt} {w : List Item} (hs : List.Forall₂ Settled ss inner)
    (hready : ∀ s ∈ inner, Ready s) (hw : word? inner = some w) :
    List.Forall₂ Stands ss w ∧ stmtsBlocks inner = w.flatMap Item.blocks := by
  induction hs generalizing w with
  | nil =>
    cases hw
    exact ⟨.nil, rfl⟩
  | @cons s s' ss inner hs hss ih =>
    obtain ⟨i, hi, v, hv, rfl⟩ := word?_cons_eq_some_iff.1 hw
    obtain ⟨hfirst, hrest⟩ := List.forall_mem_cons.1 hready
    obtain ⟨hstands, hblocks⟩ := stands_of_settled hs hfirst hi
    obtain ⟨hlater, hothers⟩ := ih hrest hv
    exact ⟨.cons hstands hlater, by simp [stmtsBlocks, hblocks, hothers]⟩

section

variable {ss : List Stmt} {w : List Item}

theorem lineTags_of_stands (h : List.Forall₂ Stands ss w) : ss.filterMap Stmt.lineTag? = tagsOf w := by
  induction h with
  | nil => rfl
  | @cons s i ss w hs hss ih =>
    rw [List.filterMap_cons, hs.tag, tagsOf_cons, ih]
    cases i.tag? <;> rfl

theorem carriers_of_stands (h : List.Forall₂ Stands ss w) :
    ss.filterMap Stmt.carrier? = w.filterMap Item.carrier? := by
  induction h with
  | nil => rfl
  | cons hs hss ih => simp [hs.carrier, ih, List.filterMap_cons]

theorem shown_of_stands (h : List.Forall₂ Stands ss w) :
    throughout Stmt.unlessDirective ss = w.flatMap Item.shown := by
  induction h with
  | nil => rfl
  | cons hs hss ih => simp [hs.shown, ih]

/-- A block around a line is read as a word around what the line is. -/
theorem exists_split_of_stands {front back : List Stmt} {s : Stmt}
    (h : List.Forall₂ Stands (front ++ s :: back) w) :
    ∃ wf i wb, w = wf ++ i :: wb ∧ List.Forall₂ Stands front wf ∧ Stands s i ∧ List.Forall₂ Stands back wb := by
  induction front generalizing w with
  | nil =>
    obtain ⟨i, wb, hs, hback, rfl⟩ := List.forall₂_cons_left_iff.1 h
    exact ⟨[], i, wb, rfl, .nil, hs, hback⟩
  | cons f front ih =>
    obtain ⟨j, v, hf, hrest, rfl⟩ := List.forall₂_cons_left_iff.1 h
    obtain ⟨wf, i, wb, rfl, hfront, hs, hback⟩ := ih hrest
    exact ⟨j :: wf, i, wb, rfl, .cons hf hfront, hs, hback⟩

end

/-- Where the inner blocks are done, putting the directives of a block into effect keeps all there is. -/
theorem kept_of_group {modules : Bool} {ss inner out : List Stmt} (hs : List.Forall₂ Settled ss inner)
    (hready : ∀ s ∈ inner, Ready s) (h : group modules inner = .ok out) :
    Kept ss out ∧ stmtsBlocks out = stmtsBlocks inner := by
  obtain ⟨w, hw⟩ := exists_word_of_group h
  obtain ⟨hd, -⟩ := (group_eq_ok_iff hw).1 h
  obtain ⟨hstands, hblocks⟩ := stands_of_word hs hready hw
  have hfits : ∀ i ∈ w, i.Fits := fun i hi => by
    obtain ⟨s, hs, his⟩ := (mem_word_iff hw).1 hi
    exact fits_of_ready (hready s hs) his
  have hsettles : Settles [] w (stmtsCarriers out) := by simpa using hd.settles hfits .done
  refine ⟨⟨?_, ?_, ?_, ?_⟩, hd.blocks.trans hblocks.symm⟩
  · rw [hd.shown, shown_of_stands hstands]
  · rw [hsettles.carriers, carriers_of_stands hstands]
  · rw [hsettles.tags, lineTags_of_stands hstands, List.nil_append]
  · rintro front back c t rfl ht
    obtain ⟨wf, i, wb, rfl, hfront, hi, hback⟩ := exists_split_of_stands hstands
    rw [carriers_of_stands hfront, carriers_of_stands hback]
    exact hsettles.first rfl (hi.tag ▸ ht)

/-- What has been kept of the blocks in every statement has been kept of all the blocks in them. -/
theorem kept_of_settled {ss inner : List Stmt} (hs : List.Forall₂ Settled ss inner) :
    List.Forall₂ Kept (stmtsBlocks ss) (stmtsBlocks inner) := by
  induction hs with
  | nil => exact .nil
  | cons hs hss ih => exact List.rel_append hs.blocks ih

/-- The block of a statement, with all that is in it. -/
theorem kept_block {modules : Bool} {body inner out : List Stmt} (hs : List.Forall₂ Settled body inner)
    (hready : ∀ s ∈ inner, Ready s) (h : group modules inner = .ok out) :
    throughout Stmt.opened out = throughout Stmt.unlessDirective body ∧
      List.Forall₂ Kept (body :: stmtsBlocks body) (out :: stmtsBlocks out) := by
  obtain ⟨hkept, hblocks⟩ := kept_of_group hs hready h
  exact ⟨hkept.items, .cons hkept (hblocks ▸ kept_of_settled hs)⟩

mutual

theorem settled_of_attach {k : Comment → Prop} {outer : Bool} :
    (s s' : Stmt) → s.Obeys (Comments.commented k) outer → s.attach = .ok s' → Settled s s'
  | .simple info what, s', _, h => by
    cases h
    exact ⟨by simp, rfl, rfl, .nil⟩
  | .comment c, s', _, h => by
    cases h
    exact ⟨fun _ h => h, rfl, rfl, .nil⟩
  | .block info head body, s', ⟨hi, hf, hb⟩, h => by
    simp only [Stmt.attach, bind_eq_ok_iff] at h
    obtain ⟨inner, hinner, out, hout, h⟩ := h
    cases h
    obtain ⟨hitems, hblocks⟩ := kept_block (settled_of_attachStmts body inner hb hinner)
      (ready_of_attachStmts body inner hb hinner).2 hout
    refine ⟨by simp, rfl, congrArg (Stmt.block info head) hitems, ?_⟩
    cases head with
    | module_ name => exact absurd hi.1 (by simp [BlockHead.role])
    | _ => exact hblocks
  | .branch info head body orelse, s', ⟨hi, ⟨hf, hb⟩, hfo, ho⟩, h => by
    simp only [Stmt.attach, bind_eq_ok_iff] at h
    obtain ⟨inner, hinner, out, hout, innerElse, hinnerElse, outElse, houtElse, h⟩ := h
    cases h
    obtain ⟨hitems, hblocks⟩ := kept_block (settled_of_attachStmts body inner hb hinner)
      (ready_of_attachStmts body inner hb hinner).2 hout
    obtain ⟨hitemsElse, hblocksElse⟩ := kept_block (settled_of_attachStmts orelse innerElse ho hinnerElse)
      (ready_of_attachStmts orelse innerElse ho hinnerElse).2 houtElse
    exact ⟨by simp, rfl, congrArg₂ (Stmt.branch info head) hitems hitemsElse, List.rel_append hblocks hblocksElse⟩
  | .attempt info isGroup body handlers orelse finalbody, s', ⟨hi, ⟨hf, hb⟩, hh, ⟨hfo, ho⟩, hff, hfb⟩, h => by
    simp only [Stmt.attach, bind_eq_ok_iff] at h
    obtain ⟨inner, hinner, out, hout, outHandlers, hhandlers, ⟨⟩, hloose, innerElse, hinnerElse, outElse, houtElse,
      innerFinal, hinnerFinal, outFinal, houtFinal, h⟩ := h
    cases h
    obtain ⟨hitems, hblocks⟩ := kept_block (settled_of_attachStmts body inner hb hinner)
      (ready_of_attachStmts body inner hb hinner).2 hout
    obtain ⟨hitemsElse, hblocksElse⟩ := kept_block (settled_of_attachStmts orelse innerElse ho hinnerElse)
      (ready_of_attachStmts orelse innerElse ho hinnerElse).2 houtElse
    obtain ⟨hitemsFinal, hblocksFinal⟩ := kept_block (settled_of_attachStmts finalbody innerFinal hfb hinnerFinal)
      (ready_of_attachStmts finalbody innerFinal hfb hinnerFinal).2 houtFinal
    obtain ⟨hmapped, hblocksHandlers⟩ := kept_of_attachHandlers handlers outHandlers hh hhandlers
    refine ⟨by simp, rfl, ?_, List.rel_append hblocks (List.rel_append hblocksHandlers
      (List.rel_append hblocksElse hblocksFinal))⟩
    simp only [Stmt.mapBlocks, hmapped]
    exact congr (congrArg₂ (Stmt.attempt info isGroup · _ · ·) hitems hitemsElse) hitemsFinal
  | .select info subject cases, s', ⟨hi, hc⟩, h => by
    simp only [Stmt.attach, bind_eq_ok_iff] at h
    obtain ⟨outCases, hcases, ⟨⟩, hloose, h⟩ := h
    cases h
    obtain ⟨hmapped, hblocks⟩ := kept_of_attachCases cases outCases hc hcases
    exact ⟨by simp, rfl, congrArg (Stmt.select info subject) hmapped, hblocks⟩
termination_by structural s => s

theorem settled_of_attachStmts {k : Comment → Prop} {outer : Bool} :
    (ss out : List Stmt) → stmtsObey (Comments.commented k) outer ss → attachStmts ss = .ok out →
    List.Forall₂ Settled ss out
  | [], out, _, h => by
    cases h
    exact .nil
  | s :: ss, out, ⟨hs, hss⟩, h => by
    simp only [attachStmts, bind_eq_ok_iff] at h
    obtain ⟨s', hs', rest, hrest, h⟩ := h
    cases h
    exact .cons (settled_of_attach s s' hs hs') (settled_of_attachStmts ss rest hss hrest)
termination_by structural ss => ss

theorem kept_of_attachHandlers {k : Comment → Prop} :
    (hs out : List Handler) → handlersObey (Comments.commented k) hs → attachHandlers hs = .ok out →
    mapHandlers (.each Stmt.opened) out = mapHandlers (.each Stmt.unlessDirective) hs ∧
      List.Forall₂ Kept (handlersBlocks hs) (handlersBlocks out)
  | [], out, _, h => by
    cases h
    exact ⟨rfl, .nil⟩
  | .comment c :: hs, out, ⟨_, hhs⟩, h => by
    simp only [attachHandlers, bind_eq_ok_iff] at h
    obtain ⟨rest, hrest, h⟩ := h
    cases h
    obtain ⟨hmapped, hblocks⟩ := kept_of_attachHandlers hs rest hhs hrest
    exact ⟨congrArg (Handler.comment c :: ·) hmapped, hblocks⟩
  | .handler span type name body :: hs, out, ⟨⟨_, hb⟩, hhs⟩, h => by
    simp only [attachHandlers, bind_eq_ok_iff] at h
    obtain ⟨inner, hinner, body', hbody, rest, hrest, h⟩ := h
    cases h
    obtain ⟨hitems, hblocks⟩ := kept_block (settled_of_attachStmts body inner hb hinner)
      (ready_of_attachStmts body inner hb hinner).2 hbody
    obtain ⟨hmapped, hblocksRest⟩ := kept_of_attachHandlers hs rest hhs hrest
    exact ⟨congrArg₂ (Handler.handler span type name · :: ·) hitems hmapped, List.rel_append hblocks hblocksRest⟩
termination_by structural hs => hs

theorem kept_of_attachCases {k : Comment → Prop} :
    (cs out : List Case) → casesObey (Comments.commented k) cs → attachCases cs = .ok out →
    mapCases (.each Stmt.opened) out = mapCases (.each Stmt.unlessDirective) cs ∧
      List.Forall₂ Kept (casesBlocks cs) (casesBlocks out)
  | [], out, _, h => by
    cases h
    exact ⟨rfl, .nil⟩
  | .comment c :: cs, out, ⟨_, hcs⟩, h => by
    simp only [attachCases, bind_eq_ok_iff] at h
    obtain ⟨rest, hrest, h⟩ := h
    cases h
    obtain ⟨hmapped, hblocks⟩ := kept_of_attachCases cs rest hcs hrest
    exact ⟨congrArg (Case.comment c :: ·) hmapped, hblocks⟩
  | .case lines pattern guard body :: cs, out, ⟨⟨_, hb⟩, hcs⟩, h => by
    simp only [attachCases, bind_eq_ok_iff] at h
    obtain ⟨inner, hinner, body', hbody, rest, hrest, h⟩ := h
    cases h
    obtain ⟨hitems, hblocks⟩ := kept_block (settled_of_attachStmts body inner hb hinner)
      (ready_of_attachStmts body inner hb hinner).2 hbody
    obtain ⟨hmapped, hblocksRest⟩ := kept_of_attachCases cs rest hcs hrest
    exact ⟨congrArg₂ (Case.case lines pattern guard · :: ·) hitems hmapped, List.rel_append hblocks hblocksRest⟩
termination_by structural cs => cs

end

end Directive

/-- Whatever a text is, putting its directives into effect loses nothing of any block and duplicates nothing. -/
theorem kept_of_attachBody {file source : String} {body out : List Stmt}
    (hread : readAnnotated file source.toList = .ok body) (h : attachBody body = .ok out) :
    List.Forall₂ Kept (body :: stmtsBlocks body) (out :: stmtsBlocks out) := by
  have hcommented := obeys_of_readAnnotated hread
  obtain ⟨inner, hinner, hgroup⟩ := bind_eq_ok_iff.1 h
  exact (kept_block (settled_of_attachStmts body inner hcommented hinner)
    (ready_of_attachStmts body inner hcommented hinner).2 hgroup).2

/-- A module in a module, with a tag on each. -/
def nestedModules : String :=
  "# amphi: asynchronous\n# amphi-begin: m\n# amphi: blocking\n# amphi-mod: n\npass\n# amphi-end: m\n"

def nestedRemarks : List Comment :=
  [⟨"# amphi: asynchronous", false, ⟨some 1, some 0, some 1, some 21⟩⟩,
   ⟨"# amphi-begin: m", false, ⟨some 2, some 0, some 2, some 16⟩⟩,
   ⟨"# amphi: blocking", false, ⟨some 3, some 0, some 3, some 17⟩⟩,
   ⟨"# amphi-mod: n", false, ⟨some 4, some 0, some 4, some 14⟩⟩,
   ⟨"# amphi-end: m", false, ⟨some 6, some 0, some 6, some 14⟩⟩]

/-- The text before its directives take effect. -/
def nestedRead : List Stmt :=
  (nestedRemarks.take 4).map .comment ++ [.pass ⟨some 5, some 0, some 5, some 4⟩] ++ (nestedRemarks.drop 4).map .comment

set_option maxRecDepth 4096 in
theorem readAnnotated_nestedModules : readAnnotated "m.py" nestedModules.toList = .ok nestedRead := by
  have hparse : Grammar.parse nestedModules.toList = some [.pass ⟨some 5, some 0, some 5, some 4⟩] := by decide +kernel
  have hscan : Comments.scan nestedModules.toList = .ok nestedRemarks := by decide +kernel
  have hattach : Comments.attach nestedModules.toList nestedRemarks [.pass ⟨some 5, some 0, some 5, some 4⟩] =
      .ok nestedRead := by cbv
  exact readAnnotated_of_parse _ (by decide) hparse hscan hattach

theorem kept_of_attachBody_nestedModules : ∃ body out, readAnnotated "m.py" nestedModules.toList = .ok body ∧
    attachBody body = .ok out ∧ List.Forall₂ Kept (body :: stmtsBlocks body) (out :: stmtsBlocks out) ∧
    (stmtsCarriers out).map (fun p => p.2.map Tag.argument) = [["asynchronous"], ["blocking"], []] := by
  have h : (attachBody nestedRead >>= fun out => .ok ((stmtsCarriers out).map fun p => p.2.map Tag.argument)) =
      .ok [["asynchronous"], ["blocking"], []] := by decide +kernel
  obtain ⟨out, hattach, htags⟩ := bind_eq_ok_iff.1 h
  exact ⟨nestedRead, out, readAnnotated_nestedModules, hattach,
    kept_of_attachBody readAnnotated_nestedModules hattach, Except.ok.inj htags⟩

end TwinModule
