import Mathlib
import TwinModule.Proofs.Tree.Listed
import TwinModule.Proofs.Tree.Outlined
/-!
What is compiled. A tree of which any statements were taken out, with comments wherever there is a list, comes out
without comments and with a statement in every block that needs one, and all that was in it besides the comments is
still there.
-/
set_option autoImplicit false

namespace TwinModule

theorem Span.knownIn_orElse (s outer : Span) : s.KnownIn (s.orElse outer) := by
  simp +contextual [Span.KnownIn, Span.orElse]

namespace Outline

/-- A file with nodes of the language, and comments in any lists. -/
def isModule (o : Outline) : Bool := o.kindName == "Module" && o.every isRegular

/-- An outline without comments, every block having what it needs and every node a place. -/
def compiled (outer : Span) (o : Outline) : Outline := ((o.mapLists bared).mapLists filled).located outer

def compilable (o : Outline) : Outline := o.compiled Span.origin

/-- Whether a block of a node must not be without statements. -/
def needsStatement (owner : Outline) (name : String) (items : List Outline) : Bool :=
  name == "body" && owner.kindName != "Module" || (name == "orelse" || name == "finalbody") && !items.isEmpty ||
    name == "finalbody" && owner.isBareTry

/-- There is a statement in each block of the node that needs one. -/
def isFilled (o : Outline) : Bool :=
  o.parts.all fun part => !(part.2.isList && needsStatement o part.1 part.2.items) || part.2.items.any isStatement

/-- A `try` for exception groups has a handler, which is more than a comment. -/
def isHandled (o : Outline) : Bool :=
  o.kindName != "TryStar" || o.parts.any fun part => part.1 == "handlers" && part.2.items.any fun o => !o.isComment

/-- All that is in the one outline is in the other, in the same order and with what is known of its place, but for the
comments in lists. Besides that there is at most a `pass` at the end of a list. -/
inductive KeptIn : Outline → Outline → Prop
  | data {o : Outline} (hn : o.isNode = false) (hl : o.isList = false) : KeptIn o o
  | list {items kept added : List Outline} (each : List.Forall₂ KeptIn (items.filter fun o => !o.isComment) kept)
      (more : added = [] ∨ ∃ place, added = [node "Pass" place [] []]) : KeptIn (list items) (list (kept ++ added))
  | node {kind : String} {place place' : Option Span} {tags : List Tag} {parts parts' : List (String × Outline)}
      (known : Option.Rel Span.KnownIn place place') (names : parts'.map Prod.fst = parts.map Prod.fst)
      (each : List.Forall₂ KeptIn (parts.map Prod.snd) (parts'.map Prod.snd)) :
      KeptIn (node kind place tags parts) (node kind place' tags parts')

section

variable {outer : Span}

@[simp] theorem kindName_compiled (o : Outline) : (o.compiled outer).kindName = o.kindName := by
  rw [compiled, kindName_located, kindName_mapLists, kindName_mapLists]

@[simp] theorem isComment_compiled (o : Outline) : (o.compiled outer).isComment = o.isComment := by
  rw [isComment, isComment, kindName_compiled]

@[simp] theorem isStatement_compiled (o : Outline) : (o.compiled outer).isStatement = o.isStatement := by
  rw [isStatement, isStatement, kindName_compiled]

theorem kindName_of_not_isNode {o : Outline} (h : o.isNode = false) : o.kindName = "" := by
  cases o with
  | node => cases h
  | _ => rfl

theorem parts_of_not_isNode {o : Outline} (h : o.isNode = false) : o.parts = [] := by
  cases o with
  | node => cases h
  | _ => rfl

theorem not_isComment_of_isStatement {o : Outline} (h : o.isStatement = true) : o.isComment = false := by
  cases hc : o.isComment with
  | false => rfl
  | true =>
    rw [isComment, beq_iff_eq] at hc
    rw [isStatement, hc] at h
    exact absurd h (by decide)

theorem any_isStatement_filter (items : List Outline) :
    (items.filter fun o => !o.isComment).any isStatement = items.any isStatement := by
  rw [Bool.eq_iff_iff, List.any_eq_true, List.any_eq_true]
  constructor
  · rintro ⟨o, ho, hs⟩
    exact ⟨o, (List.mem_filter.mp ho).1, hs⟩
  · rintro ⟨o, ho, hs⟩
    exact ⟨o, List.mem_filter.mpr ⟨ho, by simp [not_isComment_of_isStatement hs]⟩, hs⟩

/-- What becomes of the part of a node. -/
def compiledPart (outer : Span) (owner : Outline) (name : String) : Outline → Outline
  | list items => list ((items.filter fun o => !o.isComment).map (compiled outer) ++
      (added (owner.mapLists bared) name items).map (located outer))
  | o => o.compiled outer

theorem filter_mapLists {f : ListMap} (items : List Outline) :
    (items.map (mapLists f)).filter (fun o => !o.isComment) =
      (items.filter fun o => !o.isComment).map (mapLists f) := by
  simp only [List.filter_map, Function.comp_def, isComment, kindName_mapLists]

theorem any_isStatement_mapLists {f : ListMap} (items : List Outline) :
    (items.map (mapLists f)).any isStatement = items.any isStatement := by
  rw [List.any_map]
  exact congrArg items.any (funext fun o => by simp [isStatement])

theorem compiledPart_eq (owner : Outline) (name : String) (o : Outline) :
    (rewritten filled (owner.mapLists bared) name
      ((rewritten bared owner name (o.mapLists bared)).mapLists filled)).located outer =
      compiledPart outer owner name o := by
  cases o with
  | list items =>
    have hany : added (owner.mapLists bared) name
        (((items.filter fun o => !o.isComment).map (mapLists bared)).map (mapLists filled)) =
          added (owner.mapLists bared) name items := by
      rw [added, any_isStatement_mapLists, any_isStatement_mapLists, any_isStatement_filter, added]
    rw [mapLists_list, rewritten, bared, filter_mapLists, mapLists_list, rewritten, filled, hany, located_list]
    simp only [List.map_append, List.map_map, compiledPart]
    rfl
  | _ => rfl

theorem compiled_node (kind : String) (place : Option Span) (tags : List Tag) (parts : List (String × Outline)) :
    (node kind place tags parts).compiled outer = node kind (place.map fun s => s.orElse outer) tags
      (parts.map fun part => (part.1,
        compiledPart ((place.map fun s => s.orElse outer).getD outer) (node kind place tags parts) part.1 part.2)) := by
  rw [compiled, mapLists_node, mapLists_node, located_node, List.map_map, List.map_map]
  congr 1
  refine List.map_congr_left fun part _ => ?_
  simp only [Function.comp_apply, ← compiledPart_eq, mapLists_node]

/-- What is added to a list, once it has a place. -/
theorem located_added (outer : Span) (owner : Outline) (name : String) (items : List Outline) :
    (added owner name items).map (located outer) = [] ∨
      ∃ span, (added owner name items).map (located outer) = [node "Pass" (some span) [] []] := by
  unfold added filler?
  split
  · exact .inl rfl
  · split
    · exact .inr ⟨_, rfl⟩
    · exact .inl rfl

theorem eq_pass_of_mem_located_added {owner : Outline} {name : String} {items : List Outline} {o : Outline}
    (h : o ∈ (added owner name items).map (located outer)) : ∃ span, o = node "Pass" (some span) [] [] := by
  obtain hnil | ⟨span, hpass⟩ := located_added outer owner name items
  · rw [hnil] at h
    cases h
  · rw [hpass, List.mem_singleton] at h
    exact ⟨span, h⟩

/-- Induction on what nodes and data there are in an outline without lists in lists, with all that the lists of a node
hold. -/
@[elab_as_elim]
theorem flat_induction {r : Outline → Bool} (hr : ∀ items, r (list items) = true → ∀ o ∈ items, o.isList = false)
    {motive : Outline → Prop}
    (data : ∀ o : Outline, o.isNode = false → o.isList = false → motive o)
    (node : ∀ kind place tags parts, r (node kind place tags parts) = true →
      (∀ part ∈ parts, part.2.isList = false → motive part.2) → (∀ part ∈ parts, ∀ o ∈ part.2.items, motive o) →
        motive (node kind place tags parts))
    (o : Outline) (h : o.every r = true) (hl : o.isList = false) : motive o := by
  suffices hm : (o.isList = false → motive o) ∧ ∀ item ∈ o.items, motive item from hm.1 hl
  clear hl
  induction o using Outline.induction with
  | list items ih =>
    obtain ⟨hlist, hitems⟩ := (every_list items).mp h
    exact ⟨nofun, fun o ho => (ih o ho (hitems o ho)).1 (hr items hlist o ho)⟩
  | node kind place tags parts ih =>
    obtain ⟨hnode, hparts⟩ := (every_node ..).mp h
    refine ⟨fun _ => node kind place tags parts hnode (fun part hp => (ih part hp (hparts part hp)).1)
      fun part hp => (ih part hp (hparts part hp)).2, ?_⟩
    simp [items]
  | _ => exact ⟨fun _ => data _ rfl rfl, by simp [items]⟩

theorem not_isList_of_isRegular (items : List Outline) (h : (list items).isRegular = true) :
    ∀ o ∈ items, o.isList = false := by
  simpa [isRegular] using h

/-- Everything in what is compiled is such if what becomes of each node is, and whatever is no node, and a `pass`. -/
theorem every_compiled {r q : Outline → Bool} (hr : ∀ o, r o = true → o.isRegular = true)
    (hdata : ∀ o : Outline, o.isNode = false → q o = true)
    (hpass : ∀ span, q (node "Pass" (some span) [] []) = true)
    (hnode : ∀ (outer : Span) (o : Outline), o.isNode = true → r o = true → o.isComment = false →
      q (o.compiled outer) = true)
    (o : Outline) (h : o.every r = true) (hl : o.isList = false) :
    ∀ outer, o.isComment = false → (o.compiled outer).every q = true := by
  refine flat_induction (fun items h => not_isList_of_isRegular items (hr _ h)) ?data ?node o h hl
  case data =>
    intro o hn hl outer _
    cases o with
    | list => cases hl
    | node => cases hn
    | _ => exact hdata _ rfl
  case node =>
    intro kind place tags parts hown hparts hitems outer hc
    have hcompiled := hnode outer _ rfl hown hc
    rw [compiled_node] at hcompiled ⊢
    refine (every_node ..).mpr ⟨hcompiled, fun part' hp' => ?_⟩
    obtain ⟨⟨name, o⟩, hp, rfl⟩ := List.mem_map.mp hp'
    cases o with
    | list items =>
      refine (every_list _).mpr ⟨hdata _ rfl, fun o' ho' => ?_⟩
      obtain hkept | hadded := List.mem_append.mp ho'
      · obtain ⟨o, ho, rfl⟩ := List.mem_map.mp hkept
        obtain ⟨ho, hoc⟩ := List.mem_filter.mp ho
        exact hitems _ hp o ho _ (by simpa using hoc)
      · obtain ⟨span, rfl⟩ := eq_pass_of_mem_located_added hadded
        simpa using hpass span
    | _ =>
      exact hparts _ hp rfl ((place.map fun s => s.orElse outer).getD outer) (isRegular_node.mp (hr _ hown) _ hp).1

theorem lookup_map_snd {α β : Type} (g : String → α → β) (parts : List (String × α)) (name : String) :
    (parts.map fun part => (part.1, g part.1 part.2)).lookup name = (parts.lookup name).map (g name) := by
  induction parts with
  | nil => rfl
  | cons part parts ih =>
    obtain ⟨key, a⟩ := part
    by_cases h : name = key
    · subst h
      simp
    · have hne : (name == key) = false := by simpa using h
      simp [List.lookup, hne, ih]

/-- Whether a `try` is without handlers is settled when comments are out. -/
theorem isBareTry_compiled (outer : Span) (o : Outline) :
    (o.compiled outer).isBareTry = (o.mapLists bared).isBareTry := by
  cases o with
  | node kind place tags parts =>
    have hcompiled := lookup_map_snd (compiledPart ((place.map fun s => s.orElse outer).getD outer)
      (node kind place tags parts)) parts "handlers"
    have hbared := lookup_map_snd (fun name o => rewritten bared (node kind place tags parts) name (o.mapLists bared))
      parts "handlers"
    rw [compiled_node, mapLists_node]
    simp only [isBareTry, kindName, Outline.parts, hcompiled, hbared]
    cases parts.lookup "handlers" with
    | none => rfl
    | some o =>
      cases o with
      | list items =>
        simp only [Option.map_some, compiledPart, added_of_name _ (show "handlers" ∉ blockNames by decide),
          List.map_nil, List.append_nil, mapLists_list, rewritten, bared, filter_mapLists]
        cases items.filter fun o => !o.isComment <;> rfl
      | _ => rfl
  | _ => rfl

/-- A block holds nothing but statements in the end. -/
theorem isStatement_of_mem_compiledPart {owner : Outline} {name : String} {items : List Outline}
    (hblock : ∀ o ∈ items, o.isStatement = true ∨ o.isComment = true) {o' : Outline}
    (h : o' ∈ (compiledPart outer owner name (list items)).items) : o'.isStatement = true := by
  obtain hkept | hadded := List.mem_append.mp h
  · obtain ⟨o, ho, rfl⟩ := List.mem_map.mp hkept
    obtain ⟨ho, hc⟩ := List.mem_filter.mp ho
    rw [isStatement_compiled]
    exact (hblock o ho).resolve_right (by simpa using hc)
  · obtain ⟨span, rfl⟩ := eq_pass_of_mem_located_added hadded
    rfl

theorem any_isStatement_of_filler {owner : Outline} {name : String}
    (h : filler? (owner.mapLists bared) name ≠ none) (items : List Outline) :
    (compiledPart outer owner name (list items)).items.any isStatement = true := by
  have hkept : ((items.filter fun o => !o.isComment).map (compiled outer)).any isStatement = items.any isStatement := by
    rw [List.any_map, ← any_isStatement_filter]
    exact congrArg (List.any _) (funext fun o => isStatement_compiled o)
  simp only [compiledPart, Outline.items, List.any_append, hkept, added]
  cases items.any isStatement with
  | true => rfl
  | false =>
    unfold filler? at h ⊢
    split at h
    · rename_i hneeds
      simp only [hneeds, if_true]
      rfl
    · exact absurd rfl h

theorem filler?_of_needsStatement {owner owner' : Outline} (hkind : owner'.kindName = owner.kindName)
    (hbare : owner'.isBareTry = owner.isBareTry) {name : String} {items : List Outline}
    (h : needsStatement owner' name items = true) :
    filler? owner name ≠ none ∨ name ∈ blockNames ∧ items ≠ [] := by
  simp only [needsStatement, hkind, hbare, Bool.or_eq_true, Bool.and_eq_true, beq_iff_eq, bne_iff_ne,
    Bool.not_eq_true', List.isEmpty_eq_false_iff] at h
  obtain (⟨rfl, hfile⟩ | ⟨rfl | rfl, hne⟩) | ⟨rfl, htry⟩ := h
  · exact .inl (by simp [filler?, hfile])
  · exact .inr ⟨by decide, hne⟩
  · exact .inr ⟨by decide, hne⟩
  · exact .inl (by simp [filler?, htry])

/-- In each block of a node that must not be without statements there is one in the end. -/
theorem isFilled_compiled (o : Outline) (hn : o.isNode = true) (hr : o.isRegular = true) :
    (o.compiled outer).isFilled = true := by
  have hkind : (o.compiled outer).kindName = (o.mapLists bared).kindName := by simp
  have hbare := isBareTry_compiled outer o
  cases o with
  | node kind place tags parts =>
    rw [isFilled, List.all_eq_true]
    rw [compiled_node] at hkind hbare ⊢
    intro part' hp'
    obtain ⟨⟨name, o⟩, hp, rfl⟩ := List.mem_map.mp hp'
    cases o with
    | list items =>
      rw [Bool.or_eq_true, Bool.not_eq_true', Bool.and_eq_false_iff, or_iff_not_imp_left]
      intro hneeds
      rw [not_or, Bool.not_eq_false, Bool.not_eq_false] at hneeds
      obtain hf | ⟨hname, hne⟩ := filler?_of_needsStatement hkind hbare hneeds.2
      · exact any_isStatement_of_filler hf items
      · obtain ⟨o', ho'⟩ := List.exists_mem_of_ne_nil _ hne
        have hblock := ((isRegular_node.mp hr _ hp).2 hname rfl).2
        exact List.any_eq_true.mpr ⟨o', ho', isStatement_of_mem_compiledPart hblock ho'⟩
    | _ => rfl
  | _ => cases hn

theorem isHandled_compiled (o : Outline) (hn : o.isNode = true) (h : o.isHandled = true) :
    (o.compiled outer).isHandled = true := by
  cases o with
  | node kind place tags parts =>
    rw [compiled_node]
    simp only [isHandled, Outline.parts, kindName, Bool.or_eq_true, List.any_eq_true, Bool.and_eq_true] at h ⊢
    obtain hkind | ⟨⟨name, o⟩, hp, hname, item, hitem, hc⟩ := h
    · exact .inl hkind
    · refine .inr ⟨_, List.mem_map_of_mem hp, hname,
        item.compiled ((place.map fun s => s.orElse outer).getD outer), ?_, by simpa using hc⟩
      cases o with
      | list items => exact List.mem_append_left _ (List.mem_map_of_mem (List.mem_filter.mpr ⟨hitem, hc⟩))
      | _ => cases hitem
  | _ => cases hn

theorem keptIn_compiled (o : Outline) (h : o.every isRegular = true) (hl : o.isList = false) :
    ∀ outer, o.KeptIn (o.compiled outer) := by
  refine flat_induction not_isList_of_isRegular ?data ?node o h hl
  case data =>
    intro o hn hl outer
    cases o with
    | list => cases hl
    | node => cases hn
    | _ => exact .data rfl rfl
  case node =>
    intro kind place tags parts hown hparts hitems outer
    rw [compiled_node]
    refine .node ?known ?names ?each
    case known =>
      cases place with
      | none => exact .none
      | some s => exact .some (s.knownIn_orElse outer)
    case names => simp [Function.comp_def]
    case each =>
      rw [List.map_map, List.forall₂_map_left_iff, List.forall₂_map_right_iff, List.forall₂_same]
      rintro ⟨name, o⟩ hp
      cases o with
      | list items =>
        refine .list ?_ ?_
        · rw [List.forall₂_map_right_iff, List.forall₂_same]
          exact fun o ho => hitems _ hp o (List.mem_filter.mp ho).1 _
        · exact (located_added ..).imp_right fun ⟨span, h⟩ => ⟨some span, h⟩
      | _ => exact hparts _ hp rfl ((place.map fun s => s.orElse outer).getD outer)

theorem isList_mapLists {f : ListMap} (o : Outline) : (o.mapLists f).isList = o.isList := by
  cases o <;> rfl

section

variable {f : ListMap}

theorem every_isRegular_rewritten (hf : ∀ owner name items, f owner name items ⊆ items) (owner : Outline)
    (name : String) (o : Outline) (h : o.every isRegular = true) :
    (rewritten f owner name o).every isRegular = true := by
  cases o with
  | list items =>
    obtain ⟨hlist, hitems⟩ := (every_list items).mp h
    have hsub := hf owner name items
    refine (every_list _).mpr ⟨List.all_eq_true.mpr fun o ho => ?_, fun o ho => hitems o (hsub ho)⟩
    exact List.all_eq_true.mp hlist o (hsub ho)
  | _ => exact h

/-- Taking items out of lists leaves a regular tree regular. -/
theorem every_isRegular_mapLists (hf : ∀ owner name items, f owner name items ⊆ items) (o : Outline)
    (h : o.every isRegular = true) : (o.mapLists f).every isRegular = true := by
  induction o using Outline.induction with
  | list items ih =>
    obtain ⟨hlist, hitems⟩ := (every_list items).mp h
    rw [mapLists_list]
    refine (every_list _).mpr ⟨?_, ?_⟩
    · rw [isRegular, List.all_map]
      exact List.all_eq_true.mpr fun o ho => by simpa [isList_mapLists] using List.all_eq_true.mp hlist o ho
    · intro o' ho'
      obtain ⟨o, ho, rfl⟩ := List.mem_map.mp ho'
      exact ih o ho (hitems o ho)
  | node kind place tags parts ih =>
    obtain ⟨hnode, hparts⟩ := (every_node ..).mp h
    rw [mapLists_node]
    refine (every_node ..).mpr ⟨isRegular_node.mpr ?_, ?_⟩
    · rintro _ hp'
      obtain ⟨⟨name, o⟩, hp, rfl⟩ := List.mem_map.mp hp'
      obtain ⟨hc, hblock⟩ := isRegular_node.mp hnode _ hp
      refine ⟨by simpa [isComment] using hc, fun hname hl => ?_⟩
      cases o with
      | list items =>
        refine ⟨(hblock hname rfl).1, fun o' ho' => ?_⟩
        rw [mapLists_list] at ho'
        obtain ⟨o, ho, rfl⟩ := List.mem_map.mp (hf _ _ _ ho')
        simpa [isStatement, isComment] using (hblock hname rfl).2 o ho
      | _ => cases hl
    · rintro _ hp'
      obtain ⟨part, hp, rfl⟩ := List.mem_map.mp hp'
      exact every_isRegular_rewritten hf _ _ _ (ih part hp (hparts part hp))
  | _ => rfl

end

end

end Outline

open Outline

/-- What is compiled of a tree is told by its outline. -/
theorem Tree.outline_compilable (t : Tree) (h : t.outline.every isRegular = true) :
    t.compilable.outline = t.outline.compilable := by
  have hstrip : t.strip.outline = t.outline.mapLists bared := Tree.outline_mapBlocks draws_strip t h
  have hpad : t.strip.pad.outline = t.strip.outline.mapLists filled :=
    Tree.outline_mapBlocks draws_pad t.strip (by
      rw [hstrip]
      exact every_isRegular_mapLists (fun _ _ _ => List.filter_sublist.subset) _ h)
  rw [Tree.compilable, Tree.outline_locate, hpad, hstrip]
  rfl

/-- Of a file with any statements taken out and comments in any of its lists, what is compiled has no comments, has all
else that was there, adds nothing but `pass`, and has a statement in every block that needs one. A `try` for exception
groups cannot be without handlers, and one that has a handler keeps it. -/
theorem compilable_shape (o : Outline) (h : o.isModule = true) :
    (o.compilable.every fun n => !n.isComment) = true ∧ o.KeptIn o.compilable ∧
      o.compilable.every isFilled = true ∧
      (o.every isHandled = true → o.compilable.every isHandled = true) ∧
      ∀ t : Tree, t.outline = o → t.compilable.outline = o.compilable := by
  obtain ⟨hkind, hregular⟩ := Bool.and_eq_true_iff.mp h
  rw [beq_iff_eq] at hkind
  have hl : o.isList = false := by
    cases o with
    | list => simp [kindName] at hkind
    | _ => rfl
  have hc : o.isComment = false := by simp [isComment, hkind]
  refine ⟨?bare, keptIn_compiled o hregular hl _, ?filled, fun hhandled => ?handled, ?_⟩
  case bare =>
    refine every_compiled (fun _ h => h) ?_ (fun _ => rfl) (fun outer o _ _ hc => ?_) o hregular hl _ hc
    · exact fun o hn => by simp [isComment, kindName_of_not_isNode hn]
    · simpa using hc
  case filled =>
    refine every_compiled (fun _ h => h) ?_ (fun _ => rfl) (fun outer o hn hr _ => ?_) o hregular hl _ hc
    · exact fun o hn => by simp [isFilled, parts_of_not_isNode hn]
    · exact isFilled_compiled o hn hr
  case handled =>
    refine every_compiled (r := fun o => o.isRegular && o.isHandled) (fun _ h => ?_) ?_ (fun _ => rfl)
      (fun outer o hn hr _ => ?_) o (every_and hregular hhandled) hl _ hc
    · exact (Bool.and_eq_true_iff.mp h).1
    · exact fun o hn => by simp [isHandled, kindName_of_not_isNode hn]
    · exact isHandled_compiled o hn (Bool.and_eq_true_iff.mp hr).2
  · rintro t rfl
    exact t.outline_compilable hregular

/-- A function and a `try` of which all statements were taken out, with comments left in their blocks, among the
decorators and in the place of handlers. -/
def emptiedFile : Outline :=
  let note := node "Comment" none [] [("value", text "# note"), ("inline", flag false)]
  Outline.inner "Module" [("body", list [
    node "FunctionDef" (some ⟨some 3, some 0, some 5, some 8⟩) []
      [("name", text "f"), ("body", list [note]), ("decorator_list", list [note])],
    node "Try" none []
      [("body", list []), ("handlers", list [note]), ("orelse", list [note]), ("finalbody", list [note])]]),
    ("type_ignores", list [])]

theorem compilable_shape_emptied :
    emptiedFile.isModule = true ∧ (emptiedFile.compilable.every fun n => !n.isComment) = true ∧
      emptiedFile.KeptIn emptiedFile.compilable ∧ emptiedFile.compilable.every isFilled = true := by
  have hmodule : emptiedFile.isModule = true := by decide
  obtain ⟨hbare, hkept, hfilled, -, -⟩ := compilable_shape emptiedFile hmodule
  exact ⟨hmodule, hbare, hkept, hfilled⟩

end TwinModule
