import TwinModule.Proofs.Tree.Compilable
import TwinModule.Proofs.Tree.Replaced
/-!
What is left of a tree with erased statements. One walk takes them out of the blocks and the next one fills the blocks
that need a statement and have none left. Nothing else is lost or moved, and when both are done once more nothing
changes.
-/
set_option autoImplicit false

namespace TwinModule

namespace Outline

def isErased (o : Outline) : Bool := o.kindName == "Erased"

/-- Without erased statements in blocks. -/
def dropped : ListMap := fun _ name items =>
  if name ∈ blockNames then items.filter fun o => !o.isErased else items

theorem isSteady_dropped : IsSteady dropped where
  block _ _ _ hname := if_neg hname
  alike _ _ _ := rfl

theorem Alike.added {owner owner' : Outline} (h : owner.Alike owner') (name : String) (items : List Outline) :
    added owner name items = added owner' name items := by
  simp only [Outline.added, filler?, h.kind, h.place, h.bare]

theorem isSteady_filled : IsSteady filled where
  block owner _ items hname := filled_of_name owner hname items
  alike h name items := by rw [filled, filled, h.added]

end Outline

open Outline

namespace Rewriter

/-- Takes the erased statements out of blocks. -/
def dropErased : Rewriter Unit where
  judge o := pure (.one o)
  statements _ _ items := pure (items.filter fun o => !o.isErased)
  others _ _ items := pure items

/-- Puts a statement in each block that needs one. -/
def pad : Rewriter Unit where
  judge o := pure (.one o)
  statements owner name items := pure (filled owner name.field items)
  others _ _ items := pure items

theorem replaces_dropErased : dropErased.Replaces dropped where
  judge _ _ := rfl
  rewrite owner name items s := by
    rw [rewrite_eq, dropped]
    split
    · rfl
    · rfl

theorem replaces_pad : pad.Replaces filled where
  judge _ _ := rfl
  rewrite owner name items s := by
    rw [rewrite_eq]
    split
    · rfl
    · next hname => exact (filled_of_name owner hname items).symm

end Rewriter

namespace Outline

/-- The tree after a walk. -/
def after (r : Rewriter Unit) (o : Outline) : Outline := (r.visit [] o ()).1.1.1

/-- The tree without erased statements, every block having what it needs. -/
def finalized (o : Outline) : Outline := (o.after .dropErased).after .pad

/-- Among the parts of a node and in its lists there are erased statements only in blocks. -/
def erasesInBlocks : Outline → Bool
  | node _ _ _ parts => parts.all fun part =>
    !part.2.isErased && (blockNames.contains part.1 || part.2.items.all fun o => !o.isErased)
  | _ => true

/-- A tree in which all erased statements are items of blocks. -/
def isErasable (o : Outline) : Bool :=
  o.isNode && !o.isErased && o.every isFlat && o.every erasesInBlocks

mutual

/-- The one tree is the other without its erased statements, where blocks have got what they need. -/
inductive Tidied : Outline → Outline → Prop
  | data {o : Outline} (hn : o.isNode = false) (hl : o.isList = false) : Tidied o o
  | node {kind : String} {place : Option Span} {tags : List Tag} {parts parts' : List (String × Outline)}
      (each : PartsTidied (node kind place tags parts) parts parts') :
      Tidied (node kind place tags parts) (node kind place tags parts')

inductive PartsTidied : Outline → List (String × Outline) → List (String × Outline) → Prop
  | nil {owner : Outline} : PartsTidied owner [] []
  | list {owner : Outline} {name : String} {items kept : List Outline} {rest rest' : List (String × Outline)}
      (each : ItemsTidied items kept) (others : PartsTidied owner rest rest') :
      PartsTidied owner ((name, list items) :: rest) ((name, list (kept ++ added owner name kept)) :: rest')
  | single {owner : Outline} {name : String} {o o' : Outline} {rest rest' : List (String × Outline)}
      (one : Tidied o o') (others : PartsTidied owner rest rest') :
      PartsTidied owner ((name, o) :: rest) ((name, o') :: rest')

inductive ItemsTidied : List Outline → List Outline → Prop
  | nil : ItemsTidied [] []
  | drop {o : Outline} {items kept : List Outline} (erased : o.isErased = true) (others : ItemsTidied items kept) :
      ItemsTidied (o :: items) kept
  | keep {o o' : Outline} {items kept : List Outline} (real : o.isErased = false) (one : Tidied o o')
      (others : ItemsTidied items kept) : ItemsTidied (o :: items) (o' :: kept)

end

theorem after_eq {r : Rewriter Unit} {f : ListMap} (hr : r.Replaces f) (hf : IsSteady f) {o : Outline}
    (hflat : o.every isFlat = true) (hl : o.isList = false) : o.after r = o.mapLists f :=
  congrArg Prod.fst (hr.visit hf [] o hflat hl ())

theorem isErased_mapLists {f : ListMap} (o : Outline) : (o.mapLists f).isErased = o.isErased := by
  rw [isErased, isErased, kindName_mapLists]

theorem filler?_cases (owner : Outline) (name : String) :
    filler? owner name = none ∨ ∃ span, filler? owner name = some (node "Pass" (some span) [] []) := by
  unfold filler?
  split
  · exact .inr ⟨_, rfl⟩
  · exact .inl rfl

theorem eq_pass_of_mem_added {owner : Outline} {name : String} {items : List Outline} {o : Outline}
    (h : o ∈ added owner name items) : ∃ span, o = node "Pass" (some span) [] [] := by
  unfold added at h
  obtain hnone | ⟨span, hpass⟩ := filler?_cases owner name
  · simp [hnone] at h
  · rw [hpass] at h
    split at h
    · cases h
    · exact ⟨span, List.mem_singleton.mp h⟩

theorem every_isFlat_mapLists {f : ListMap}
    (hf : ∀ owner name items, ∀ o ∈ f owner name items, o ∈ items ∨ ∃ span, o = node "Pass" (some span) [] [])
    (o : Outline) (h : o.every isFlat = true) : (o.mapLists f).every isFlat = true := by
  induction o using Outline.induction with
  | list items ih =>
    obtain ⟨hlist, hitems⟩ := (every_list items).mp h
    rw [mapLists_list]
    refine (every_list _).mpr ⟨List.all_eq_true.mpr ?_, ?_⟩
    · intro o' ho'
      obtain ⟨o, ho, rfl⟩ := List.mem_map.mp ho'
      simpa [isList_mapLists] using not_isList_of_isFlat items hlist o ho
    · intro o' ho'
      obtain ⟨o, ho, rfl⟩ := List.mem_map.mp ho'
      exact ih o ho (hitems o ho)
  | node kind place tags parts ih =>
    obtain ⟨-, hparts⟩ := (every_node ..).mp h
    rw [mapLists_node]
    refine (every_node ..).mpr ⟨rfl, ?_⟩
    rintro _ hp'
    obtain ⟨⟨name, o⟩, hp, rfl⟩ := List.mem_map.mp hp'
    have ho := ih _ hp (hparts _ hp)
    cases o with
    | list items =>
      rw [mapLists_list] at ho ⊢
      obtain ⟨hlist, hitems⟩ := (every_list _).mp ho
      refine (every_list _).mpr ⟨List.all_eq_true.mpr ?_, ?_⟩
      · intro o' ho'
        obtain ho' | ⟨span, rfl⟩ := hf _ _ _ _ ho'
        · exact List.all_eq_true.mp hlist o' ho'
        · rfl
      · intro o' ho'
        obtain ho' | ⟨span, rfl⟩ := hf _ _ _ _ ho'
        · exact hitems o' ho'
        · rfl
    | _ => exact ho
  | _ => rfl

theorem dropped_subset (owner : Outline) (name : String) (items : List Outline) :
    dropped owner name items ⊆ items := by
  unfold dropped
  split
  · exact List.filter_sublist.subset
  · exact List.Subset.refl _

theorem every_isFlat_dropped {o : Outline} (h : o.every isFlat = true) : (o.mapLists dropped).every isFlat = true :=
  every_isFlat_mapLists (fun owner name items _ ho => .inl (dropped_subset owner name items ho)) o h

theorem every_isFlat_filled {o : Outline} (h : o.every isFlat = true) : (o.mapLists filled).every isFlat = true := by
  refine every_isFlat_mapLists (fun owner name items o ho => ?_) o h
  exact (List.mem_append.mp ho).imp_right eq_pass_of_mem_added

/-- The same by passes over lists. -/
def tidied (o : Outline) : Outline := (o.mapLists dropped).mapLists filled

theorem finalized_eq {o : Outline} (hflat : o.every isFlat = true) (hl : o.isList = false) : o.finalized = o.tidied := by
  have hdropped := after_eq Rewriter.replaces_dropErased isSteady_dropped hflat hl
  rw [finalized, hdropped]
  exact after_eq Rewriter.replaces_pad isSteady_filled (every_isFlat_dropped hflat) (by rw [isList_mapLists, hl])

theorem every_isFlat_tidied {o : Outline} (hflat : o.every isFlat = true) : o.tidied.every isFlat = true :=
  every_isFlat_filled (every_isFlat_dropped hflat)

@[simp] theorem kindName_tidied (o : Outline) : o.tidied.kindName = o.kindName := by
  rw [tidied, kindName_mapLists, kindName_mapLists]

@[simp] theorem isErased_tidied (o : Outline) : o.tidied.isErased = o.isErased := by
  rw [tidied, isErased_mapLists, isErased_mapLists]

@[simp] theorem isStatement_tidied (o : Outline) : o.tidied.isStatement = o.isStatement := by
  rw [isStatement, isStatement, kindName_tidied]

theorem alike_tidied (o : Outline) : o.tidied.Alike o := by
  have hfilled := alike_mapLists isSteady_filled (o.mapLists dropped)
  have hdropped := alike_mapLists isSteady_dropped o
  exact ⟨hfilled.kind.trans hdropped.kind, hfilled.place.trans hdropped.place, hfilled.bare.trans hdropped.bare⟩

/-- What becomes of the part of a node. -/
def tidiedPart (owner : Outline) (name : String) : Outline → Outline
  | list items => list ((dropped owner name items).map tidied ++ added owner name (dropped owner name items))
  | o => o.tidied

theorem dropped_mapLists {f : ListMap} (owner : Outline) (name : String) (items : List Outline) :
    dropped owner name (items.map (mapLists f)) = (dropped owner name items).map (mapLists f) := by
  unfold dropped
  split
  · simp only [List.filter_map, Function.comp_def, isErased_mapLists]
  · rfl

theorem tidiedPart_eq (owner : Outline) (name : String) (o : Outline) :
    rewritten filled (owner.mapLists dropped) name
      ((rewritten dropped owner name (o.mapLists dropped)).mapLists filled) = tidiedPart owner name o := by
  cases o with
  | list items =>
    have hadded : added (owner.mapLists dropped) name
        (((dropped owner name items).map (mapLists dropped)).map (mapLists filled)) =
          added owner name (dropped owner name items) := by
      rw [(alike_mapLists isSteady_dropped owner).added, added, any_isStatement_mapLists, any_isStatement_mapLists,
        added]
    rw [mapLists_list, rewritten, dropped_mapLists, mapLists_list, rewritten, filled, hadded, List.map_map, tidiedPart]
    rfl
  | _ => rfl

theorem tidied_node (kind : String) (place : Option Span) (tags : List Tag) (parts : List (String × Outline)) :
    (node kind place tags parts).tidied = node kind place tags
      (parts.map fun part => (part.1, tidiedPart (node kind place tags parts) part.1 part.2)) := by
  rw [tidied, mapLists_node, mapLists_node, List.map_map]
  congr 1
  refine List.map_congr_left fun part _ => ?_
  simp only [Function.comp_apply, ← tidiedPart_eq, mapLists_node]

theorem added_tidied (owner : Outline) (name : String) (items : List Outline) :
    added owner name (items.map tidied) = added owner name items := by
  have hany : (items.map tidied).any isStatement = items.any isStatement := by
    rw [List.any_map]
    exact congrArg items.any (funext isStatement_tidied)
  rw [added, hany, added]

/-- Where erased statements are only in blocks, all of them are taken out. -/
theorem dropped_eq_filter {owner : Outline} {name : String} {items : List Outline}
    (h : blockNames.contains name = true ∨ ∀ o ∈ items, o.isErased = false) :
    dropped owner name items = items.filter fun o => !o.isErased := by
  unfold dropped
  split
  · rfl
  · next hname =>
    obtain hblock | hitems := h
    · exact absurd (List.contains_iff_mem.mp hblock) hname
    · exact (List.filter_eq_self.mpr fun o ho => by simp [hitems o ho]).symm

theorem not_isErased_of_mem_dropped {owner : Outline} {name : String} {items : List Outline}
    (h : blockNames.contains name = true ∨ ∀ o ∈ items, o.isErased = false) :
    ∀ o ∈ dropped owner name items, o.isErased = false := by
  intro o ho
  rw [dropped_eq_filter h] at ho
  simpa using (List.mem_filter.mp ho).2

theorem dropped_eq_self {owner : Outline} {name : String} {items : List Outline}
    (h : blockNames.contains name = true → ∀ o ∈ items, o.isErased = false) : dropped owner name items = items := by
  unfold dropped
  split
  · next hname =>
    exact List.filter_eq_self.mpr fun o ho => by simp [h (List.contains_iff_mem.mpr hname) o ho]
  · rfl

theorem erasesInBlocks_node {kind : String} {place : Option Span} {tags : List Tag} {parts : List (String × Outline)} :
    (node kind place tags parts).erasesInBlocks = true ↔ ∀ part ∈ parts, part.2.isErased = false ∧
      (blockNames.contains part.1 = true ∨ ∀ o ∈ part.2.items, o.isErased = false) := by
  simp [erasesInBlocks, or_iff_not_imp_left]

theorem not_isList_of_both (items : List Outline)
    (h : ((list items).isFlat && (list items).erasesInBlocks) = true) : ∀ o ∈ items, o.isList = false :=
  not_isList_of_isFlat items (Bool.and_eq_true_iff.mp h).1

/-- Nothing erased is left. -/
theorem not_isErased_tidied (o : Outline) (hflat : o.every isFlat = true) (h : o.every erasesInBlocks = true)
    (hl : o.isList = false) : o.isErased = false → (o.tidied.every fun n => !n.isErased) = true := by
  refine flat_induction not_isList_of_both ?data ?node o (every_and hflat h) hl
  case data =>
    intro o hn hl _
    cases o with
    | list => cases hl
    | node => cases hn
    | _ => rfl
  case node =>
    intro kind place tags parts hown hparts hitems hreal
    have hplaces := erasesInBlocks_node.mp (Bool.and_eq_true_iff.mp hown).2
    have hroot : (node kind place tags parts).tidied.isErased = false := by rw [isErased_tidied, hreal]
    rw [tidied_node] at hroot ⊢
    refine (every_node ..).mpr ⟨by rw [hroot]; rfl, fun part' hp' => ?_⟩
    obtain ⟨⟨name, o⟩, hp, rfl⟩ := List.mem_map.mp hp'
    obtain ⟨hpart, hblock⟩ := hplaces _ hp
    cases o with
    | list items =>
      refine (every_list _).mpr ⟨rfl, fun o' ho' => ?_⟩
      obtain hkept | hadded := List.mem_append.mp ho'
      · obtain ⟨o, ho, rfl⟩ := List.mem_map.mp hkept
        exact hitems _ hp o (dropped_subset _ _ _ ho) (not_isErased_of_mem_dropped hblock o ho)
      · obtain ⟨span, rfl⟩ := eq_pass_of_mem_added hadded
        rfl
    | _ => exact hparts _ hp rfl hpart

theorem itemsTidied_map (items : List Outline) (h : ∀ o ∈ items, o.Tidied o.tidied) :
    ItemsTidied items ((items.filter fun o => !o.isErased).map tidied) := by
  induction items with
  | nil => exact .nil
  | cons o items ih =>
    obtain ⟨ho, hitems⟩ := List.forall_mem_cons.mp h
    cases he : o.isErased with
    | true =>
      rw [List.filter_cons_of_neg (by simp [he])]
      exact .drop he (ih hitems)
    | false =>
      rw [List.filter_cons_of_pos (by simp [he])]
      exact .keep he ho (ih hitems)

theorem itemsTidied_dropped {owner : Outline} {name : String} {items : List Outline}
    (hblock : blockNames.contains name = true ∨ ∀ o ∈ items, o.isErased = false)
    (h : ∀ o ∈ items, o.Tidied o.tidied) : ItemsTidied items ((dropped owner name items).map tidied) := by
  rw [dropped_eq_filter hblock]
  exact itemsTidied_map items h

theorem partsTidied_map (owner : Outline) (parts : List (String × Outline))
    (hplaces : ∀ part ∈ parts, blockNames.contains part.1 = true ∨ ∀ o ∈ part.2.items, o.isErased = false)
    (hparts : ∀ part ∈ parts, part.2.isList = false → part.2.Tidied part.2.tidied)
    (hitems : ∀ part ∈ parts, ∀ o ∈ part.2.items, o.Tidied o.tidied) :
    PartsTidied owner parts (parts.map fun part => (part.1, tidiedPart owner part.1 part.2)) := by
  induction parts with
  | nil => exact .nil
  | cons part parts ih =>
    obtain ⟨name, o⟩ := part
    obtain ⟨hplace, hplaces⟩ := List.forall_mem_cons.mp hplaces
    obtain ⟨hpart, hparts⟩ := List.forall_mem_cons.mp hparts
    obtain ⟨hitem, hitems⟩ := List.forall_mem_cons.mp hitems
    have hrest := ih hplaces hparts hitems
    cases o with
    | list items =>
      rw [List.map_cons, tidiedPart, ← added_tidied]
      exact .list (itemsTidied_dropped hplace hitem) hrest
    | _ => exact .single (hpart rfl) hrest

theorem tidied_tidied (o : Outline) (hflat : o.every isFlat = true) (h : o.every erasesInBlocks = true)
    (hl : o.isList = false) : o.Tidied o.tidied := by
  refine flat_induction not_isList_of_both ?data ?node o (every_and hflat h) hl
  case data =>
    intro o hn hl
    cases o with
    | list => cases hl
    | node => cases hn
    | _ => exact .data rfl rfl
  case node =>
    intro kind place tags parts hown hparts hitems
    have hplaces := erasesInBlocks_node.mp (Bool.and_eq_true_iff.mp hown).2
    rw [tidied_node]
    exact .node (partsTidied_map _ parts (fun part hp => (hplaces part hp).2) hparts hitems)

theorem added_filled (owner : Outline) (name : String) (items : List Outline) :
    added owner name (filled owner name items) = [] := by
  rw [filled, added, List.any_append, added]
  cases hany : items.any isStatement with
  | true => rfl
  | false =>
    obtain hnone | ⟨span, hpass⟩ := filler?_cases owner name
    · rw [hnone]
      rfl
    · rw [hpass]
      rfl

/-- Nothing is left to be dropped from a list, and nothing to be added to it. -/
theorem tidiedPart_idem {owner owner' : Outline} (halike : owner'.Alike owner) (name : String) (o : Outline)
    (hpart : o.isList = false → o.tidied.tidied = o.tidied) (hitems : ∀ x ∈ o.items, x.tidied.tidied = x.tidied) :
    tidiedPart owner' name (tidiedPart owner name o) = tidiedPart owner name o := by
  cases o with
  | list items =>
    have hreal : blockNames.contains name = true →
        ∀ x ∈ filled owner name ((dropped owner name items).map tidied), x.isErased = false := by
      intro hname x hx
      obtain hx | hx := List.mem_append.mp hx
      · obtain ⟨y, hy, rfl⟩ := List.mem_map.mp hx
        rw [isErased_tidied]
        exact not_isErased_of_mem_dropped (.inl hname) y hy
      · obtain ⟨span, rfl⟩ := eq_pass_of_mem_added hx
        rfl
    have hfixed : ∀ x ∈ filled owner name ((dropped owner name items).map tidied), x.tidied = x := by
      intro x hx
      obtain hx | hx := List.mem_append.mp hx
      · obtain ⟨y, hy, rfl⟩ := List.mem_map.mp hx
        exact hitems y (dropped_subset _ _ _ hy)
      · obtain ⟨span, rfl⟩ := eq_pass_of_mem_added hx
        rfl
    rw [tidiedPart, ← added_tidied, ← filled, tidiedPart, dropped_eq_self hreal, halike.added, added_filled,
      List.append_nil, List.map_congr_left hfixed, List.map_id']
  | _ => exact hpart rfl

theorem tidied_idem (o : Outline) (hflat : o.every isFlat = true) (hl : o.isList = false) :
    o.tidied.tidied = o.tidied := by
  refine flat_induction not_isList_of_isFlat ?data ?node o hflat hl
  case data =>
    intro o hn hl
    cases o with
    | list => cases hl
    | node => cases hn
    | _ => rfl
  case node =>
    intro kind place tags parts _ hparts hitems
    have halike := alike_tidied (node kind place tags parts)
    rw [tidied_node] at halike ⊢
    rw [tidied_node, List.map_map]
    congr 1
    exact List.map_congr_left fun part hp =>
      congrArg (Prod.mk part.1) (tidiedPart_idem halike part.1 part.2 (hparts part hp) (hitems part hp))

end Outline

theorem isErased_outline (s : Stmt) : s.outline.isErased = s.isErased := by
  cases s with
  | simple info what => cases what <;> rfl
  | block info head body =>
    cases head with
    | function isAsync => cases isAsync <;> rfl
    | with_ isAsync => cases isAsync <;> rfl
    | _ => rfl
  | branch info head body orelse =>
    cases head with
    | for_ isAsync => cases isAsync <;> rfl
    | _ => rfl
  | attempt info isGroup => cases isGroup <;> rfl
  | _ => rfl

theorem Slot.name_mem (slot : Slot) : slot.name ∈ blockNames := by
  cases slot <;> decide

theorem draws_dropErased : BlockMap.dropErased.Draws dropped where
  quiet _ _ _ hname _ := if_neg hname
  block {owner o} _ slot ss := by
    rw [dropped, if_pos slot.name_mem]
    simp only [BlockMap.dropErased, stmtOutlines_eq_map, List.filter_map, Function.comp_def, isErased_outline]
  handlers _ _ := (if_neg (by decide)).symm
  cases _ _ := (if_neg (by decide)).symm
  bare span isGroup hs slot ss := by
    have hhandlers : BlockMap.dropErased.handlers (mapHandlers .dropErased hs) = mapHandlers .dropErased hs := rfl
    rw [hhandlers, isEmpty_mapHandlers]

theorem Tree.outline_finalize (t : Tree) (h : t.outline.every isRegular = true) :
    t.finalize.outline = t.outline.tidied := by
  have hdropped : t.dropErased.outline = t.outline.mapLists dropped := Tree.outline_mapBlocks draws_dropErased t h
  have hpad : t.dropErased.pad.outline = t.dropErased.outline.mapLists filled :=
    Tree.outline_mapBlocks draws_pad t.dropErased (by
      rw [hdropped]
      exact every_isRegular_mapLists dropped_subset _ h)
  rw [Tree.finalize, hpad, hdropped, tidied]

theorem tidyStmts_cons (s : Stmt) (ss : List Stmt) :
    tidyStmts (s :: ss) = if s.isErased then tidyStmts ss else s.tidy :: tidyStmts ss := by
  rw [tidyStmts_eq, tidyStmts_eq]
  cases h : s.isErased with
  | true => rw [List.filter_cons_of_neg (by simp [h]), if_pos rfl]
  | false => rw [List.filter_cons_of_pos (by simp [h]), if_neg Bool.false_ne_true, List.map_cons]

/-- A block that has been tidied and has what it needs. -/
theorem tidyStmts_orPass (span : Span) {ss : List Stmt} (h : tidyStmts ss = ss) :
    orPass span (tidyStmts (orPass span ss)) = orPass span ss := by
  have hpass : tidyStmts (orPass span ss) = orPass span ss := by
    unfold orPass
    split
    · exact h
    · rw [tidyStmts_append, h]
      rfl
  rw [hpass, orPass_of_any (any_orPass span ss)]

mutual

theorem tidy_tidy : ∀ s : Stmt, s.tidy.tidy = s.tidy
  | .simple .. => rfl
  | .comment _ => rfl
  | .block info head body => by
    rw [tidy_block, tidy_block, tidyStmts_orPass _ (tidyStmts_tidyStmts body)]
  | .branch info head body orelse => by
    rw [tidy_branch, tidy_branch, tidyStmts_orPass _ (tidyStmts_tidyStmts body), tidyStmts_tidyStmts orelse]
  | .attempt info isGroup body handlers orelse finalbody => by
    have hfinalbody := tidyStmts_tidyStmts finalbody
    rw [tidy_attempt, tidy_attempt, tidyStmts_orPass _ (tidyStmts_tidyStmts body), tidyStmts_tidyStmts orelse,
      tidyHandlers_tidyHandlers handlers]
    split
    · rw [tidyStmts_orPass _ hfinalbody]
    · rw [hfinalbody]
  | .select info subject cases => by
    rw [tidy_select, tidy_select, tidyCases_tidyCases cases]

theorem tidyStmts_tidyStmts : ∀ ss : List Stmt, tidyStmts (tidyStmts ss) = tidyStmts ss
  | [] => rfl
  | s :: ss => by
    rw [tidyStmts_cons]
    split
    · exact tidyStmts_tidyStmts ss
    · next hreal =>
      have htidy : s.tidy.isErased = s.isErased :=
        congrArg Prod.snd ((kind_mapBlocks .pad _).trans (kind_mapBlocks .dropErased s))
      rw [tidyStmts_cons, htidy, if_neg hreal, tidy_tidy s, tidyStmts_tidyStmts ss]

theorem tidyHandlers_tidyHandlers : ∀ hs : List Handler, tidyHandlers (tidyHandlers hs) = tidyHandlers hs
  | [] => rfl
  | .comment c :: hs => congrArg (List.cons (Handler.comment c)) (tidyHandlers_tidyHandlers hs)
  | .handler span type name body :: hs =>
    congrArg₂ (fun body hs => Handler.handler span type name body :: hs)
      (tidyStmts_orPass span (tidyStmts_tidyStmts body)) (tidyHandlers_tidyHandlers hs)

theorem tidyCases_tidyCases : ∀ cs : List Case, tidyCases (tidyCases cs) = tidyCases cs
  | [] => rfl
  | .comment c :: cs => congrArg (List.cons (Case.comment c)) (tidyCases_tidyCases cs)
  | .case lines pattern guard body :: cs =>
    congrArg₂ (fun body cs => Case.case lines pattern guard body :: cs)
      (tidyStmts_orPass Span.unset (tidyStmts_tidyStmts body)) (tidyCases_tidyCases cs)

end

theorem Tree.finalize_finalize (t : Tree) : t.finalize.finalize = t.finalize := by
  cases t with
  | file body => rw [Tree.finalize_file, Tree.finalize_file, tidyStmts_tidyStmts]
  | module_ info name body =>
    exact congrArg (Tree.module_ info name) (tidyStmts_orPass info.span (tidyStmts_tidyStmts body))

/-- Of a tree with erased statements in blocks, however deep, nothing erased is left. All else is kept once and in
order, and a `pass` is added only to a block that needs a statement and has none left. There is nothing left to do. -/
theorem finalized_shape (o : Outline) (h : o.isErasable = true) :
    (o.finalized.every fun n => !n.isErased) = true ∧ o.Tidied o.finalized ∧ o.finalized.finalized = o.finalized ∧
      ∀ t : Tree, t.outline = o → o.every isRegular = true →
        t.finalize.outline = o.finalized ∧ t.finalize.finalize = t.finalize := by
  simp only [isErasable, Bool.and_eq_true, Bool.not_eq_true'] at h
  obtain ⟨⟨⟨hnode, hreal⟩, hflat⟩, hplaces⟩ := h
  have hl : o.isList = false := by
    cases o with
    | list => cases hnode
    | _ => rfl
  have htidied : o.tidied.isList = false := by rw [tidied, isList_mapLists, isList_mapLists, hl]
  rw [finalized_eq hflat hl, finalized_eq (every_isFlat_tidied hflat) htidied]
  refine ⟨not_isErased_tidied o hflat hplaces hl hreal, tidied_tidied o hflat hplaces hl, tidied_idem o hflat hl, ?_⟩
  rintro t rfl hregular
  exact ⟨t.outline_finalize hregular, t.finalize_finalize⟩

/-- A function with a comment and a `try` with none, in whose blocks there are otherwise only erased statements. -/
def erasedFile : Outline :=
  let note := node "Comment" none [] [("value", text "# note"), ("inline", flag false)]
  let erased := node "Erased" (some ⟨some 4, some 4, some 4, some 8⟩) [] []
  Outline.inner "Module" [("body", list [
    node "FunctionDef" (some ⟨some 3, some 0, some 5, some 8⟩) []
      [("name", text "f"), ("body", list [note, erased]), ("decorator_list", list [note])],
    erased,
    node "Try" none []
      [("body", list [erased]), ("handlers", list []), ("orelse", list [erased]), ("finalbody", list [erased])]]),
    ("type_ignores", list [])]

theorem finalized_shape_erased :
    erasedFile.isErasable = true ∧ (erasedFile.finalized.every fun n => !n.isErased) = true ∧
      erasedFile.Tidied erasedFile.finalized ∧ erasedFile.finalized.finalized = erasedFile.finalized := by
  have herasable : erasedFile.isErasable = true := by decide
  obtain ⟨hreal, htidied, hidem, -⟩ := finalized_shape erasedFile herasable
  exact ⟨herasable, hreal, htidied, hidem⟩

end TwinModule
