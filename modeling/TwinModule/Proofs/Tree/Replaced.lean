import TwinModule.Proofs.Tree.Walked
/-!
Walks on which every node stays and lists are replaced. If a map says what comes back for a list, by little more than
what kind of node it is in, the walk does to the tree what the pass over all lists does.
-/
set_option autoImplicit false

namespace TwinModule

namespace Outline

/-- There is no list in a list. -/
def isFlat : Outline → Bool
  | list items => items.all fun o => !o.isList
  | _ => true

theorem not_isList_of_isFlat (items : List Outline) (h : (list items).isFlat = true) :
    ∀ o ∈ items, o.isList = false := by
  simpa [isFlat] using h

/-- The nodes have the same kind and place, and both or none is a `try` without handlers. -/
structure Alike (o o' : Outline) : Prop where
  kind : o.kindName = o'.kindName
  place : o.place = o'.place
  bare : o.isBareTry = o'.isBareTry

/-- A map that replaces only blocks, by little more than what kind of node they are in. -/
structure IsSteady (f : ListMap) : Prop where
  block : ∀ owner name items, name ∉ blockNames → f owner name items = items
  alike : ∀ {owner owner' : Outline}, owner.Alike owner' → ∀ name items, f owner name items = f owner' name items

/-- Whether a part is a list without items. -/
def isEmptyList : Outline → Bool
  | list [] => true
  | _ => false

theorem isEmptyList_mapLists {f : ListMap} (o : Outline) : (o.mapLists f).isEmptyList = o.isEmptyList := by
  cases o with
  | list items =>
    rw [mapLists_list]
    cases items <;> rfl
  | _ => rfl

theorem isBareTry_node (kind : String) (place : Option Span) (tags : List Tag) (parts : List (String × Outline)) :
    (node kind place tags parts).isBareTry =
      (kind == "Try" && ((parts.lookup "handlers").map isEmptyList).getD false) := by
  rw [isBareTry, kindName, Outline.parts]
  cases parts.lookup "handlers" with
  | none => rfl
  | some o =>
    cases o with
    | list items => cases items <;> rfl
    | _ => rfl

/-- Parts of the same names, of which those that hold handlers are alike in being without. -/
def SameHandlers (part part' : String × Outline) : Prop :=
  part.1 = part'.1 ∧ (part.1 = "handlers" → part.2.isEmptyList = part'.2.isEmptyList)

theorem alike_of_parts {kind : String} {place : Option Span} {tags : List Tag} {parts parts' : List (String × Outline)}
    (h : List.Forall₂ SameHandlers parts parts') :
    (node kind place tags parts).Alike (node kind place tags parts') := by
  refine ⟨rfl, rfl, ?_⟩
  rw [isBareTry_node, isBareTry_node]
  congr 2
  induction h with
  | nil => rfl
  | @cons part part' _ _ hpart _ ih =>
    obtain ⟨name, o⟩ := part
    obtain ⟨name', o'⟩ := part'
    obtain ⟨rfl, hpart⟩ := hpart
    by_cases hname : "handlers" = name
    · simpa [← hname] using hpart hname.symm
    · have hne : ("handlers" == name) = false := by simpa using hname
      simpa only [List.lookup_cons, hne, Bool.false_eq_true, if_false] using ih

theorem sameHandlers_rewritten {f : ListMap} (hf : IsSteady f) (owner : Outline) (part : String × Outline) :
    SameHandlers (part.1, rewritten f owner part.1 (part.2.mapLists f)) part := by
  refine ⟨rfl, fun hname => ?_⟩
  have hkeeps : rewritten f owner part.1 (part.2.mapLists f) = part.2.mapLists f := by
    cases part.2 with
    | list items =>
      rw [mapLists_list, rewritten, hf.block owner part.1 _ (by rw [hname]; decide)]
    | _ => rfl
  rw [hkeeps, isEmptyList_mapLists]

theorem alike_mapLists {f : ListMap} (hf : IsSteady f) (o : Outline) : (o.mapLists f).Alike o := by
  cases o with
  | node kind place tags parts =>
    rw [mapLists_node]
    refine alike_of_parts ?_
    rw [List.forall₂_map_left_iff, List.forall₂_same]
    exact fun part _ => sameHandlers_rewritten hf _ part
  | _ => exact ⟨rfl, rfl, rfl⟩

/-- A node of which some parts and the items of the next list are done. -/
theorem alike_halfway {f : ListMap} (hf : IsSteady f) (owner : Outline) (kind : String) (place : Option Span)
    (tags : List Tag) (before rest : List (String × Outline)) (name : String) (items : List Outline) :
    (node kind place tags (mapParts f owner before ++ (name, list (items.map (mapLists f))) :: rest)).Alike
      (node kind place tags (before ++ (name, list items) :: rest)) := by
  rw [mapParts_eq_map]
  refine alike_of_parts (List.rel_append ?_ (.cons ⟨rfl, fun _ => ?_⟩ (List.forall₂_same.mpr fun part _ => ?_)))
  · rw [List.forall₂_map_left_iff, List.forall₂_same]
    exact fun part _ => sameHandlers_rewritten hf owner part
  · rw [← mapLists_list, isEmptyList_mapLists]
  · exact ⟨rfl, fun _ => rfl⟩

end Outline

namespace Rewriter

open Outline Walking

variable {σ : Type} {r : Rewriter σ} {f : ListMap}

/-- All nodes stay, and what comes back for a list is what the map says. -/
structure Replaces (r : Rewriter σ) (f : ListMap) : Prop where
  judge : ∀ n s, ((r.judge n).run s).1 = .one n
  rewrite : ∀ owner name items s, ((r.rewrite owner name items).run s).1 = f owner name.field items

mutual

theorem Replaces.visit (h : r.Replaces f) (hf : IsSteady f) (p : Address) :
    ∀ o, o.every isFlat = true → o.isList = false →
      (r.visit p o).Does fun became _ => became = (o.mapLists f, .one (o.mapLists f))
  | node kind place tags parts, hflat, _ => by
    have hparts := ((every_node ..).mp hflat).2
    refine (h.visitParts hf p kind place tags 0 parts [] parts rfl hparts).bind fun parts' log hparts => ?_
    rw [hparts]
    refine (settle_stays (h.judge _) p).bind fun verdict log' hverdict => Does.pure ?_
    rw [hverdict, mapLists]
  | absent, _, _ => Does.pure rfl
  | text _, _, _ => Does.pure rfl
  | number _, _, _ => Does.pure rfl
  | flag _, _, _ => Does.pure rfl
  | literal _, _, _ => Does.pure rfl

theorem Replaces.visitItems (h : r.Replaces f) (hf : IsSteady f) (l : ListAddress) (j : Nat) :
    ∀ os, (∀ o ∈ os, o.every isFlat = true ∧ o.isList = false) →
      (r.visitItems l j os).Does fun visited _ => visited = os.map fun o => (o.mapLists f, .one (o.mapLists f))
  | [], _ => Does.pure rfl
  | o :: os, hos => by
    obtain ⟨⟨hflat, hl⟩, hos⟩ := List.forall_mem_cons.mp hos
    refine (h.visit hf (l.item j) o hflat hl).bind fun first log hfirst => ?_
    refine (h.visitItems hf l (j + 1) os hos).bind fun rest log' hrest => Does.pure ?_
    rw [hfirst, hrest, List.map_cons]

/-- The parts before those that are still to be visited are as they will be. -/
theorem Replaces.visitParts (h : r.Replaces f) (hf : IsSteady f) (p : Address) (kind : String) (place : Option Span)
    (tags : List Tag) (i : Nat) (all before : List (String × Outline)) :
    ∀ parts, all = before ++ parts → (∀ part ∈ parts, part.2.every isFlat = true) →
      (r.visitParts p kind (node kind place tags) i (mapParts f (node kind place tags all) before) parts).Does
        fun parts' _ => parts' = mapParts f (node kind place tags all) all
  | [], hall, _ => Does.pure (by rw [hall, List.append_nil])
  | (name, o) :: rest, hall, hparts => by
    obtain ⟨ho, hrest⟩ := List.forall_mem_cons.mp hparts
    have hall' : all = (before ++ [(name, o)]) ++ rest := by rw [hall, List.append_assoc, List.singleton_append]
    have hafter := h.visitParts hf p kind place tags (i + 1) all (before ++ [(name, o)]) rest hall' hrest
    rw [mapParts_append, mapParts, mapParts] at hafter
    cases o with
    | list items =>
      obtain ⟨hlist, hitems⟩ := (every_list items).mp ho
      have hitems : ∀ o ∈ items, o.every isFlat = true ∧ o.isList = false := fun o ho =>
        ⟨hitems o ho, not_isList_of_isFlat items hlist o ho⟩
      rw [visitParts_list]
      refine (h.visitItems hf _ 0 items hitems).bind fun visited log hvisited => ?_
      have hgiven : (visited.flatMap fun v => v.2.items) = items.map (mapLists f) := by
        rw [hvisited, List.flatMap_map]
        exact List.flatMap_pure_eq_map ..
      have hnow : visited.map Prod.fst = items.map (mapLists f) := by
        rw [hvisited, List.map_map]
        rfl
      have halike := alike_halfway hf (node kind place tags all) kind place tags before rest name items
      rw [← hall] at halike
      rw [hgiven, hnow]
      have hback := fun s => (h.rewrite _ ⟨kind, name⟩ (items.map (mapLists f)) s).trans (hf.alike halike name _)
      refine (hand_gives hback _).bind fun back log' hback => ?_
      rw [hback]
      rwa [mapLists_list] at hafter
    | _ =>
      rw [visitParts_single _ _ _ _ _ _ _ rfl]
      refine (h.visit hf _ _ ho rfl).bind fun visited log hvisited => ?_
      subst hvisited
      exact hafter

end

end Rewriter

end TwinModule
