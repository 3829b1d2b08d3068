import TwinModule.Blocks.Walk
import TwinModule.Proofs.Tree.Listed
/-!
Where a walk over a tree stops. Nodes and lists have addresses, and the stops of a walk are all of them, each once: what
is in a node or a list comes before it, and the parts of a node and the items of a list come in order.
-/
set_option autoImplicit false

namespace TwinModule

namespace Outline

/-- What a step leads to. -/
def child? : Outline → Step → Option Outline
  | node _ _ _ parts, ⟨i, item⟩ => parts[i]?.bind fun part =>
    match item with
    | none => some part.2
    | some j => part.2.items[j]?
  | _, _ => none

/-- The node at an address. -/
def nodeAt? (o : Outline) : Address → Option Outline
  | [] => if o.isNode then some o else none
  | step :: rest => (o.child? step).bind fun c => c.nodeAt? rest

/-- The list that is a part of a node, with its name. -/
def listIn? (i : Nat) : Outline → Option (ListName × List Outline)
  | node kind _ _ parts => parts[i]?.bind fun part =>
    match part.2 with
    | list items => some (⟨kind, part.1⟩, items)
    | _ => none
  | _ => none

def listAt? (o : Outline) (l : ListAddress) : Option (ListName × List Outline) :=
  (o.nodeAt? l.owner).bind (listIn? l.part)

theorem nodeAt?_append {o n : Outline} {p : Address} (hn : o.nodeAt? p = some n) (q : Address) :
    o.nodeAt? (p ++ q) = n.nodeAt? q := by
  induction p generalizing o with
  | nil =>
    obtain ⟨-, rfl⟩ : o.isNode = true ∧ o = n := by simpa [nodeAt?] using hn
    rfl
  | cons step p ih =>
    obtain ⟨c, hc, hn⟩ := Option.bind_eq_some_iff.mp hn
    rw [List.cons_append, nodeAt?, hc, Option.bind_some, ih hn]

theorem nodeAt?_child {o n c : Outline} {p : Address} {step : Step} (hn : o.nodeAt? p = some n)
    (hc : n.child? step = some c) (hnode : c.isNode = true) : o.nodeAt? (p ++ [step]) = some c := by
  rw [nodeAt?_append hn, nodeAt?, hc, Option.bind_some, nodeAt?, if_pos hnode]

section

variable {o n : Outline} {p : Address} {kind name : String} {place : Option Span} {tags : List Tag}
  {parts : List (String × Outline)} {i : Nat}

theorem nodeAt?_part (hp : o.nodeAt? p = some (node kind place tags parts)) (hi : parts[i]? = some (name, n))
    (hn : n.isNode = true) : o.nodeAt? (p ++ [⟨i, none⟩]) = some n := by
  refine nodeAt?_child hp ?_ hn
  rw [child?, hi]
  rfl

theorem listAt?_part {items : List Outline} (hp : o.nodeAt? p = some (node kind place tags parts))
    (hi : parts[i]? = some (name, list items)) : o.listAt? ⟨p, i⟩ = some (⟨kind, name⟩, items) := by
  rw [listAt?, hp, Option.bind_some, listIn?, hi]
  rfl

theorem nodeAt?_item {items : List Outline} {j : Nat} (hp : o.nodeAt? p = some (node kind place tags parts))
    (hi : parts[i]? = some (name, list items)) (hj : items[j]? = some n) (hn : n.isNode = true) :
    o.nodeAt? (ListAddress.item ⟨p, i⟩ j) = some n := by
  refine nodeAt?_child hp ?_ hn
  rw [child?, hi]
  exact hj

end

end Outline

/-- Where a walk stops: at a list, when all its items have been visited, or at a node with all its parts. -/
inductive Stop where
  | list (l : ListAddress) (name : ListName)
  | node (a : Address)

def Event.stop : Event → Stop
  | .handed l name _ _ => .list l name
  | .judged a _ _ => .node a

namespace Outline

mutual

/-- The stops in the part of a tree at an address, in order. -/
def stops (p : Address) : Outline → List Stop
  | node kind _ _ parts => stopsInParts p kind 0 parts ++ [.node p]
  | _ => []

def stopsInItems (l : ListAddress) (j : Nat) : List Outline → List Stop
  | [] => []
  | o :: os => o.stops (l.item j) ++ stopsInItems l (j + 1) os

def stopsInParts (p : Address) (kind : String) (i : Nat) : List (String × Outline) → List Stop
  | [] => []
  | (name, list items) :: rest =>
    stopsInItems ⟨p, i⟩ 0 items ++ .list ⟨p, i⟩ ⟨kind, name⟩ :: stopsInParts p kind (i + 1) rest
  | (_, o) :: rest => o.stops (p ++ [⟨i, none⟩]) ++ stopsInParts p kind (i + 1) rest

end

end Outline

/-- The step to what comes first: to an item before its list. -/
def Step.Lt (s t : Step) : Prop :=
  s.part < t.part ∨ s.part = t.part ∧ match s.item, t.item with
    | some j, some k => j < k
    | some _, none => True
    | none, _ => False

/-- The order in which a walk stops: at what is in a node before the node. -/
def Precedes : Address → Address → Prop
  | [], _ => False
  | _ :: _, [] => True
  | s :: p, t :: q => s.Lt t ∨ s = t ∧ Precedes p q

theorem Step.Lt.asymm {s t : Step} (h : s.Lt t) : ¬ t.Lt s := by
  obtain ⟨i, a⟩ := s
  obtain ⟨j, b⟩ := t
  cases a <;> cases b <;> grind [Step.Lt]

theorem Step.Lt.irrefl (s : Step) : ¬ s.Lt s := fun h => h.asymm h

theorem Precedes.asymm {a b : Address} (h : Precedes a b) : ¬ Precedes b a := by
  induction a generalizing b with
  | nil => exact h.elim
  | cons s a ih =>
    cases b with
    | nil => exact id
    | cons t b =>
      rintro (hts | ⟨rfl, hba⟩)
      · rcases h with hst | ⟨rfl, -⟩
        · exact hst.asymm hts
        · exact hts.irrefl
      · rcases h with hst | ⟨-, hab⟩
        · exact hst.irrefl
        · exact ih hab hba

theorem precedes_append_iff (p : Address) {a b : Address} : Precedes (p ++ a) (p ++ b) ↔ Precedes a b := by
  induction p with
  | nil => rfl
  | cons s p ih => simp [Precedes, Step.Lt.irrefl, ih]

theorem precedes_of_lt {p a b : Address} {s t : Step} (h : s.Lt t) (ha : p ++ [s] <+: a) (hb : p ++ [t] <+: b) :
    Precedes a b := by
  obtain ⟨a, rfl⟩ := ha
  obtain ⟨b, rfl⟩ := hb
  rw [List.append_assoc, List.append_assoc, precedes_append_iff]
  exact Or.inl h

theorem precedes_of_below {p a : Address} {s : Step} (ha : p ++ [s] <+: a) : Precedes a p := by
  obtain ⟨a, rfl⟩ := ha
  have h : Precedes (p ++ ([s] ++ a)) (p ++ []) := (precedes_append_iff p).mpr trivial
  simpa using h

def ListAddress.path (l : ListAddress) : Address := l.owner ++ [⟨l.part, none⟩]

/-- A list in an item of a list, at any depth. -/
def ListAddress.IsWithin (l' l : ListAddress) : Prop := ∃ j, l.item j <+: l'.owner

theorem ListAddress.IsWithin.precedes {l l' : ListAddress} (h : l'.IsWithin l) : Precedes l'.path l.path := by
  obtain ⟨j, h⟩ := h
  have hlt : Step.Lt ⟨l.part, some j⟩ ⟨l.part, none⟩ := Or.inr ⟨rfl, trivial⟩
  exact precedes_of_lt hlt (h.trans (List.prefix_append ..)) List.prefix_rfl

theorem part_lt_of_precedes {l l' : ListAddress} (h : Precedes l.path l'.path) (ho : l.owner = l'.owner) :
    l.part < l'.part := by
  rw [ListAddress.path, ListAddress.path, ho, precedes_append_iff] at h
  simpa [Precedes, Step.Lt] using h

namespace Stop

def path : Stop → Address
  | list l _ => l.path
  | node a => a

def list? : Stop → Option ListAddress
  | list l _ => some l
  | node _ => none

def node? : Stop → Option Address
  | list .. => none
  | node a => some a

theorem path_of_list? {x : Stop} {l : ListAddress} (h : x.list? = some l) : x.path = l.path := by
  cases x with
  | list l' name =>
    cases h
    rfl
  | node a => cases h

theorem path_of_node? {x : Stop} {a : Address} (h : x.node? = some a) : x.path = a := by
  cases x with
  | list l name => cases h
  | node a' =>
    cases h
    rfl

end Stop

namespace Outline

mutual

theorem below_stops (p : Address) : ∀ o, ∀ x ∈ stops p o, p <+: x.path
  | node kind _ _ parts, x, hx => by
    rw [stops, List.mem_append, List.mem_singleton] at hx
    rcases hx with hx | rfl
    · obtain ⟨s, -, hs⟩ := below_stopsInParts p kind 0 parts x hx
      exact (List.prefix_append p [s]).trans hs
    · exact List.prefix_rfl

theorem below_stopsInItems (l : ListAddress) (j : Nat) :
    ∀ os, ∀ x ∈ stopsInItems l j os, ∃ k, j ≤ k ∧ l.item k <+: x.path
  | o :: os, x, hx => by
    rcases List.mem_append.mp hx with hx | hx
    · exact ⟨j, Nat.le_refl j, below_stops (l.item j) o x hx⟩
    · obtain ⟨k, hk, h⟩ := below_stopsInItems l (j + 1) os x hx
      exact ⟨k, Nat.le_of_succ_le hk, h⟩

theorem below_stopsInParts (p : Address) (kind : String) (i : Nat) :
    ∀ parts, ∀ x ∈ stopsInParts p kind i parts, ∃ s : Step, i ≤ s.part ∧ p ++ [s] <+: x.path
  | (name, o) :: rest, x, hx => by
    have hrest : x ∈ stopsInParts p kind (i + 1) rest → ∃ s : Step, i ≤ s.part ∧ p ++ [s] <+: x.path := fun h =>
      have ⟨s, hs, h⟩ := below_stopsInParts p kind (i + 1) rest x h
      ⟨s, Nat.le_of_succ_le hs, h⟩
    cases o with
    | list items =>
      rw [stopsInParts, List.mem_append, List.mem_cons] at hx
      rcases hx with hx | rfl | hx
      · obtain ⟨k, -, h⟩ := below_stopsInItems ⟨p, i⟩ 0 items x hx
        exact ⟨⟨i, some k⟩, Nat.le_refl i, h⟩
      · exact ⟨⟨i, none⟩, Nat.le_refl i, List.prefix_rfl⟩
      · exact hrest hx
    | _ =>
      rcases List.mem_append.mp hx with hx | hx
      · exact ⟨⟨i, none⟩, Nat.le_refl i, below_stops _ _ x hx⟩
      · exact hrest hx

end

mutual

theorem ordered_stops (p : Address) : ∀ o, (stops p o).Pairwise fun x y => Precedes x.path y.path
  | node kind _ _ parts => by
    rw [stops, List.pairwise_append]
    refine ⟨ordered_stopsInParts p kind 0 parts, List.pairwise_singleton .., fun x hx y hy => ?_⟩
    obtain ⟨s, -, hs⟩ := below_stopsInParts p kind 0 parts x hx
    cases List.mem_singleton.mp hy
    exact precedes_of_below hs
  | list _ => .nil
  | absent => .nil
  | text _ => .nil
  | number _ => .nil
  | flag _ => .nil
  | literal _ => .nil

theorem ordered_stopsInItems (l : ListAddress) (j : Nat) :
    ∀ os, (stopsInItems l j os).Pairwise fun x y => Precedes x.path y.path
  | [] => .nil
  | o :: os => by
    rw [stopsInItems, List.pairwise_append]
    refine ⟨ordered_stops (l.item j) o, ordered_stopsInItems l (j + 1) os, fun x hx y hy => ?_⟩
    obtain ⟨k, hk, hy⟩ := below_stopsInItems l (j + 1) os y hy
    have hlt : Step.Lt ⟨l.part, some j⟩ ⟨l.part, some k⟩ := Or.inr ⟨rfl, hk⟩
    exact precedes_of_lt hlt (below_stops (l.item j) o x hx) hy

theorem ordered_stopsInParts (p : Address) (kind : String) (i : Nat) :
    ∀ parts, (stopsInParts p kind i parts).Pairwise fun x y => Precedes x.path y.path
  | [] => .nil
  | (name, o) :: rest => by
    have hrest := ordered_stopsInParts p kind (i + 1) rest
    have hafter : ∀ y ∈ stopsInParts p kind (i + 1) rest, ∀ {a : Address} {item : Option Nat},
        p ++ [⟨i, item⟩] <+: a → Precedes a y.path := by
      intro y hy a item ha
      obtain ⟨t, ht, hy⟩ := below_stopsInParts p kind (i + 1) rest y hy
      have hlt : Step.Lt ⟨i, item⟩ t := Or.inl ht
      exact precedes_of_lt hlt ha hy
    cases o with
    | list items =>
      rw [stopsInParts, List.pairwise_append, List.pairwise_cons]
      refine ⟨ordered_stopsInItems ⟨p, i⟩ 0 items, ⟨fun y hy => hafter y hy List.prefix_rfl, hrest⟩, ?_⟩
      intro x hx y hy
      obtain ⟨k, -, hx⟩ := below_stopsInItems ⟨p, i⟩ 0 items x hx
      rcases List.mem_cons.mp hy with rfl | hy
      · have hlt : Step.Lt ⟨i, some k⟩ ⟨i, none⟩ := Or.inr ⟨rfl, trivial⟩
        exact precedes_of_lt hlt hx List.prefix_rfl
      · exact hafter y hy hx
    | _ =>
      exact List.pairwise_append.mpr
        ⟨ordered_stops _ _, hrest, fun x hx y hy => hafter y hy (below_stops _ _ x hx)⟩

end

theorem ordered_lists (o : Outline) :
    ((o.stops []).filterMap Stop.list?).Pairwise fun l l' => Precedes l.path l'.path := by
  refine List.pairwise_filterMap.mpr ((ordered_stops [] o).imp fun {x y} h l hl l' hl' => ?_)
  rwa [← Stop.path_of_list? hl, ← Stop.path_of_list? hl']

theorem ordered_nodes (o : Outline) : ((o.stops []).filterMap Stop.node?).Pairwise Precedes := by
  refine List.pairwise_filterMap.mpr ((ordered_stops [] o).imp fun {x y} h a ha b hb => ?_)
  rwa [← Stop.path_of_node? ha, ← Stop.path_of_node? hb]

theorem stopsInParts_cons (p : Address) (kind : String) (i : Nat) (part : String × Outline)
    (rest : List (String × Outline)) :
    stopsInParts p kind i (part :: rest) = stopsInParts p kind i [part] ++ stopsInParts p kind (i + 1) rest := by
  obtain ⟨name, o⟩ := part
  cases o <;> simp [stopsInParts]

theorem stopsInPart_subset {parts : List (String × Outline)} {k : Nat} {part : String × Outline}
    (h : parts[k]? = some part) (p : Address) (kind : String) (i : Nat) :
    stopsInParts p kind (i + k) [part] ⊆ stopsInParts p kind i parts := by
  induction parts generalizing i k with
  | nil => simp at h
  | cons first rest ih =>
    rw [stopsInParts_cons p kind i first]
    cases k with
    | zero =>
      cases h
      exact List.subset_append_left ..
    | succ k =>
      rw [show i + (k + 1) = i + 1 + k by omega]
      exact List.subset_append_of_subset_right _ (ih h (i + 1))

theorem stopsInItem_subset {items : List Outline} {k : Nat} {o : Outline} (h : items[k]? = some o)
    (l : ListAddress) (j : Nat) : o.stops (l.item (j + k)) ⊆ stopsInItems l j items := by
  induction items generalizing j k with
  | nil => simp at h
  | cons first rest ih =>
    cases k with
    | zero =>
      cases h
      exact List.subset_append_left ..
    | succ k =>
      rw [show j + (k + 1) = j + 1 + k by omega]
      exact List.subset_append_of_subset_right _ (ih h (j + 1))

theorem stops_child_subset {o c : Outline} {step : Step} (hc : o.child? step = some c) (p : Address) :
    c.stops (p ++ [step]) ⊆ o.stops p := by
  obtain ⟨i, item⟩ := step
  cases o with
  | node kind place tags parts =>
    obtain ⟨part, hpart, hc⟩ := Option.bind_eq_some_iff.mp hc
    have hparts := stopsInPart_subset hpart p kind 0
    rw [Nat.zero_add] at hparts
    refine List.Subset.trans ?_ (List.Subset.trans hparts (List.subset_append_left ..))
    cases item with
    | none =>
      obtain ⟨name, o⟩ := part
      cases hc
      cases o <;> simp [stopsInParts, stops]
    | some j =>
      obtain ⟨name, o⟩ := part
      cases o with
      | list items =>
        have hitem := stopsInItem_subset hc ⟨p, i⟩ 0
        rw [Nat.zero_add] at hitem
        exact List.Subset.trans hitem (List.subset_append_left ..)
      | _ => simp [items] at hc
  | _ => cases hc

theorem stops_subset {o n : Outline} {q : Address} (hn : o.nodeAt? q = some n) (p : Address) :
    n.stops (p ++ q) ⊆ o.stops p := by
  induction q generalizing o p with
  | nil =>
    obtain ⟨-, rfl⟩ : o.isNode = true ∧ o = n := by simpa [nodeAt?] using hn
    rw [List.append_nil]
    exact List.Subset.refl _
  | cons step q ih =>
    obtain ⟨c, hc, hn⟩ := Option.bind_eq_some_iff.mp hn
    have hbelow := ih hn (p ++ [step])
    rw [List.append_assoc] at hbelow
    exact List.Subset.trans hbelow (stops_child_subset hc p)

theorem isNode_of_nodeAt? {o n : Outline} {p : Address} (hn : o.nodeAt? p = some n) : n.isNode = true := by
  induction p generalizing o with
  | nil =>
    obtain ⟨hnode, rfl⟩ : o.isNode = true ∧ o = n := by simpa [nodeAt?] using hn
    exact hnode
  | cons step p ih =>
    obtain ⟨c, -, hn⟩ := Option.bind_eq_some_iff.mp hn
    exact ih hn

theorem nodeStop_mem {o n : Outline} {a : Address} (hn : o.nodeAt? a = some n) : Stop.node a ∈ o.stops [] := by
  have hnode := isNode_of_nodeAt? hn
  refine stops_subset hn [] ?_
  cases n with
  | node => exact List.mem_append_right _ (List.mem_singleton_self _)
  | _ => cases hnode

theorem listStop_mem {o : Outline} {l : ListAddress} {name : ListName} {items : List Outline}
    (hl : o.listAt? l = some (name, items)) : Stop.list l name ∈ o.stops [] := by
  obtain ⟨n, hn, hl⟩ := Option.bind_eq_some_iff.mp hl
  refine stops_subset hn [] ?_
  cases n with
  | node kind place tags parts =>
    obtain ⟨⟨field, o⟩, hpart, ho⟩ := Option.bind_eq_some_iff.mp hl
    cases o with
    | list items =>
      cases ho
      have hparts := stopsInPart_subset hpart l.owner kind 0
      rw [Nat.zero_add] at hparts
      refine List.mem_append_left _ (hparts ?_)
      simp [stopsInParts]
    | _ => cases ho
  | _ => cases hl

end Outline

end TwinModule
