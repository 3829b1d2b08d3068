import Mathlib.Data.List.Forall2
import TwinModule.Proofs.Tree.Stops
/-!
What a walk does, whatever is done on it. Every node of a tree is judged once and every list is handed out once, all
that is in a node or a list before it and the lists of a node in the order of its parts. What is handed out is what
became of the items of the list, and the list then holds what came back.
-/
set_option autoImplicit false

namespace TwinModule

namespace Walking

variable {σ α β : Type} {P : α → List Event → Prop} {Q : β → List Event → Prop}

/-- Whatever the state before, what comes of it and what happens are such. -/
def Does (x : Walking σ α) (P : α → List Event → Prop) : Prop := ∀ s, P (x s).1.1 (x s).2

theorem Does.pure {a : α} (h : P a []) : (Pure.pure a : Walking σ α).Does P := fun _ => h

theorem Does.bind {x : Walking σ α} {f : α → Walking σ β} (hx : x.Does P)
    (hf : ∀ a log, P a log → (f a).Does fun b rest => Q b (log ++ rest)) : (x >>= f).Does Q :=
  fun s => hf _ _ (hx s) _

theorem Does.imp {x : Walking σ α} {P' : α → List Event → Prop} (h : ∀ a log, P a log → P' a log)
    (hx : x.Does P) : x.Does P' :=
  fun s => h _ _ (hx s)

end Walking

namespace Rewriter

open Outline Walking

variable {σ : Type} (r : Rewriter σ)

theorem visitParts_list (p : Address) (kind : String) (owner : List (String × Outline) → Outline) (i : Nat)
    (done : List (String × Outline)) (name : String) (items : List Outline) (rest : List (String × Outline)) :
    r.visitParts p kind owner i done ((name, list items) :: rest) = (do
      let visited ← r.visitItems ⟨p, i⟩ 0 items
      let back ← r.hand ⟨p, i⟩ (owner (done ++ (name, list (visited.map Prod.fst)) :: rest)) ⟨kind, name⟩
        (visited.flatMap fun v => v.2.items)
      r.visitParts p kind owner (i + 1) (done ++ [(name, list back)]) rest) := rfl

theorem visitParts_single (p : Address) (kind : String) (owner : List (String × Outline) → Outline) (i : Nat)
    (done : List (String × Outline)) (name : String) {o : Outline} (h : o.isList = false)
    (rest : List (String × Outline)) :
    r.visitParts p kind owner i done ((name, o) :: rest) = (do
      let visited ← r.visit (p ++ [⟨i, none⟩]) o
      r.visitParts p kind owner (i + 1) (done ++ visited.2.part name) rest) := by
  cases o with
  | list items => cases h
  | _ => rfl

theorem does_settle (a : Address) (n : Outline) :
    (r.settle a n).Does fun verdict log => log = [.judged a n verdict] := fun _ => rfl

theorem does_hand (l : ListAddress) (owner : Outline) (name : ListName) (items : List Outline) :
    (r.hand l owner name items).Does fun back log => log = [.handed l name items back] := fun _ => rfl

variable {r} in
theorem settle_stays {n : Outline} (h : ∀ s, ((r.judge n).run s).1 = .one n) (a : Address) :
    (r.settle a n).Does fun verdict _ => verdict = .one n := h

variable {r} in
theorem hand_gives {owner : Outline} {name : ListName} {items back : List Outline}
    (h : ∀ s, ((r.rewrite owner name items).run s).1 = back) (l : ListAddress) :
    (r.hand l owner name items).Does fun back' _ => back' = back := h

/-- What is called for an event, in a state and with a state after it: the rewriting of a block, or of another list, of
a node of the kind that the list is named for; or the judging of a node. -/
def Calls : Event → σ → σ → Prop
  | .handed _ name given back, s, s' => ∃ owner : Outline, owner.kindName = name.owner ∧
    ((if name.field ∈ blockNames then r.statements else r.others) owner name given).run s = (back, s')
  | .judged _ n verdict, s, s' => (r.judge n).run s = (verdict, s')

/-- There is one call for each event, in order, and nothing else. -/
def AllCalls : List Event → σ → σ → Prop
  | [], s, s' => s' = s
  | e :: es, s, s' => ∃ t, r.Calls e s t ∧ AllCalls es t s'

theorem AllCalls.append {r : Rewriter σ} {es es' : List Event} {s t u : σ} (h : r.AllCalls es s t)
    (h' : r.AllCalls es' t u) : r.AllCalls (es ++ es') s u := by
  induction es generalizing s with
  | nil =>
    cases h
    exact h'
  | cons e es ih =>
    obtain ⟨s', hcall, h⟩ := h
    exact ⟨s', hcall, ih h⟩

/-- All that is done in a part of a walk are the calls for its events. -/
def IsCalls {α : Type} (x : Walking σ α) : Prop := ∀ s, r.AllCalls (x s).2 s (x s).1.2

variable {r}

theorem IsCalls.pure {α : Type} (a : α) : r.IsCalls (Pure.pure a : Walking σ α) := fun _ => rfl

theorem IsCalls.bind {α β : Type} {x : Walking σ α} {f : α → Walking σ β} (hx : r.IsCalls x)
    (hf : ∀ a, r.IsCalls (f a)) : r.IsCalls (x >>= f) :=
  fun s => (hx s).append (hf _ _)

theorem isCalls_settle (a : Address) (n : Outline) : r.IsCalls (r.settle a n) := fun _ => ⟨_, rfl, rfl⟩

theorem rewrite_eq (owner : Outline) (name : ListName) (items : List Outline) : r.rewrite owner name items =
    (if name.field ∈ blockNames then r.statements else r.others) owner name items := by
  by_cases h : name.field ∈ blockNames
  · have hblock : name.isBlock = true := List.contains_iff_mem.mpr h
    rw [rewrite, if_pos hblock, if_pos h]
  · have hblock : ¬ name.isBlock = true := fun hblock => h (List.contains_iff_mem.mp hblock)
    rw [rewrite, if_neg hblock, if_neg h]

theorem isCalls_hand (l : ListAddress) {owner : Outline} {name : ListName} (h : owner.kindName = name.owner)
    (items : List Outline) : r.IsCalls (r.hand l owner name items) := by
  refine fun s => ⟨_, ⟨owner, h, ?_⟩, rfl⟩
  rw [← rewrite_eq]
  rfl

mutual

theorem isCalls_visit (p : Address) : ∀ o, r.IsCalls (r.visit p o)
  | node kind place tags parts =>
    (isCalls_visitParts p kind (node kind place tags) (fun _ => rfl) 0 [] parts).bind fun _ =>
      (isCalls_settle p _).bind fun _ => .pure _
  | .list _ => .pure _
  | absent => .pure _
  | text _ => .pure _
  | number _ => .pure _
  | flag _ => .pure _
  | literal _ => .pure _

theorem isCalls_visitItems (l : ListAddress) (j : Nat) : ∀ os, r.IsCalls (r.visitItems l j os)
  | [] => .pure _
  | o :: os =>
    (isCalls_visit (l.item j) o).bind fun _ => (isCalls_visitItems l (j + 1) os).bind fun _ => .pure _

theorem isCalls_visitParts (p : Address) (kind : String) (owner : List (String × Outline) → Outline)
    (howner : ∀ parts, (owner parts).kindName = kind) (i : Nat) (done : List (String × Outline)) :
    ∀ parts, r.IsCalls (r.visitParts p kind owner i done parts)
  | [] => .pure _
  | (name, o) :: rest => by
    cases o with
    | list items =>
      rw [visitParts_list]
      refine (isCalls_visitItems _ 0 items).bind fun visited => ?_
      refine (isCalls_hand _ (howner _) _).bind fun back => ?_
      exact isCalls_visitParts p kind owner howner (i + 1) _ rest
    | _ =>
      rw [visitParts_single _ _ _ _ _ _ _ rfl]
      refine (isCalls_visit _ _).bind fun visited => ?_
      exact isCalls_visitParts p kind owner howner (i + 1) _ rest

end

end Rewriter

/-- What became of what is at an address: of a node what the log says, while all else stays. -/
def Became (log : List Event) (a : Address) : Outline → Outline × Verdict → Prop
  | .node .., (n, verdict) => .judged a n verdict ∈ log
  | o, became => became = (o, .one o)

/-- What became of a part of a node: a list is what came back. -/
def PartBecame (log : List Event) (a : Address) (kind : String) (i : Nat) :
    String × Outline → List (String × Outline) → Prop
  | (name, .list _), now => ∃ given back, .handed ⟨a, i⟩ ⟨kind, name⟩ given back ∈ log ∧ now = [(name, .list back)]
  | (name, o), now => ∃ became, Became log (a ++ [⟨i, none⟩]) o became ∧ now = became.2.part name

/-- Why an event is as it is. A list is handed out with what became of its items, and a node is judged with what became
of its parts. -/
def Explained (o : Outline) (log : List Event) : Event → Prop
  | .handed l name given _ => ∃ items visited, o.listAt? l = some (name, items) ∧
    List.Forall₂ (fun item became => Became log (l.item item.2) item.1 became) items.zipIdx visited ∧
    given = visited.flatMap fun became => became.2.items
  | .judged a n _ => ∃ kind place tags parts now, o.nodeAt? a = some (.node kind place tags parts) ∧
    List.Forall₂ (fun part now => PartBecame log a kind part.2 part.1 now) parts.zipIdx now ∧
    n = .node kind place tags now.flatten

section

variable {log log' : List Event}

theorem Became.mono (hlog : log ⊆ log') {a : Address} {o : Outline} {became : Outline × Verdict}
    (h : Became log a o became) : Became log' a o became := by
  cases o with
  | node => exact hlog h
  | _ => exact h

theorem PartBecame.mono (hlog : log ⊆ log') {a : Address} {kind : String} {i : Nat} {part : String × Outline}
    {now : List (String × Outline)} (h : PartBecame log a kind i part now) : PartBecame log' a kind i part now := by
  obtain ⟨name, o⟩ := part
  cases o with
  | list items =>
    obtain ⟨given, back, hmem, hnow⟩ := h
    exact ⟨given, back, hlog hmem, hnow⟩
  | _ =>
    obtain ⟨became, hbecame, hnow⟩ := h
    exact ⟨became, hbecame.mono hlog, hnow⟩

theorem Explained.mono (hlog : log ⊆ log') {o : Outline} {e : Event} (h : Explained o log e) :
    Explained o log' e := by
  cases e with
  | handed l name given back =>
    obtain ⟨items, visited, hl, hvisited, hgiven⟩ := h
    exact ⟨items, visited, hl, hvisited.imp fun _ _ h => h.mono hlog, hgiven⟩
  | judged a n verdict =>
    obtain ⟨kind, place, tags, parts, now, ha, hnow, hn⟩ := h
    exact ⟨kind, place, tags, parts, now, ha, hnow.imp fun _ _ h => h.mono hlog, hn⟩

theorem explained_append {o : Outline} (h : ∀ e ∈ log, Explained o log e) (h' : ∀ e ∈ log', Explained o log' e) :
    ∀ e ∈ log ++ log', Explained o (log ++ log') e := by
  intro e he
  rcases List.mem_append.mp he with he | he
  · exact (h e he).mono (List.subset_append_left ..)
  · exact (h' e he).mono (List.subset_append_right ..)

theorem explained_add {o : Outline} {e : Event} (h : ∀ e ∈ log, Explained o log e)
    (he : Explained o (log ++ [e]) e) : ∀ e' ∈ log ++ [e], Explained o (log ++ [e]) e' := by
  intro e' he'
  rcases List.mem_append.mp he' with he' | he'
  · exact (h e' he').mono (List.subset_append_left ..)
  · cases List.mem_singleton.mp he'
    exact he

end

namespace Rewriter

open Outline Walking

variable {σ : Type} (r : Rewriter σ)

mutual

theorem stops_visit (p : Address) :
    ∀ o, (r.visit p o).Does fun _ log => log.map Event.stop = o.stops p
  | node kind place tags parts => by
    refine (stops_visitParts p kind (node kind place tags) 0 [] parts).bind fun parts log hlog => ?_
    refine (r.does_settle _ _).bind fun verdict rest hrest => Does.pure ?_
    rw [List.append_nil, List.map_append, hlog, hrest, stops]
    rfl
  | .list _ => Does.pure rfl
  | absent => Does.pure rfl
  | text _ => Does.pure rfl
  | number _ => Does.pure rfl
  | flag _ => Does.pure rfl
  | literal _ => Does.pure rfl

theorem stops_visitItems (l : ListAddress) (j : Nat) :
    ∀ os, (r.visitItems l j os).Does fun _ log => log.map Event.stop = stopsInItems l j os
  | [] => Does.pure rfl
  | o :: os => by
    refine (stops_visit (l.item j) o).bind fun first log hlog => ?_
    refine (stops_visitItems l (j + 1) os).bind fun rest log' hlog' => Does.pure ?_
    rw [List.append_nil, List.map_append, hlog, hlog', stopsInItems]

theorem stops_visitParts (p : Address) (kind : String) (owner : List (String × Outline) → Outline) (i : Nat)
    (done : List (String × Outline)) : ∀ parts,
    (r.visitParts p kind owner i done parts).Does fun _ log => log.map Event.stop = stopsInParts p kind i parts
  | [] => Does.pure rfl
  | (name, o) :: rest => by
    cases o with
    | list items =>
      rw [visitParts_list]
      refine (stops_visitItems _ 0 items).bind fun visited log hlog => ?_
      refine (r.does_hand _ _ _ _).bind fun back log' hlog' => ?_
      refine (stops_visitParts p kind owner (i + 1) _ rest).imp fun _ log'' hlog'' => ?_
      rw [List.map_append, List.map_append, hlog, hlog', hlog'', stopsInParts]
      rfl
    | _ =>
      rw [visitParts_single _ _ _ _ _ _ _ rfl]
      refine (stops_visit _ _).bind fun visited log hlog => ?_
      refine (stops_visitParts p kind owner (i + 1) _ rest).imp fun _ log' hlog' => ?_
      rw [List.map_append, hlog, hlog']
      rfl

end

mutual

theorem explained_visit (o : Outline) (p : Address) :
    ∀ n, (n.isNode = true → o.nodeAt? p = some n) →
      (r.visit p n).Does fun became log => Became log p n became ∧ ∀ e ∈ log, Explained o log e
  | node kind place tags parts, hn => by
    have hp := hn rfl
    refine (explained_visitParts o p hp (node kind place tags) 0 [] parts
      fun k part h => by rwa [Nat.zero_add]).bind fun parts' log h => ?_
    obtain ⟨now, rfl, hnow, hlog⟩ := h
    refine (r.does_settle _ _).bind fun verdict rest hrest => Does.pure ?_
    subst hrest
    rw [List.append_nil]
    refine ⟨List.mem_append_right _ (List.mem_singleton_self _), explained_add hlog ?_⟩
    exact ⟨kind, place, tags, parts, now, hp, hnow.imp fun _ _ h => h.mono (List.subset_append_left ..), rfl⟩
  | .list _, _ => Does.pure ⟨rfl, by simp⟩
  | absent, _ => Does.pure ⟨rfl, by simp⟩
  | text _, _ => Does.pure ⟨rfl, by simp⟩
  | number _, _ => Does.pure ⟨rfl, by simp⟩
  | flag _, _ => Does.pure ⟨rfl, by simp⟩
  | literal _, _ => Does.pure ⟨rfl, by simp⟩

theorem explained_visitItems (o : Outline) (l : ListAddress) (j : Nat) :
    ∀ os, (∀ k n, os[k]? = some n → n.isNode = true → o.nodeAt? (l.item (j + k)) = some n) →
      (r.visitItems l j os).Does fun visited log =>
        List.Forall₂ (fun item became => Became log (l.item item.2) item.1 became) (os.zipIdx j) visited ∧
        ∀ e ∈ log, Explained o log e
  | [], _ => Does.pure ⟨.nil, by simp⟩
  | n :: os, h => by
    refine (explained_visit o (l.item j) n (h 0 n rfl)).bind fun first log hfirst => ?_
    have hos : ∀ k n, os[k]? = some n → n.isNode = true → o.nodeAt? (l.item (j + 1 + k)) = some n := by
      intro k n hk hnode
      rw [show j + 1 + k = j + (k + 1) by omega]
      exact h (k + 1) n hk hnode
    refine (explained_visitItems o l (j + 1) os hos).bind fun rest log' hrest => Does.pure ?_
    rw [List.append_nil]
    refine ⟨.cons (hfirst.1.mono (List.subset_append_left ..)) ?_, explained_append hfirst.2 hrest.2⟩
    exact hrest.1.imp fun _ _ h => h.mono (List.subset_append_right ..)

theorem explained_visitParts (o : Outline) (p : Address) {kind : String} {place : Option Span} {tags : List Tag}
    {all : List (String × Outline)} (hp : o.nodeAt? p = some (node kind place tags all))
    (owner : List (String × Outline) → Outline) (i : Nat) (done : List (String × Outline)) :
    ∀ parts, (∀ k part, parts[k]? = some part → all[i + k]? = some part) →
      (r.visitParts p kind owner i done parts).Does fun parts' log =>
        ∃ now, parts' = done ++ now.flatten ∧
          List.Forall₂ (fun part now => PartBecame log p kind part.2 part.1 now) (parts.zipIdx i) now ∧
          ∀ e ∈ log, Explained o log e
  | [], _ => Does.pure ⟨[], by simp, .nil, by simp⟩
  | (name, c) :: rest, h => by
    have hc : all[i]? = some (name, c) := h 0 _ rfl
    have hrest : ∀ k part, rest[k]? = some part → all[i + 1 + k]? = some part := by
      intro k part hk
      rw [show i + 1 + k = i + (k + 1) by omega]
      exact h (k + 1) part hk
    cases c with
    | list items =>
      have hitems : ∀ k n, items[k]? = some n → n.isNode = true →
          o.nodeAt? (ListAddress.item ⟨p, i⟩ (0 + k)) = some n := by
        intro k n hk hn
        rw [Nat.zero_add]
        exact nodeAt?_item hp hc hk hn
      rw [visitParts_list]
      refine (explained_visitItems o _ 0 items hitems).bind fun visited log hvisited => ?_
      refine (r.does_hand _ _ _ _).bind fun back log' hback => ?_
      subst hback
      refine (explained_visitParts o p hp owner (i + 1) _ rest hrest).imp fun parts' log'' hrest => ?_
      obtain ⟨now, rfl, hnow, hlog''⟩ := hrest
      rw [← List.append_assoc]
      refine ⟨[(name, list back)] :: now, by simp, .cons ?_ ?_, explained_append (explained_add hvisited.2 ?_) hlog''⟩
      · exact ⟨_, back, List.mem_append_left _ (List.mem_append_right _ (List.mem_singleton_self _)), rfl⟩
      · exact hnow.imp fun _ _ h => h.mono (List.subset_append_right ..)
      · exact ⟨items, visited, listAt?_part hp hc, hvisited.1.imp fun _ _ h => h.mono (List.subset_append_left ..), rfl⟩
    | _ =>
      rw [visitParts_single _ _ _ _ _ _ _ rfl]
      refine (explained_visit o _ _ fun hn => nodeAt?_part hp hc hn).bind fun visited log hvisited => ?_
      refine (explained_visitParts o p hp owner (i + 1) _ rest hrest).imp fun parts' log' hrest => ?_
      obtain ⟨now, rfl, hnow, hlog'⟩ := hrest
      refine ⟨visited.2.part name :: now, by simp, .cons ?_ ?_, explained_append hvisited.2 hlog'⟩
      · exact ⟨visited, hvisited.1.mono (List.subset_append_left ..), rfl⟩
      · exact hnow.imp fun _ _ h => h.mono (List.subset_append_right ..)

end

/-- Nothing is done: every node stays as it is and every list gets its items back. -/
structure IsIdle (r : Rewriter σ) : Prop where
  judge : ∀ n s, ((r.judge n).run s).1 = .one n
  statements : ∀ owner name items s, ((r.statements owner name items).run s).1 = items
  others : ∀ owner name items s, ((r.others owner name items).run s).1 = items

variable {r}

theorem IsIdle.rewrite (h : r.IsIdle) (owner : Outline) (name : ListName) (items : List Outline) (s : σ) :
    ((r.rewrite owner name items).run s).1 = items := by
  rw [Rewriter.rewrite]
  split
  · exact h.statements owner name items s
  · exact h.others owner name items s

mutual

theorem IsIdle.visit (h : r.IsIdle) (p : Address) : ∀ o, (r.visit p o).Does fun became _ => became = (o, .one o)
  | node kind place tags parts => by
    refine (h.visitParts p kind (node kind place tags) 0 [] parts).bind fun parts' log hparts => ?_
    rw [hparts, List.nil_append]
    refine (settle_stays (h.judge _) p).bind fun verdict log' hverdict => Does.pure ?_
    rw [hverdict]
  | .list _ => Does.pure rfl
  | absent => Does.pure rfl
  | text _ => Does.pure rfl
  | number _ => Does.pure rfl
  | flag _ => Does.pure rfl
  | literal _ => Does.pure rfl

theorem IsIdle.visitItems (h : r.IsIdle) (l : ListAddress) (j : Nat) :
    ∀ os, (r.visitItems l j os).Does fun visited _ => visited = os.map fun o => (o, .one o)
  | [] => Does.pure rfl
  | o :: os => by
    refine (h.visit (l.item j) o).bind fun first log hfirst => ?_
    refine (h.visitItems l (j + 1) os).bind fun rest log' hrest => Does.pure ?_
    rw [hfirst, hrest, List.map_cons]

theorem IsIdle.visitParts (h : r.IsIdle) (p : Address) (kind : String) (owner : List (String × Outline) → Outline)
    (i : Nat) (done : List (String × Outline)) :
    ∀ parts, (r.visitParts p kind owner i done parts).Does fun parts' _ => parts' = done ++ parts
  | [] => Does.pure (List.append_nil done).symm
  | (name, o) :: rest => by
    cases o with
    | list items =>
      rw [visitParts_list]
      refine (h.visitItems _ 0 items).bind fun visited log hvisited => ?_
      have hgiven : (visited.flatMap fun v => v.2.items) = items := by
        rw [hvisited, List.flatMap_map]
        exact List.flatMap_singleton' items
      rw [hgiven]
      refine (hand_gives (h.rewrite _ _ _) _).bind fun back log' hback => ?_
      subst hback
      exact (h.visitParts p kind owner (i + 1) _ rest).imp fun parts' _ hparts => by simp [hparts]
    | _ =>
      rw [visitParts_single _ _ _ _ _ _ _ rfl]
      refine (h.visit _ _).bind fun visited log hvisited => ?_
      subst hvisited
      exact (h.visitParts p kind owner (i + 1) _ rest).imp fun parts' _ hparts => by simp [hparts, Verdict.part]

end

/-- What a walk over a tree is, from what comes of it, the states before and after it, and what happened. -/
structure Walked (r : Rewriter σ) (o : Outline) (s : σ) (became : Outline × Verdict) (s' : σ) (log : List Event) :
    Prop where
  /-- The lists of the tree, and no others, are handed out, each as what it is. -/
  lists : ∀ l name, (∃ given back, .handed l name given back ∈ log) ↔ ∃ items, o.listAt? l = some (name, items)
  nodes : ∀ a, (∃ n verdict, .judged a n verdict ∈ log) ↔ ∃ n, o.nodeAt? a = some n
  listsOnce : (log.filterMap fun e => e.stop.list?).Nodup
  nodesOnce : (log.filterMap fun e => e.stop.node?).Nodup
  innerFirst : (log.filterMap fun e => e.stop.list?).Pairwise fun l l' => ¬ l'.IsWithin l
  inOrder : (log.filterMap fun e => e.stop.list?).Pairwise fun l l' => l.owner = l'.owner → l.part < l'.part
  explained : ∀ e ∈ log, Explained o log e
  calls : r.AllCalls log s s'
  root : Became log [] o became
  idle : r.IsIdle → became = (o, .one o)

/-- Whatever is done with nodes and lists, a walk judges every node of a tree once and hands out every list once, what is
in them first. A list then holds what came back for it, and if nothing is done the tree stays as it is. -/
theorem walked_visit (o : Outline) (s : σ) :
    r.Walked o s (r.visit [] o s).1.1 (r.visit [] o s).1.2 (r.visit [] o s).2 := by
  have hstops : (r.visit [] o s).2.map Event.stop = o.stops [] := stops_visit r [] o s
  obtain ⟨hbecame, hexplained⟩ := explained_visit r o [] o (fun hn => by rw [nodeAt?, if_pos hn]) s
  have hlists : ((r.visit [] o s).2.filterMap fun e => e.stop.list?).Pairwise
      fun l l' => Precedes l.path l'.path := by
    have h := ordered_lists o
    rwa [← hstops, List.filterMap_map] at h
  have hnodes : ((r.visit [] o s).2.filterMap fun e => e.stop.node?).Pairwise Precedes := by
    have h := ordered_nodes o
    rwa [← hstops, List.filterMap_map] at h
  refine
    { lists := fun l name => ⟨?_, ?_⟩
      nodes := fun a => ⟨?_, ?_⟩
      listsOnce := hlists.imp fun {l l'} h heq => ?_
      nodesOnce := hnodes.imp fun {a b} h heq => ?_
      innerFirst := hlists.imp fun {l l'} h hwithin => h.asymm hwithin.precedes
      inOrder := hlists.imp part_lt_of_precedes
      explained := hexplained
      calls := isCalls_visit [] o s
      root := hbecame
      idle := fun hidle => hidle.visit [] o s }
  · rintro ⟨given, back, he⟩
    obtain ⟨items, visited, hl, -⟩ := hexplained _ he
    exact ⟨items, hl⟩
  · rintro ⟨items, hl⟩
    have hmem := listStop_mem hl
    rw [← hstops, List.mem_map] at hmem
    obtain ⟨e, he, hstop⟩ := hmem
    cases e with
    | handed l' name' given back =>
      cases hstop
      exact ⟨given, back, he⟩
    | judged => cases hstop
  · rintro ⟨n, verdict, he⟩
    obtain ⟨kind, place, tags, parts, now, hn, -⟩ := hexplained _ he
    exact ⟨_, hn⟩
  · rintro ⟨n, hn⟩
    have hmem := nodeStop_mem hn
    rw [← hstops, List.mem_map] at hmem
    obtain ⟨e, he, hstop⟩ := hmem
    cases e with
    | handed => cases hstop
    | judged a' n' verdict =>
      cases hstop
      exact ⟨n', verdict, he⟩
  · subst heq
    exact h.asymm h
  · subst heq
    exact h.asymm h

end Rewriter

namespace Stop

def name? : Stop → Option ListName
  | list _ name => some name
  | node _ => none

end Stop

/-- Which lists are handed out, and in which order, does not depend on what is done with nodes and lists. -/
theorem Walk.lists_run (w : Walk) (t : Tree) : (w.run t).2 = (t.outline.spelledOut.stops []).filterMap Stop.name? := by
  have hstops : (w.rewriter.visit [] t.outline.spelledOut ()).2.map Event.stop = t.outline.spelledOut.stops [] :=
    w.rewriter.stops_visit [] t.outline.spelledOut ()
  rw [← hstops, List.filterMap_map, Walk.run]
  refine congrArg (fun f => List.filterMap f _) (funext fun e => ?_)
  cases e with
  | handed => rfl
  | judged => rfl

end TwinModule
