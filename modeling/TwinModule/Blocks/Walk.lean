import TwinModule.Syntax.Outline.Read
/-!
Walking every list of a tree. A node is judged after everything in it has been visited, and is then kept or replaced,
dropped, or multiplied; a list is handed out once all its items have been visited, and is replaced by what comes back.
The walk goes over outlines, in which all nodes are alike: what is in a part of a node is a node, a list or data, and
data in a list stays as it is.
-/
set_option autoImplicit false

namespace TwinModule

/-- A list of a node: what the node is called, and the list in it. -/
structure ListName where
  owner : String
  field : String
  deriving DecidableEq, Repr

namespace ListName

/-- Whether the list is a block of statements. -/
def isBlock (l : ListName) : Bool := ["body", "orelse", "finalbody"].contains l.field

end ListName

/-- From a node to one in it: the number of the part, and of the item if the part is a list. -/
structure Step where
  part : Nat
  item : Option Nat
  deriving DecidableEq, Repr

/-- The way from the root of a tree to a node. -/
abbrev Address := List Step

/-- Where a list is: the node that it belongs to, and the number of the part that it is. -/
structure ListAddress where
  owner : Address
  part : Nat
  deriving DecidableEq, Repr

def ListAddress.item (l : ListAddress) (j : Nat) : Address := l.owner ++ [⟨l.part, some j⟩]

/-- What becomes of a node that has been visited: the node or another one, nothing, or a list. -/
inductive Verdict where
  | one (o : Outline)
  | none
  | several (os : List Outline)

namespace Verdict

/-- What is put into a list in place of the node. -/
def items : Verdict → List Outline
  | one o => [o]
  | none => []
  | several os => os

/-- The part that held the node. Without anything to hold, there is no such part. -/
def part (name : String) : Verdict → List (String × Outline)
  | one o => [(name, o)]
  | none => []
  | several os => [(name, .list os)]

end Verdict

/-- What happens on a walk. -/
inductive Event where
  /-- A list with the given items was handed out, and others came back. -/
  | handed (list : ListAddress) (name : ListName) (given back : List Outline)
  /-- A node in which everything had been visited was judged. -/
  | judged (at_ : Address) (node : Outline) (verdict : Verdict)

/-- What there is to do on a walk, which may depend on all that was done before. A list comes with the node that it is
in, as far as that has been visited. -/
structure Rewriter (σ : Type) where
  judge : Outline → StateM σ Verdict
  statements : Outline → ListName → List Outline → StateM σ (List Outline)
  others : Outline → ListName → List Outline → StateM σ (List Outline)

/-- A part of a walk: what comes of it, the state after it, and what happened, in order. -/
def Walking (σ α : Type) : Type := σ → (α × σ) × List Event

namespace Walking

variable {σ α β : Type}

protected def pure (a : α) : Walking σ α := fun s => ((a, s), [])

protected def bind (x : Walking σ α) (f : α → Walking σ β) : Walking σ β := fun s =>
  let first := x s
  let rest := f first.1.1 first.1.2
  (rest.1, first.2 ++ rest.2)

instance : Monad (Walking σ) where
  pure := Walking.pure
  bind := Walking.bind

/-- Something that is done, and is noted with what comes of it. -/
def noted (x : StateM σ α) (event : α → Event) : Walking σ α := fun s =>
  let done := x.run s
  (done, [event done.1])

end Walking

namespace Rewriter

variable {σ : Type}

def rewrite (r : Rewriter σ) (owner : Outline) (name : ListName) (items : List Outline) : StateM σ (List Outline) :=
  if name.isBlock then r.statements owner name items else r.others owner name items

def hand (r : Rewriter σ) (at_ : ListAddress) (owner : Outline) (name : ListName) (items : List Outline) :
    Walking σ (List Outline) :=
  .noted (r.rewrite owner name items) (.handed at_ name items)

def settle (r : Rewriter σ) (at_ : Address) (node : Outline) : Walking σ Verdict :=
  .noted (r.judge node) (.judged at_ node)

open Outline

mutual

/-- A node as it is when everything in it has been visited, and what becomes of it. What is no node is not visited. -/
def visit (r : Rewriter σ) (at_ : Address) : Outline → Walking σ (Outline × Verdict)
  | node kind place tags parts => do
    let parts ← visitParts r at_ kind (node kind place tags) 0 [] parts
    let verdict ← r.settle at_ (node kind place tags parts)
    return (node kind place tags parts, verdict)
  | o => return (o, .one o)

/-- The items of a list from a number on, each as it is when it has been visited, and what becomes of it. -/
def visitItems (r : Rewriter σ) (at_ : ListAddress) (j : Nat) :
    List Outline → Walking σ (List (Outline × Verdict))
  | [] => return []
  | o :: os => do
    let first ← visit r (at_.item j) o
    let rest ← visitItems r at_ (j + 1) os
    return first :: rest

/-- The parts of a node from a number on, given those that are done and how a node is made of its parts. -/
def visitParts (r : Rewriter σ) (at_ : Address) (kind : String) (owner : List (String × Outline) → Outline) (i : Nat)
    (done : List (String × Outline)) : List (String × Outline) → Walking σ (List (String × Outline))
  | [] => return done
  | (name, list items) :: rest => do
    let visited ← visitItems r ⟨at_, i⟩ 0 items
    let whole := owner (done ++ (name, list (visited.map Prod.fst)) :: rest)
    let back ← r.hand ⟨at_, i⟩ whole ⟨kind, name⟩ (visited.flatMap fun v => v.2.items)
    visitParts r at_ kind owner (i + 1) (done ++ [(name, list back)]) rest
  | (name, o) :: rest => do
    let (_, verdict) ← visit r (at_ ++ [⟨i, none⟩]) o
    visitParts r at_ kind owner (i + 1) (done ++ verdict.part name) rest

end

end Rewriter

namespace Outline

/-- The parts that hold operators, or say how a name is used: what is in them are nodes too. -/
def wordParts : List String := ["op", "ops", "ctx"]

def word : Outline → Outline
  | text s => inner s []
  | o => o

def words : Outline → Outline
  | list items => list (items.map word)
  | o => word o

/-- The parts in the order in which they are written, for a body that is shown first. -/
def arranged : List (String × Outline) → List (String × Outline)
  | ("body", body) :: rest =>
    let isBefore (part : String × Outline) := ["name", "args", "bases", "keywords", "items"].contains part.1
    rest.takeWhile isBefore ++ ("body", body) :: rest.dropWhile isBefore
  | parts => parts

mutual

/-- The outline with a node for every word and the parts of each node in order. -/
def spelledOut : Outline → Outline
  | list items => list (spelledOutItems items)
  | node kind place tags parts => node kind place tags (arranged (spelledOutParts parts))
  | absent => absent
  | text s => text s
  | number n => number n
  | flag b => flag b
  | literal v => literal v

def spelledOutItems : List Outline → List Outline
  | [] => []
  | o :: os => o.spelledOut :: spelledOutItems os

def spelledOutParts : List (String × Outline) → List (String × Outline)
  | [] => []
  | (name, o) :: rest =>
    (name, if wordParts.contains name then o.words else o.spelledOut) :: spelledOutParts rest

end

end Outline

inductive Fate where
  | keep | drop | twice
  deriving DecidableEq, Repr

/-- A walk that goes by what nodes and lists are called. -/
structure Walk where
  fate : String → Fate
  replace : Outline → ListName → List Outline → List Outline

namespace Walk

def judge (w : Walk) : Outline → Verdict
  | .node kind place tags parts =>
    match w.fate kind with
    | .keep => .one (.node kind place tags parts)
    | .drop => .none
    | .twice => .several [.node kind place tags parts, .node kind place tags parts]
  | o => .one o

def rewriter (w : Walk) : Rewriter Unit where
  judge o := pure (w.judge o)
  statements owner name items := pure (w.replace owner name items)
  others owner name items := pure (w.replace owner name items)

/-- The tree after the walk, and the lists in the order in which they were handed out. -/
def run (w : Walk) (t : Tree) : Tree × List ListName :=
  let walked := w.rewriter.visit [] t.outline.spelledOut ()
  (walked.1.1.1.tree, walked.2.filterMap fun
    | .handed _ name _ _ => some name
    | .judged .. => none)

end Walk

end TwinModule
