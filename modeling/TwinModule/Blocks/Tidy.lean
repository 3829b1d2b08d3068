import TwinModule.Blocks.Map
/-!
Tidying blocks: taking out comments, taking out what was erased, and filling blocks that need a statement and
have none.
-/
set_option autoImplicit false

namespace TwinModule

def Handler.isReal : Handler → Bool
  | .comment _ => false
  | .handler .. => true

def Case.isReal : Case → Bool
  | .comment _ => false
  | .case .. => true

namespace BlockMap

def strip : BlockMap where
  block _ _ ss := ss.filter Stmt.isReal
  handlers hs := hs.filter Handler.isReal
  cases cs := cs.filter Case.isReal

def dropErased : BlockMap where
  block _ _ ss := ss.filter fun s => !s.isErased
  handlers hs := hs
  cases cs := cs

/-- The statement that a block without one needs: every body but that of a file, and the last block of a `try`
without handlers. -/
def filler? : Owner → Slot → Option Stmt
  | .item span _, .body => some (.pass span.forChild)
  | .item span true, .finalbody => some (.pass span.forChild)
  | _, _ => none

/-- A statement in every block that needs one. -/
def pad : BlockMap where
  block owner slot ss := if ss.any Stmt.isReal then ss else ss ++ (filler? owner slot).toList
  handlers hs := hs
  cases cs := cs

theorem strip_block_idem (o : Owner) (slot : Slot) (ss : List Stmt) :
    strip.block o slot (strip.block o slot ss) = strip.block o slot ss := by
  simp [strip]

theorem pad_block_any (span : Span) (isBareTry : Bool) (ss : List Stmt) :
    (pad.block (.item span isBareTry) .body ss).any Stmt.isReal = true := by
  simp only [pad]
  split
  · assumption
  · simp [filler?, Stmt.pass, Stmt.isReal, Stmt.isComment]

theorem pad_block_idem (o : Owner) (slot : Slot) (ss : List Stmt) :
    pad.block o slot (pad.block o slot ss) = pad.block o slot ss := by
  simp only [pad]
  split
  · simp_all
  · rename_i h
    cases hf : filler? o slot with
    | none => simp [h]
    | some s =>
      have : s.isReal = true := by
        unfold filler? at hf
        split at hf <;> simp at hf <;> subst hf <;> rfl
      simp [this]

end BlockMap

namespace Tree

def strip (t : Tree) : Tree := t.mapBlocks .strip
def dropErased (t : Tree) : Tree := t.mapBlocks .dropErased
def pad (t : Tree) : Tree := t.mapBlocks .pad

/-- The tree without erased statements, every block having what it needs. -/
def finalize (t : Tree) : Tree := t.dropErased.pad

end Tree

namespace Span

/-- The span with what it lacks taken from the node around it. -/
def orElse (s outer : Span) : Span :=
  ⟨s.line.or outer.line, s.column.or outer.column, s.endLine.or outer.endLine, s.endColumn.or outer.endColumn⟩

@[simp] theorem orElse_unset (s : Span) : s.orElse unset = s := by
  cases s; simp [orElse, unset]

end Span

mutual

/-- The statement with all spans complete, given the span of what is around it. -/
def Stmt.locate (outer : Span) : Stmt → Stmt
  | .simple info what => .simple { info with span := info.span.orElse outer } what
  | .comment c => .comment { c with span := c.span.orElse outer }
  | .block info head body =>
    .block { info with span := info.span.orElse outer } head (locateStmts (info.span.orElse outer) body)
  | .branch info head body orelse =>
    .branch { info with span := info.span.orElse outer } head (locateStmts (info.span.orElse outer) body)
      (locateStmts (info.span.orElse outer) orelse)
  | .attempt info isGroup body handlers orelse finalbody =>
    .attempt { info with span := info.span.orElse outer } isGroup (locateStmts (info.span.orElse outer) body)
      (locateHandlers (info.span.orElse outer) handlers) (locateStmts (info.span.orElse outer) orelse)
      (locateStmts (info.span.orElse outer) finalbody)
  | .select info subject cases =>
    .select { info with span := info.span.orElse outer } subject (locateCases (info.span.orElse outer) cases)

def locateStmts (outer : Span) : List Stmt → List Stmt
  | [] => []
  | s :: ss => s.locate outer :: locateStmts outer ss

def locateHandlers (outer : Span) : List Handler → List Handler
  | [] => []
  | .comment c :: hs => .comment { c with span := c.span.orElse outer } :: locateHandlers outer hs
  | .handler span type name body :: hs =>
    .handler (span.orElse outer) type name (locateStmts (span.orElse outer) body) :: locateHandlers outer hs

def locateCases (outer : Span) : List Case → List Case
  | [] => []
  | .comment c :: cs => .comment { c with span := c.span.orElse outer } :: locateCases outer cs
  | .case lines pattern guard body :: cs =>
    .case lines pattern guard (locateStmts outer body) :: locateCases outer cs

end

/-- Where nodes without any span around them are. -/
def Span.origin : Span := ⟨some 1, some 0, some 1, some 0⟩

namespace Tree

def locate : Tree → Tree
  | file body => file (locateStmts Span.origin body)
  | module_ info name body =>
    module_ { info with span := info.span.orElse Span.origin } name
      (locateStmts (info.span.orElse Span.origin) body)

/-- The tree without comments, every block having what it needs and every node a place. -/
def compilable (t : Tree) : Tree := t.strip.pad.locate

end Tree

end TwinModule
