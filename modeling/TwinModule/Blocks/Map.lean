import TwinModule.Syntax.Stmt
/-!
Replacing every block of a tree as a whole. Blocks inside the items of a block come before the block itself, and
the blocks of one statement in the order in which they are written.
-/
set_option autoImplicit false

namespace TwinModule

inductive Owner where
  | file
  /-- A statement, handler or case with a span; a `try` may be without handlers. -/
  | item (span : Span) (isBareTry : Bool)
  deriving DecidableEq, Repr

/-- Which block of its owner a block is. -/
inductive Slot where
  | body | orelse | finalbody
  deriving DecidableEq, Repr

/-- What becomes of each block, and of the list of handlers or cases of a statement. -/
structure BlockMap where
  block : Owner → Slot → List Stmt → List Stmt
  handlers : List Handler → List Handler
  cases : List Case → List Case

def BlockMap.id : BlockMap := ⟨fun _ _ ss => ss, fun hs => hs, fun cs => cs⟩

mutual

def Stmt.mapBlocks (w : BlockMap) : Stmt → Stmt
  | .simple info what => .simple info what
  | .comment c => .comment c
  | .block info head body => .block info head (w.block (.item info.span false) .body (mapStmts w body))
  | .branch info head body orelse =>
    .branch info head (w.block (.item info.span false) .body (mapStmts w body))
      (w.block (.item info.span false) .orelse (mapStmts w orelse))
  | .attempt info isGroup body handlers orelse finalbody =>
    let mapped := w.handlers (mapHandlers w handlers)
    let owner := Owner.item info.span (!isGroup && mapped.isEmpty)
    .attempt info isGroup (w.block owner .body (mapStmts w body)) mapped
      (w.block owner .orelse (mapStmts w orelse)) (w.block owner .finalbody (mapStmts w finalbody))
  | .select info subject cases => .select info subject (w.cases (mapCases w cases))

def mapStmts (w : BlockMap) : List Stmt → List Stmt
  | [] => []
  | s :: ss => s.mapBlocks w :: mapStmts w ss

def mapHandlers (w : BlockMap) : List Handler → List Handler
  | [] => []
  | .comment c :: hs => .comment c :: mapHandlers w hs
  | .handler span type name body :: hs =>
    .handler span type name (w.block (.item span false) .body (mapStmts w body)) :: mapHandlers w hs

def mapCases (w : BlockMap) : List Case → List Case
  | [] => []
  | .comment c :: cs => .comment c :: mapCases w cs
  | .case lines pattern guard body :: cs =>
    .case lines pattern guard (w.block (.item Span.unset false) .body (mapStmts w body)) :: mapCases w cs

end

def Tree.mapBlocks (w : BlockMap) : Tree → Tree
  | .file body => .file (w.block .file .body (mapStmts w body))
  | .module_ info name body => .module_ info name (w.block (.item info.span false) .body (mapStmts w body))

@[simp] theorem mapStmts_nil (w : BlockMap) : mapStmts w [] = [] := by simp [mapStmts]

theorem mapStmts_eq_map (w : BlockMap) (ss : List Stmt) :
    mapStmts w ss = ss.map (Stmt.mapBlocks w) := by
  induction ss with
  | nil => simp [mapStmts]
  | cons s ss ih => simp [mapStmts, ih]

end TwinModule
