import TwinModule.Syntax.Stmt
/-!
The blocking form of a tree. Nothing is awaited, nothing is `async`, and the names of the asynchronous protocols
become those of the plain ones. Members and functions are only renamed for the special methods, names only where
they are read.
-/
set_option autoImplicit false

namespace TwinModule

namespace Blocking

/-- The special methods and their plain counterparts. -/
def methods : List (String × String) :=
  [("__aenter__", "__enter__"), ("__aexit__", "__exit__"), ("__aiter__", "__iter__"), ("__anext__", "__next__")]

/-- The built-in names and their plain counterparts. -/
def builtins : List (String × String) :=
  [("aiter", "iter"), ("anext", "next"), ("StopAsyncIteration", "StopIteration")]

def rename (table : List (String × String)) (name : String) : String := (table.lookup name).getD name

theorem rename_rename_methods (name : String) : rename methods (rename methods name) = rename methods name := by
  simp only [rename, methods, List.lookup_cons, List.lookup_nil]
  by_cases h1 : name = "__aenter__"
  · subst h1; decide
  · by_cases h2 : name = "__aexit__"
    · subst h2; decide
    · by_cases h3 : name = "__aiter__"
      · subst h3; decide
      · by_cases h4 : name = "__anext__"
        · subst h4; decide
        · simp [beq_eq_false_iff_ne.mpr h1, beq_eq_false_iff_ne.mpr h2, beq_eq_false_iff_ne.mpr h3,
            beq_eq_false_iff_ne.mpr h4]

mutual

def expr : Expr → Expr
  | .boolOp op values => .boolOp op (exprs values)
  | .walrus target value => .walrus (expr target) (expr value)
  | .binary left op right => .binary (expr left) op (expr right)
  | .unary op operand => .unary op (expr operand)
  | .lambda ps body => .lambda (params ps) (expr body)
  | .ifElse test body orelse => .ifElse (expr test) (expr body) (expr orelse)
  | .dict keys values => .dict (optionals keys) (exprs values)
  | .set elements => .set (exprs elements)
  | .listComp element cs => .listComp (expr element) (clauses cs)
  | .setComp element cs => .setComp (expr element) (clauses cs)
  | .dictComp key value cs => .dictComp (expr key) (expr value) (clauses cs)
  | .generator element cs => .generator (expr element) (clauses cs)
  | .await value => expr value
  | .yield value => .yield (optional value)
  | .yieldFrom value => .yieldFrom (expr value)
  | .compare left ops rights => .compare (expr left) ops (exprs rights)
  | .call callee args ks => .call (expr callee) (exprs args) (keywords ks)
  | .formatted value conversion spec => .formatted (expr value) conversion (optional spec)
  | .format parts => .format (exprs parts)
  | .literal value mark => .literal value mark
  | .member value name usage => .member (expr value) (rename methods name) usage
  | .index value key usage => .index (expr value) (expr key) usage
  | .starred value usage => .starred (expr value) usage
  | .name id .load => .name (rename builtins id) .load
  | .name id usage => .name id usage
  | .list elements usage => .list (exprs elements) usage
  | .tuple elements usage => .tuple (exprs elements) usage
  | .slice lower upper step => .slice (optional lower) (optional upper) (optional step)
  | .gap owner role => .gap owner role
  | .several items => .several (exprs items)

def exprs : List Expr → List Expr
  | [] => []
  | e :: es => expr e :: exprs es

def optional : Option Expr → Option Expr
  | none => none
  | some e => some (expr e)

def optionals : List (Option Expr) → List (Option Expr)
  | [] => []
  | e :: es => optional e :: optionals es

def clauses : List Clause → List Clause
  | [] => []
  | .mk target iter conditions _ :: cs => .mk (expr target) (expr iter) (exprs conditions) false :: clauses cs

def keywords : List Keyword → List Keyword
  | [] => []
  | .mk name value :: ks => .mk name (expr value) :: keywords ks

def params : Params → Params
  | .mk posOnly args variadic kwOnly kwDefaults kwVariadic defaults =>
    .mk (paramList posOnly) (paramList args) (optionalParam variadic) (paramList kwOnly) (optionals kwDefaults)
      (optionalParam kwVariadic) (exprs defaults)

def param : Param → Param
  | .mk name type typeComment => .mk name (optional type) typeComment

def paramList : List Param → List Param
  | [] => []
  | p :: ps => param p :: paramList ps

def optionalParam : Option Param → Option Param
  | none => none
  | some p => some (param p)

end

mutual

def pattern : Pattern → Pattern
  | .value value => .value (expr value)
  | .singleton value => .singleton value
  | .sequence items => .sequence (patterns items)
  | .mapping keys items rest => .mapping (exprs keys) (patterns items) rest
  | .class_ callee items names named => .class_ (expr callee) (patterns items) names (patterns named)
  | .star name => .star name
  | .as_ none name => .as_ none name
  | .as_ (some item) name => .as_ (some (pattern item)) name
  | .or_ items => .or_ (patterns items)

def patterns : List Pattern → List Pattern
  | [] => []
  | p :: ps => pattern p :: patterns ps

end

def simple : Simple → Simple
  | .return_ value => .return_ (value.map expr)
  | .delete targets => .delete (exprs targets)
  | .assign targets value typeComment => .assign (exprs targets) (expr value) typeComment
  | .augAssign target op value => .augAssign (expr target) op (expr value)
  | .annAssign target type value isPlain => .annAssign (expr target) (expr type) (value.map expr) isPlain
  | .raise exception cause => .raise (exception.map expr) (cause.map expr)
  | .assert test message => .assert (expr test) (message.map expr)
  | .expr value => .expr (expr value)
  | s => s

def decorator (d : Decorator) : Decorator := { d with expr := expr d.expr }

def withItem (i : WithItem) : WithItem := ⟨expr i.context, i.target.map expr⟩

def blockHead : BlockHead → BlockHead
  | .function _ name ps decorators returns typeComment =>
    .function false (rename methods name) (params ps) (decorators.map decorator) (returns.map expr) typeComment
  | .class_ name bases ks decorators => .class_ name (exprs bases) (keywords ks) (decorators.map decorator)
  | .with_ _ items typeComment => .with_ false (items.map withItem) typeComment
  | .module_ name => .module_ name

def branchHead : BranchHead → BranchHead
  | .for_ _ target iter typeComment => .for_ false (expr target) (expr iter) typeComment
  | .while_ test => .while_ (expr test)
  | .if_ test => .if_ (expr test)

end Blocking

def BlockHead.isAsync : BlockHead → Bool
  | function isAsync .. => isAsync
  | with_ isAsync .. => isAsync
  | _ => false

def BranchHead.isAsync : BranchHead → Bool
  | for_ isAsync .. => isAsync
  | _ => false

/-- What a statement that replaces another one carries: a place, even if the other one had none. -/
def Info.renewed (info : Info) (isNew : Bool) : Info :=
  if isNew then { info with span := info.span.forChild } else info

theorem tags_renewed (info : Info) (isNew : Bool) : (info.renewed isNew).tags = info.tags := by
  cases isNew <;> rfl

mutual

def Stmt.blocking : Stmt → Stmt
  | .simple info what => .simple info (Blocking.simple what)
  | .comment c => .comment c
  | .block info head body => .block (info.renewed head.isAsync) (Blocking.blockHead head) (blockingStmts body)
  | .branch info head body orelse =>
    .branch (info.renewed head.isAsync) (Blocking.branchHead head) (blockingStmts body) (blockingStmts orelse)
  | .attempt info isGroup body handlers orelse finalbody =>
    .attempt info isGroup (blockingStmts body) (blockingHandlers handlers) (blockingStmts orelse)
      (blockingStmts finalbody)
  | .select info subject cases => .select info (Blocking.expr subject) (blockingCases cases)

def blockingStmts : List Stmt → List Stmt
  | [] => []
  | s :: ss => s.blocking :: blockingStmts ss

def blockingHandlers : List Handler → List Handler
  | [] => []
  | .comment c :: hs => .comment c :: blockingHandlers hs
  | .handler span type name body :: hs =>
    .handler span (type.map Blocking.expr) name (blockingStmts body) :: blockingHandlers hs

def blockingCases : List Case → List Case
  | [] => []
  | .comment c :: cs => .comment c :: blockingCases cs
  | .case lines pattern guard body :: cs =>
    .case lines (Blocking.pattern pattern) (guard.map Blocking.expr) (blockingStmts body) :: blockingCases cs

end

def Tree.blocking (t : Tree) : Tree := t.withBody (blockingStmts t.body)

theorem blockingStmts_eq_map (ss : List Stmt) : blockingStmts ss = ss.map Stmt.blocking := by
  induction ss with
  | nil => simp [blockingStmts]
  | cons s ss ih => simp [blockingStmts, ih]

end TwinModule
