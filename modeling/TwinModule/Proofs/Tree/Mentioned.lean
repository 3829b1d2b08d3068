import TwinModule.Proofs.Tree.Synchronous
import TwinModule.Text.Split
/-!
The names in a tree, in the order in which they stand there: those that are read, and those that are bound. The blocking
form of a tree has the same names in the same places, but for those of the asynchronous protocols: wherever one of the
built-in names is read it is renamed, whether the tree binds it or not, and where it is bound it stays.
-/
set_option autoImplicit false

namespace TwinModule

/-- A name where it stands in a tree. -/
inductive Mention where
  /-- A name whose value is asked for. -/
  | read (name : String)
  /-- What a function is called. -/
  | function (name : String)
  /-- A name that is bound in another way: it is assigned to, or it is what a class, a parameter or an import is called,
  or what something is called by `as` or in a pattern. -/
  | bound (name : String)
  deriving DecidableEq, Repr

namespace Mention

/-- The name that is read. -/
def read? : Mention → Option String
  | read name => some name
  | _ => none

/-- The name that is bound. -/
def bound? : Mention → Option String
  | read _ => none
  | function name => some name
  | bound name => some name

def ofBound? (name : Option String) : List Mention := name.toList.map bound

/-- What becomes of a name in the blocking form. -/
def blocking : Mention → Mention
  | read name => read (Blocking.rename Blocking.builtins name)
  | function name => function (Blocking.rename Blocking.methods name)
  | bound name => bound name

@[simp] theorem map_ofBound? (name : Option String) : (ofBound? name).map blocking = ofBound? name := by
  cases name <;> rfl

end Mention

open Mention

/-- What an import binds: the name after `as`, or else the first of the names that dots divide. -/
def Alias.mentions (a : Alias) : List Mention :=
  match a.asName with
  | some name => [bound name]
  | none => if a.name = "*" then [] else ofBound? (Text.parts '.' a.name).head?

mutual

def Expr.mentions : Expr → List Mention
  | .boolOp _ values => exprsMentions values
  | .walrus target value => target.mentions ++ value.mentions
  | .binary left _ right => left.mentions ++ right.mentions
  | .unary _ operand => operand.mentions
  | .lambda params body => params.mentions ++ body.mentions
  | .ifElse test body orelse => body.mentions ++ test.mentions ++ orelse.mentions
  | .dict keys values => optionalsMentions keys ++ exprsMentions values
  | .set elements => exprsMentions elements
  | .listComp element clauses => element.mentions ++ clausesMentions clauses
  | .setComp element clauses => element.mentions ++ clausesMentions clauses
  | .dictComp key value clauses => key.mentions ++ value.mentions ++ clausesMentions clauses
  | .generator element clauses => element.mentions ++ clausesMentions clauses
  | .await value => value.mentions
  | .yield value => optionalMentions value
  | .yieldFrom value => value.mentions
  | .compare left _ rights => left.mentions ++ exprsMentions rights
  | .call callee args keywords => callee.mentions ++ exprsMentions args ++ keywordsMentions keywords
  | .formatted value _ spec => value.mentions ++ optionalMentions spec
  | .format parts => exprsMentions parts
  | .literal .. => []
  | .member value _ _ => value.mentions
  | .index value key _ => value.mentions ++ key.mentions
  | .starred value _ => value.mentions
  | .name id .load => [read id]
  | .name id .store => [bound id]
  | .name _ .del => []
  | .list elements _ => exprsMentions elements
  | .tuple elements _ => exprsMentions elements
  | .slice lower upper step => optionalMentions lower ++ optionalMentions upper ++ optionalMentions step
  | .gap .. => []
  | .several items => exprsMentions items

def exprsMentions : List Expr → List Mention
  | [] => []
  | e :: es => e.mentions ++ exprsMentions es

def optionalMentions : Option Expr → List Mention
  | none => []
  | some e => e.mentions

def optionalsMentions : List (Option Expr) → List Mention
  | [] => []
  | e :: es => optionalMentions e ++ optionalsMentions es

def clausesMentions : List Clause → List Mention
  | [] => []
  | .mk target iter conditions _ :: cs =>
    target.mentions ++ iter.mentions ++ exprsMentions conditions ++ clausesMentions cs

def keywordsMentions : List Keyword → List Mention
  | [] => []
  | .mk _ value :: ks => value.mentions ++ keywordsMentions ks

def Params.mentions : Params → List Mention
  | .mk posOnly args variadic kwOnly kwDefaults kwVariadic defaults =>
    paramsMentions posOnly ++ paramsMentions args ++ optionalParamMentions variadic ++ paramsMentions kwOnly ++
      optionalsMentions kwDefaults ++ optionalParamMentions kwVariadic ++ exprsMentions defaults

def Param.mentions : Param → List Mention
  | .mk name type _ => bound name :: optionalMentions type

def paramsMentions : List Param → List Mention
  | [] => []
  | p :: ps => p.mentions ++ paramsMentions ps

def optionalParamMentions : Option Param → List Mention
  | none => []
  | some p => p.mentions

end

mutual

def Pattern.mentions : Pattern → List Mention
  | .value value => value.mentions
  | .singleton _ => []
  | .sequence items => patternsMentions items
  | .mapping keys items rest => exprsMentions keys ++ patternsMentions items ++ ofBound? rest
  | .class_ callee items _ named => callee.mentions ++ patternsMentions items ++ patternsMentions named
  | .star name => ofBound? name
  | .as_ none name => ofBound? name
  | .as_ (some item) name => item.mentions ++ ofBound? name
  | .or_ items => patternsMentions items

def patternsMentions : List Pattern → List Mention
  | [] => []
  | p :: ps => p.mentions ++ patternsMentions ps

end

def Simple.mentions : Simple → List Mention
  | .return_ value => optionalMentions value
  | .delete targets => exprsMentions targets
  | .assign targets value _ => exprsMentions targets ++ value.mentions
  | .augAssign target _ value => target.mentions ++ value.mentions
  | .annAssign target type value _ => target.mentions ++ type.mentions ++ optionalMentions value
  | .raise exception cause => optionalMentions exception ++ optionalMentions cause
  | .assert test message => test.mentions ++ optionalMentions message
  | .import_ names => names.flatMap Alias.mentions
  | .importFrom _ names _ => names.flatMap Alias.mentions
  | .expr value => value.mentions
  | _ => []

def decoratorsMentions (ds : List Decorator) : List Mention := ds.flatMap fun d => d.expr.mentions

def WithItem.mentions (i : WithItem) : List Mention := i.context.mentions ++ optionalMentions i.target

def BlockHead.mentions : BlockHead → List Mention
  | .function _ name params decorators returns _ =>
    decoratorsMentions decorators ++ Mention.function name :: (params.mentions ++ optionalMentions returns)
  | .class_ name bases keywords decorators =>
    decoratorsMentions decorators ++ bound name :: (exprsMentions bases ++ keywordsMentions keywords)
  | .with_ _ items _ => items.flatMap WithItem.mentions
  | .module_ _ => []

def BranchHead.mentions : BranchHead → List Mention
  | .for_ _ target iter _ => target.mentions ++ iter.mentions
  | .while_ test => test.mentions
  | .if_ test => test.mentions

mutual

def Stmt.mentions : Stmt → List Mention
  | .simple _ what => what.mentions
  | .comment _ => []
  | .block _ head body => head.mentions ++ stmtsMentions body
  | .branch _ head body orelse => head.mentions ++ stmtsMentions body ++ stmtsMentions orelse
  | .attempt _ _ body handlers orelse finalbody =>
    stmtsMentions body ++ handlersMentions handlers ++ stmtsMentions orelse ++ stmtsMentions finalbody
  | .select _ subject cases => subject.mentions ++ casesMentions cases

def stmtsMentions : List Stmt → List Mention
  | [] => []
  | s :: ss => s.mentions ++ stmtsMentions ss

def handlersMentions : List Handler → List Mention
  | [] => []
  | .comment _ :: hs => handlersMentions hs
  | .handler _ type name body :: hs =>
    optionalMentions type ++ ofBound? name ++ stmtsMentions body ++ handlersMentions hs

def casesMentions : List Case → List Mention
  | [] => []
  | .comment _ :: cs => casesMentions cs
  | .case _ pattern guard body :: cs =>
    pattern.mentions ++ optionalMentions guard ++ stmtsMentions body ++ casesMentions cs

end

namespace Tree

/-- The names in a tree, in their order. -/
def mentions (t : Tree) : List Mention := stmtsMentions t.body

/-- The names that are read in a tree, in their order, as often as they are. -/
def reads (t : Tree) : List String := t.mentions.filterMap Mention.read?

/-- Whether a name is bound somewhere in a tree. -/
def Binds (t : Tree) (name : String) : Prop := name ∈ t.mentions.filterMap Mention.bound?

instance (t : Tree) (name : String) : Decidable (t.Binds name) := inferInstanceAs (Decidable (_ ∈ _))

/-- Whether a name is still read in the blocking form wherever it is read in the tree. -/
def KeepsReading (t : Tree) (name : String) : Prop :=
  ∀ i : Nat, t.reads[i]? = some name → t.blocking.reads[i]? = some name

end Tree

namespace Blocking

mutual

theorem mentions_expr : (e : Expr) → (expr e).mentions = e.mentions.map Mention.blocking
  | .boolOp _ values => by simp only [expr, Expr.mentions, mentions_exprs values]
  | .walrus target value => by
    simp only [expr, Expr.mentions, mentions_expr target, mentions_expr value, List.map_append]
  | .binary left _ right => by
    simp only [expr, Expr.mentions, mentions_expr left, mentions_expr right, List.map_append]
  | .unary _ operand => by simp only [expr, Expr.mentions, mentions_expr operand]
  | .lambda ps body => by simp only [expr, Expr.mentions, mentions_params ps, mentions_expr body, List.map_append]
  | .ifElse test body orelse => by
    simp only [expr, Expr.mentions, mentions_expr test, mentions_expr body, mentions_expr orelse, List.map_append]
  | .dict keys values => by
    simp only [expr, Expr.mentions, mentions_optionals keys, mentions_exprs values, List.map_append]
  | .set elements => by simp only [expr, Expr.mentions, mentions_exprs elements]
  | .listComp element cs | .setComp element cs | .generator element cs => by
    simp only [expr, Expr.mentions, mentions_expr element, mentions_clauses cs, List.map_append]
  | .dictComp key value cs => by
    simp only [expr, Expr.mentions, mentions_expr key, mentions_expr value, mentions_clauses cs, List.map_append]
  | .await value => by simp only [expr, Expr.mentions, mentions_expr value]
  | .yield value => by simp only [expr, Expr.mentions, mentions_optional value]
  | .yieldFrom value => by simp only [expr, Expr.mentions, mentions_expr value]
  | .compare left _ rights => by
    simp only [expr, Expr.mentions, mentions_expr left, mentions_exprs rights, List.map_append]
  | .call callee args ks => by
    simp only [expr, Expr.mentions, mentions_expr callee, mentions_exprs args, mentions_keywords ks, List.map_append]
  | .formatted value _ spec => by
    simp only [expr, Expr.mentions, mentions_expr value, mentions_optional spec, List.map_append]
  | .format parts => by simp only [expr, Expr.mentions, mentions_exprs parts]
  | .literal .. | .gap .. | .name _ .load | .name _ .store | .name _ .del => rfl
  | .member value _ _ => by simp only [expr, Expr.mentions, mentions_expr value]
  | .index value key _ => by simp only [expr, Expr.mentions, mentions_expr value, mentions_expr key, List.map_append]
  | .starred value _ => by simp only [expr, Expr.mentions, mentions_expr value]
  | .list elements _ | .tuple elements _ => by simp only [expr, Expr.mentions, mentions_exprs elements]
  | .slice lower upper step => by
    simp only [expr, Expr.mentions, mentions_optional lower, mentions_optional upper, mentions_optional step,
      List.map_append]
  | .several items => by simp only [expr, Expr.mentions, mentions_exprs items]

theorem mentions_exprs : (es : List Expr) → exprsMentions (exprs es) = (exprsMentions es).map Mention.blocking
  | [] => rfl
  | e :: es => by simp only [exprs, exprsMentions, mentions_expr e, mentions_exprs es, List.map_append]

theorem mentions_optional : (e : Option Expr) →
    optionalMentions (optional e) = (optionalMentions e).map Mention.blocking
  | none => rfl
  | some e => by simp only [optional, optionalMentions, mentions_expr e]

theorem mentions_optionals : (es : List (Option Expr)) →
    optionalsMentions (optionals es) = (optionalsMentions es).map Mention.blocking
  | [] => rfl
  | e :: es => by
    simp only [optionals, optionalsMentions, mentions_optional e, mentions_optionals es, List.map_append]

theorem mentions_clauses : (cs : List Clause) →
    clausesMentions (clauses cs) = (clausesMentions cs).map Mention.blocking
  | [] => rfl
  | .mk target iter conditions _ :: cs => by
    simp only [clauses, clausesMentions, mentions_expr target, mentions_expr iter, mentions_exprs conditions,
      mentions_clauses cs, List.map_append]

theorem mentions_keywords : (ks : List Keyword) →
    keywordsMentions (keywords ks) = (keywordsMentions ks).map Mention.blocking
  | [] => rfl
  | .mk _ value :: ks => by
    simp only [keywords, keywordsMentions, mentions_expr value, mentions_keywords ks, List.map_append]

theorem mentions_params : (ps : Params) → (params ps).mentions = ps.mentions.map Mention.blocking
  | .mk posOnly args variadic kwOnly kwDefaults kwVariadic defaults => by
    simp only [params, Params.mentions, mentions_paramList posOnly, mentions_paramList args,
      mentions_optionalParam variadic, mentions_paramList kwOnly, mentions_optionals kwDefaults,
      mentions_optionalParam kwVariadic, mentions_exprs defaults, List.map_append]

theorem mentions_param : (p : Param) → (param p).mentions = p.mentions.map Mention.blocking
  | .mk name type _ => by
    rw [param, Param.mentions, Param.mentions, mentions_optional type]
    rfl

theorem mentions_paramList : (ps : List Param) →
    paramsMentions (paramList ps) = (paramsMentions ps).map Mention.blocking
  | [] => rfl
  | p :: ps => by simp only [paramList, paramsMentions, mentions_param p, mentions_paramList ps, List.map_append]

theorem mentions_optionalParam : (p : Option Param) →
    optionalParamMentions (optionalParam p) = (optionalParamMentions p).map Mention.blocking
  | none => rfl
  | some p => by simp only [optionalParam, optionalParamMentions, mentions_param p]

end

mutual

theorem mentions_pattern : (p : Pattern) → (pattern p).mentions = p.mentions.map Mention.blocking
  | .value value => by simp only [pattern, Pattern.mentions, mentions_expr value]
  | .singleton _ => rfl
  | .sequence items | .or_ items => by simp only [pattern, Pattern.mentions, mentions_patterns items]
  | .mapping keys items rest => by
    simp only [pattern, Pattern.mentions, mentions_exprs keys, mentions_patterns items, map_ofBound?, List.map_append]
  | .class_ callee items _ named => by
    simp only [pattern, Pattern.mentions, mentions_expr callee, mentions_patterns items, mentions_patterns named,
      List.map_append]
  | .star name | .as_ none name => by simp only [pattern, Pattern.mentions, map_ofBound?]
  | .as_ (some item) name => by
    simp only [pattern, Pattern.mentions, mentions_pattern item, map_ofBound?, List.map_append]

theorem mentions_patterns : (ps : List Pattern) →
    patternsMentions (patterns ps) = (patternsMentions ps).map Mention.blocking
  | [] => rfl
  | p :: ps => by simp only [patterns, patternsMentions, mentions_pattern p, mentions_patterns ps, List.map_append]

end

theorem mentions_optional_map (e : Option Expr) :
    optionalMentions (e.map expr) = (optionalMentions e).map Mention.blocking := by
  rw [optional_eq_map, mentions_optional]

/-- An import is the same in the blocking form. -/
theorem map_mentions_aliases (names : List Alias) :
    (names.flatMap Alias.mentions).map Mention.blocking = names.flatMap Alias.mentions := by
  have halias (a : Alias) : a.mentions.map Mention.blocking = a.mentions := by
    unfold Alias.mentions
    split
    · rfl
    · split
      · rfl
      · exact map_ofBound? _
  simp only [List.map_flatMap, halias]

theorem mentions_simple (what : Simple) : (simple what).mentions = what.mentions.map Mention.blocking := by
  cases what <;> simp only [simple, Simple.mentions, mentions_expr, mentions_exprs, mentions_optional_map,
    map_mentions_aliases, List.map_append, List.map_nil]

theorem mentions_decorators (ds : List Decorator) :
    decoratorsMentions (ds.map decorator) = (decoratorsMentions ds).map Mention.blocking := by
  simp only [decoratorsMentions, decorator, List.flatMap_map, List.map_flatMap, mentions_expr]

theorem mentions_withItems (items : List WithItem) :
    (items.map withItem).flatMap WithItem.mentions = (items.flatMap WithItem.mentions).map Mention.blocking := by
  simp only [WithItem.mentions, withItem, List.flatMap_map, List.map_flatMap, mentions_expr, mentions_optional_map,
    List.map_append]

theorem mentions_blockHead (head : BlockHead) : (blockHead head).mentions = head.mentions.map Mention.blocking := by
  cases head with
  | function _ name ps decorators returns _ =>
    simp only [blockHead, BlockHead.mentions, mentions_decorators, mentions_params, mentions_optional_map,
      List.map_append, List.map_cons, Mention.blocking]
  | class_ name bases ks decorators =>
    simp only [blockHead, BlockHead.mentions, mentions_decorators, mentions_exprs, mentions_keywords,
      List.map_append, List.map_cons, Mention.blocking]
  | with_ _ items _ => simp only [blockHead, BlockHead.mentions, mentions_withItems]
  | module_ name => rfl

theorem mentions_branchHead (head : BranchHead) :
    (branchHead head).mentions = head.mentions.map Mention.blocking := by
  cases head <;> simp only [branchHead, BranchHead.mentions, mentions_expr, List.map_append]

end Blocking

open Blocking

mutual

theorem Stmt.mentions_blocking : (s : Stmt) → s.blocking.mentions = s.mentions.map Mention.blocking
  | .simple _ what => by simp only [Stmt.blocking, Stmt.mentions, mentions_simple]
  | .comment _ => rfl
  | .block _ head body => by
    simp only [Stmt.blocking, Stmt.mentions, mentions_blockHead, mentions_blockingStmts body, List.map_append]
  | .branch _ head body orelse => by
    simp only [Stmt.blocking, Stmt.mentions, mentions_branchHead, mentions_blockingStmts body,
      mentions_blockingStmts orelse, List.map_append]
  | .attempt _ _ body handlers orelse finalbody => by
    simp only [Stmt.blocking, Stmt.mentions, mentions_blockingStmts body, mentions_blockingHandlers handlers,
      mentions_blockingStmts orelse, mentions_blockingStmts finalbody, List.map_append]
  | .select _ subject cases => by
    simp only [Stmt.blocking, Stmt.mentions, mentions_expr, mentions_blockingCases cases, List.map_append]

theorem mentions_blockingStmts : (ss : List Stmt) →
    stmtsMentions (blockingStmts ss) = (stmtsMentions ss).map Mention.blocking
  | [] => rfl
  | s :: ss => by
    simp only [blockingStmts, stmtsMentions, s.mentions_blocking, mentions_blockingStmts ss, List.map_append]

theorem mentions_blockingHandlers : (hs : List Handler) →
    handlersMentions (blockingHandlers hs) = (handlersMentions hs).map Mention.blocking
  | [] => rfl
  | .comment _ :: hs => by simp only [blockingHandlers, handlersMentions, mentions_blockingHandlers hs]
  | .handler _ type name body :: hs => by
    simp only [blockingHandlers, handlersMentions, mentions_optional_map, map_ofBound?, mentions_blockingStmts body,
      mentions_blockingHandlers hs, List.map_append]

theorem mentions_blockingCases : (cs : List Case) →
    casesMentions (blockingCases cs) = (casesMentions cs).map Mention.blocking
  | [] => rfl
  | .comment _ :: cs => by simp only [blockingCases, casesMentions, mentions_blockingCases cs]
  | .case _ pattern guard body :: cs => by
    simp only [blockingCases, casesMentions, mentions_pattern, mentions_optional_map, mentions_blockingStmts body,
      mentions_blockingCases cs, List.map_append]

end

namespace Tree

/-- The blocking form has the names of the tree in their places, each of them renamed by itself. -/
theorem mentions_blocking (t : Tree) : t.blocking.mentions = t.mentions.map Mention.blocking := by
  rw [mentions, Tree.blocking, body_withBody, mentions_blockingStmts, mentions]

theorem reads_blocking (t : Tree) : t.blocking.reads = t.reads.map (rename builtins) := by
  have hread (m : Mention) : m.blocking.read? = m.read?.map (rename builtins) := by cases m <;> rfl
  simp only [reads, mentions_blocking, List.filterMap_map, List.map_filterMap, Function.comp_def, hread]

/-- No special method is called like a built-in name, neither before it is renamed nor after. -/
theorem bound?_blocking_eq_some_iff {name : String} (h : name ∈ asyncBuiltins) (m : Mention) :
    m.blocking.bound? = some name ↔ m.bound? = some name := by
  cases m with
  | function n =>
    simp only [Mention.blocking, Mention.bound?, Option.some.injEq]
    by_cases hn : n ∈ asyncMethods
    · have hapart : ∀ n ∈ asyncMethods, ∀ name ∈ asyncBuiltins, n ≠ name ∧ rename methods n ≠ name := by decide
      simp only [(hapart n hn name h).1, (hapart n hn name h).2]
    · rw [rename_methods_eq_self hn]
  | _ => rfl

/-- What is bound in a tree is bound in its blocking form. -/
theorem binds_blocking_iff {name : String} (h : name ∈ asyncBuiltins) (t : Tree) :
    t.blocking.Binds name ↔ t.Binds name := by
  simp only [Binds, mentions_blocking, List.filterMap_map, List.mem_filterMap, Function.comp_def,
    bound?_blocking_eq_some_iff h]

/-- A name of the asynchronous protocols is not read any more wherever it was read. -/
theorem keepsReading_iff {name : String} (h : name ∈ asyncBuiltins) (t : Tree) :
    t.KeepsReading name ↔ name ∉ t.reads := by
  constructor
  · intro hkeeps hread
    obtain ⟨i, hi⟩ := List.mem_iff_getElem?.1 hread
    have hafter : name ∈ t.blocking.reads := List.mem_of_getElem? (hkeeps i hi)
    rw [reads_blocking] at hafter
    obtain ⟨before, -, rfl⟩ := List.mem_map.1 hafter
    exact rename_builtins_not_mem before h
  · intro hread i hi
    exact absurd (List.mem_of_getElem? hi) hread

/-- The built-in names of the asynchronous protocols are renamed wherever they are read, and stay where they are bound,
each of them by itself. So a name that a tree binds is still read where it was exactly if it was not read at all. -/
theorem binding_keeps_reading_iff (t : Tree) (name : String) (h : name ∈ asyncBuiltins) :
    (t.blocking.reads = t.reads.map (rename builtins) ∧ (t.blocking.Binds name ↔ t.Binds name)) ∧
      ((t.Binds name → t.KeepsReading name) ↔ (t.Binds name → name ∉ t.reads)) :=
  ⟨⟨t.reads_blocking, t.binds_blocking_iff h⟩, imp_congr_right fun _ => t.keepsReading_iff h⟩

/-- A name of its own that is called like a built-in one: it is picked, and then called. -/
def pickedAnext : Tree :=
  .file [.simple ⟨⟨some 1, some 0, some 1, some 14⟩, []⟩
      (.assign [.name "anext" .store] (.call (.name "pick" .load) [] []) none),
    .simple ⟨⟨some 2, some 0, some 2, some 8⟩, []⟩ (.expr (.call (.name "anext" .load) [.name "x" .load] []))]

theorem binding_keeps_reading_iff_pickedAnext :
    "anext" ∈ asyncBuiltins ∧
      (pickedAnext.blocking.reads = pickedAnext.reads.map (rename builtins) ∧
        (pickedAnext.blocking.Binds "anext" ↔ pickedAnext.Binds "anext")) ∧
      ((pickedAnext.Binds "anext" → pickedAnext.KeepsReading "anext") ↔
        (pickedAnext.Binds "anext" → "anext" ∉ pickedAnext.reads)) :=
  ⟨by decide, binding_keeps_reading_iff pickedAnext "anext" (by decide)⟩

/-- A name that is bound in a tree may be read there, and then it is another one that is read. -/
theorem not_binding_keeps_reading :
    ¬ ∀ (t : Tree) (name : String), name ∈ asyncBuiltins → t.Binds name → t.KeepsReading name := by
  intro h
  have hread : pickedAnext.reads = ["pick", "anext", "x"] := by decide
  have hafter : pickedAnext.blocking.reads = ["pick", "next", "x"] := by rw [reads_blocking, hread]; decide
  have hkept := h pickedAnext "anext" (by decide) (by decide) 1 (by rw [hread]; rfl)
  rw [hafter] at hkept
  exact absurd hkept (by decide)

end Tree

end TwinModule
