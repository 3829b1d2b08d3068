import TwinModule.Blocking
/-!
Trees with nothing asynchronous in them. The blocking form of a tree is one, and such a tree is its own blocking form.
-/
set_option autoImplicit false

namespace TwinModule

namespace Blocking

/-- The special methods of the asynchronous protocols. -/
def asyncMethods : List String := ["__aenter__", "__aexit__", "__aiter__", "__anext__"]

/-- The built-in names of the asynchronous protocols. -/
def asyncBuiltins : List String := ["aiter", "anext", "StopAsyncIteration"]

theorem rename_of_not_mem {table : List (String × String)} {name : String} (h : name ∉ table.map Prod.fst) :
    rename table name = name := by
  have hnone : table.lookup name = none := by
    rw [List.lookup_eq_none_iff]
    exact fun p hp => bne_iff_ne.2 fun e => h (e ▸ List.mem_map_of_mem hp)
  rw [rename, hnone]
  rfl

/-- A table that leads out of its own names leaves none of them. -/
theorem rename_not_mem {table : List (String × String)} (out : ∀ p ∈ table, p.2 ∉ table.map Prod.fst) (name : String) :
    rename table name ∉ table.map Prod.fst := by
  by_cases h : name ∈ table.map Prod.fst
  · obtain ⟨plain, hplain⟩ : ∃ plain, table.lookup name = some plain := by
      cases hl : table.lookup name with
      | some plain => exact ⟨plain, rfl⟩
      | none =>
        obtain ⟨p, hp, rfl⟩ := List.mem_map.1 h
        exact absurd rfl (bne_iff_ne.1 (List.lookup_eq_none_iff.1 hl p hp))
    obtain ⟨before, after, htable, -⟩ := List.lookup_eq_some_iff.1 hplain
    rw [rename, hplain]
    exact out (name, plain) (by simp [htable])
  · rwa [rename_of_not_mem h]

theorem rename_methods_not_mem (name : String) : rename methods name ∉ asyncMethods :=
  @rename_not_mem methods (by decide) name

theorem rename_builtins_not_mem (name : String) : rename builtins name ∉ asyncBuiltins :=
  @rename_not_mem builtins (by decide) name

theorem rename_methods_eq_self {name : String} (h : name ∉ asyncMethods) : rename methods name = name :=
  @rename_of_not_mem methods name h

theorem rename_builtins_eq_self {name : String} (h : name ∉ asyncBuiltins) : rename builtins name = name :=
  @rename_of_not_mem builtins name h

end Blocking

open Blocking

mutual

/-- Nothing is awaited, no clause is `async`, and no name of the asynchronous protocols is used. -/
def Expr.IsSync : Expr → Prop
  | .boolOp _ values => exprsSync values
  | .walrus target value => target.IsSync ∧ value.IsSync
  | .binary left _ right => left.IsSync ∧ right.IsSync
  | .unary _ operand => operand.IsSync
  | .lambda params body => params.IsSync ∧ body.IsSync
  | .ifElse test body orelse => test.IsSync ∧ body.IsSync ∧ orelse.IsSync
  | .dict keys values => optionalsSync keys ∧ exprsSync values
  | .set elements => exprsSync elements
  | .listComp element clauses => element.IsSync ∧ clausesSync clauses
  | .setComp element clauses => element.IsSync ∧ clausesSync clauses
  | .dictComp key value clauses => key.IsSync ∧ value.IsSync ∧ clausesSync clauses
  | .generator element clauses => element.IsSync ∧ clausesSync clauses
  | .await _ => False
  | .yield value => optionalSync value
  | .yieldFrom value => value.IsSync
  | .compare left _ rights => left.IsSync ∧ exprsSync rights
  | .call callee args keywords => callee.IsSync ∧ exprsSync args ∧ keywordsSync keywords
  | .formatted value _ spec => value.IsSync ∧ optionalSync spec
  | .format parts => exprsSync parts
  | .literal .. => True
  | .member value name _ => value.IsSync ∧ name ∉ asyncMethods
  | .index value key _ => value.IsSync ∧ key.IsSync
  | .starred value _ => value.IsSync
  | .name id usage => usage = .load → id ∉ asyncBuiltins
  | .list elements _ => exprsSync elements
  | .tuple elements _ => exprsSync elements
  | .slice lower upper step => optionalSync lower ∧ optionalSync upper ∧ optionalSync step
  | .gap .. => True
  | .several items => exprsSync items

def exprsSync : List Expr → Prop
  | [] => True
  | e :: es => e.IsSync ∧ exprsSync es

def optionalSync : Option Expr → Prop
  | none => True
  | some e => e.IsSync

def optionalsSync : List (Option Expr) → Prop
  | [] => True
  | e :: es => optionalSync e ∧ optionalsSync es

def clausesSync : List Clause → Prop
  | [] => True
  | .mk target iter conditions isAsync :: cs =>
    (isAsync = false ∧ target.IsSync ∧ iter.IsSync ∧ exprsSync conditions) ∧ clausesSync cs

def keywordsSync : List Keyword → Prop
  | [] => True
  | .mk _ value :: ks => value.IsSync ∧ keywordsSync ks

def Params.IsSync : Params → Prop
  | .mk posOnly args variadic kwOnly kwDefaults kwVariadic defaults =>
    paramsSync posOnly ∧ paramsSync args ∧ optionalParamSync variadic ∧ paramsSync kwOnly ∧
      optionalsSync kwDefaults ∧ optionalParamSync kwVariadic ∧ exprsSync defaults

def Param.IsSync : Param → Prop
  | .mk _ type _ => optionalSync type

def paramsSync : List Param → Prop
  | [] => True
  | p :: ps => p.IsSync ∧ paramsSync ps

def optionalParamSync : Option Param → Prop
  | none => True
  | some p => p.IsSync

end

mutual

def Pattern.IsSync : Pattern → Prop
  | .value value => value.IsSync
  | .singleton _ => True
  | .sequence items => patternsSync items
  | .mapping keys items _ => exprsSync keys ∧ patternsSync items
  | .class_ callee items _ named => callee.IsSync ∧ patternsSync items ∧ patternsSync named
  | .star _ => True
  | .as_ none _ => True
  | .as_ (some item) _ => item.IsSync
  | .or_ items => patternsSync items

def patternsSync : List Pattern → Prop
  | [] => True
  | p :: ps => p.IsSync ∧ patternsSync ps

end

def Simple.IsSync : Simple → Prop
  | .return_ value => optionalSync value
  | .delete targets => exprsSync targets
  | .assign targets value _ => exprsSync targets ∧ value.IsSync
  | .augAssign target _ value => target.IsSync ∧ value.IsSync
  | .annAssign target type value _ => target.IsSync ∧ type.IsSync ∧ optionalSync value
  | .raise exception cause => optionalSync exception ∧ optionalSync cause
  | .assert test message => test.IsSync ∧ optionalSync message
  | .expr value => value.IsSync
  | _ => True

/-- Neither the head of an asynchronous block nor one with something asynchronous in it, or of a special method. -/
def BlockHead.IsSync : BlockHead → Prop
  | .function isAsync name params decorators returns _ =>
    isAsync = false ∧ name ∉ asyncMethods ∧ params.IsSync ∧ (∀ d ∈ decorators, d.expr.IsSync) ∧ optionalSync returns
  | .class_ _ bases keywords decorators =>
    exprsSync bases ∧ keywordsSync keywords ∧ ∀ d ∈ decorators, d.expr.IsSync
  | .with_ isAsync items _ => isAsync = false ∧ ∀ i ∈ items, i.context.IsSync ∧ optionalSync i.target
  | .module_ _ => True

def BranchHead.IsSync : BranchHead → Prop
  | .for_ isAsync target iter _ => isAsync = false ∧ target.IsSync ∧ iter.IsSync
  | .while_ test => test.IsSync
  | .if_ test => test.IsSync

mutual

def Stmt.IsSync : Stmt → Prop
  | .simple _ what => what.IsSync
  | .comment _ => True
  | .block _ head body => head.IsSync ∧ stmtsSync body
  | .branch _ head body orelse => head.IsSync ∧ stmtsSync body ∧ stmtsSync orelse
  | .attempt _ _ body handlers orelse finalbody =>
    stmtsSync body ∧ handlersSync handlers ∧ stmtsSync orelse ∧ stmtsSync finalbody
  | .select _ subject cases => subject.IsSync ∧ casesSync cases

def stmtsSync : List Stmt → Prop
  | [] => True
  | s :: ss => s.IsSync ∧ stmtsSync ss

def handlersSync : List Handler → Prop
  | [] => True
  | .comment _ :: hs => handlersSync hs
  | .handler _ type _ body :: hs => optionalSync type ∧ stmtsSync body ∧ handlersSync hs

def casesSync : List Case → Prop
  | [] => True
  | .comment _ :: cs => casesSync cs
  | .case _ pattern guard body :: cs => pattern.IsSync ∧ optionalSync guard ∧ stmtsSync body ∧ casesSync cs

end

/-- Nothing in the tree is asynchronous, at any depth. -/
def Tree.IsSync (t : Tree) : Prop := stmtsSync t.body

namespace Blocking

mutual

theorem isSync_expr : (e : Expr) → (expr e).IsSync
  | .boolOp _ values => isSync_exprs values
  | .walrus target value => ⟨isSync_expr target, isSync_expr value⟩
  | .binary left _ right => ⟨isSync_expr left, isSync_expr right⟩
  | .unary _ operand => isSync_expr operand
  | .lambda ps body => ⟨isSync_params ps, isSync_expr body⟩
  | .ifElse test body orelse => ⟨isSync_expr test, isSync_expr body, isSync_expr orelse⟩
  | .dict keys values => ⟨isSync_optionals keys, isSync_exprs values⟩
  | .set elements => isSync_exprs elements
  | .listComp element cs => ⟨isSync_expr element, isSync_clauses cs⟩
  | .setComp element cs => ⟨isSync_expr element, isSync_clauses cs⟩
  | .dictComp key value cs => ⟨isSync_expr key, isSync_expr value, isSync_clauses cs⟩
  | .generator element cs => ⟨isSync_expr element, isSync_clauses cs⟩
  | .await value => by
    -- The node goes away, so what stands in its place is the value, whatever that is.
    rw [expr]
    exact isSync_expr value
  | .yield value => isSync_optional value
  | .yieldFrom value => isSync_expr value
  | .compare left _ rights => ⟨isSync_expr left, isSync_exprs rights⟩
  | .call callee args ks => ⟨isSync_expr callee, isSync_exprs args, isSync_keywords ks⟩
  | .formatted value _ spec => ⟨isSync_expr value, isSync_optional spec⟩
  | .format parts => isSync_exprs parts
  | .literal .. => trivial
  | .member value name _ => ⟨isSync_expr value, rename_methods_not_mem name⟩
  | .index value key _ => ⟨isSync_expr value, isSync_expr key⟩
  | .starred value _ => isSync_expr value
  | .name id .load => fun _ => rename_builtins_not_mem id
  | .name _ .store => nofun
  | .name _ .del => nofun
  | .list elements _ => isSync_exprs elements
  | .tuple elements _ => isSync_exprs elements
  | .slice lower upper step => ⟨isSync_optional lower, isSync_optional upper, isSync_optional step⟩
  | .gap .. => trivial
  | .several items => isSync_exprs items

theorem isSync_exprs : (es : List Expr) → exprsSync (exprs es)
  | [] => trivial
  | e :: es => ⟨isSync_expr e, isSync_exprs es⟩

theorem isSync_optional : (e : Option Expr) → optionalSync (optional e)
  | none => trivial
  | some e => isSync_expr e

theorem isSync_optionals : (es : List (Option Expr)) → optionalsSync (optionals es)
  | [] => trivial
  | e :: es => ⟨isSync_optional e, isSync_optionals es⟩

theorem isSync_clauses : (cs : List Clause) → clausesSync (clauses cs)
  | [] => trivial
  | .mk target iter conditions _ :: cs =>
    ⟨⟨rfl, isSync_expr target, isSync_expr iter, isSync_exprs conditions⟩, isSync_clauses cs⟩

theorem isSync_keywords : (ks : List Keyword) → keywordsSync (keywords ks)
  | [] => trivial
  | .mk _ value :: ks => ⟨isSync_expr value, isSync_keywords ks⟩

theorem isSync_params : (ps : Params) → (params ps).IsSync
  | .mk posOnly args variadic kwOnly kwDefaults kwVariadic defaults =>
    ⟨isSync_paramList posOnly, isSync_paramList args, isSync_optionalParam variadic, isSync_paramList kwOnly,
      isSync_optionals kwDefaults, isSync_optionalParam kwVariadic, isSync_exprs defaults⟩

theorem isSync_param : (p : Param) → (param p).IsSync
  | .mk _ type _ => isSync_optional type

theorem isSync_paramList : (ps : List Param) → paramsSync (paramList ps)
  | [] => trivial
  | p :: ps => ⟨isSync_param p, isSync_paramList ps⟩

theorem isSync_optionalParam : (p : Option Param) → optionalParamSync (optionalParam p)
  | none => trivial
  | some p => isSync_param p

end

mutual

theorem expr_eq_self : (e : Expr) → e.IsSync → expr e = e
  | .boolOp _ values, h => by rw [expr, exprs_eq_self values h]
  | .walrus target value, ⟨ht, hv⟩ => by rw [expr, expr_eq_self target ht, expr_eq_self value hv]
  | .binary left _ right, ⟨hl, hr⟩ => by rw [expr, expr_eq_self left hl, expr_eq_self right hr]
  | .unary _ operand, h => by rw [expr, expr_eq_self operand h]
  | .lambda ps body, ⟨hp, hb⟩ => by rw [expr, params_eq_self ps hp, expr_eq_self body hb]
  | .ifElse test body orelse, ⟨ht, hb, ho⟩ => by
    rw [expr, expr_eq_self test ht, expr_eq_self body hb, expr_eq_self orelse ho]
  | .dict keys values, ⟨hk, hv⟩ => by rw [expr, optionals_eq_self keys hk, exprs_eq_self values hv]
  | .set elements, h => by rw [expr, exprs_eq_self elements h]
  | .listComp element cs, ⟨he, hc⟩ => by rw [expr, expr_eq_self element he, clauses_eq_self cs hc]
  | .setComp element cs, ⟨he, hc⟩ => by rw [expr, expr_eq_self element he, clauses_eq_self cs hc]
  | .dictComp key value cs, ⟨hk, hv, hc⟩ => by
    rw [expr, expr_eq_self key hk, expr_eq_self value hv, clauses_eq_self cs hc]
  | .generator element cs, ⟨he, hc⟩ => by rw [expr, expr_eq_self element he, clauses_eq_self cs hc]
  | .await _, h => h.elim
  | .yield value, h => by rw [expr, optional_eq_self value h]
  | .yieldFrom value, h => by rw [expr, expr_eq_self value h]
  | .compare left _ rights, ⟨hl, hr⟩ => by rw [expr, expr_eq_self left hl, exprs_eq_self rights hr]
  | .call callee args ks, ⟨hc, ha, hk⟩ => by
    rw [expr, expr_eq_self callee hc, exprs_eq_self args ha, keywords_eq_self ks hk]
  | .formatted value _ spec, ⟨hv, hs⟩ => by rw [expr, expr_eq_self value hv, optional_eq_self spec hs]
  | .format parts, h => by rw [expr, exprs_eq_self parts h]
  | .literal .., _ => rfl
  | .member value name _, ⟨hv, hn⟩ => by rw [expr, expr_eq_self value hv, rename_methods_eq_self hn]
  | .index value key _, ⟨hv, hk⟩ => by rw [expr, expr_eq_self value hv, expr_eq_self key hk]
  | .starred value _, h => by rw [expr, expr_eq_self value h]
  | .name id .load, h => by rw [expr, rename_builtins_eq_self (h rfl)]
  | .name _ .store, _ => rfl
  | .name _ .del, _ => rfl
  | .list elements _, h => by rw [expr, exprs_eq_self elements h]
  | .tuple elements _, h => by rw [expr, exprs_eq_self elements h]
  | .slice lower upper step, ⟨hl, hu, hs⟩ => by
    rw [expr, optional_eq_self lower hl, optional_eq_self upper hu, optional_eq_self step hs]
  | .gap .., _ => rfl
  | .several items, h => by rw [expr, exprs_eq_self items h]

theorem exprs_eq_self : (es : List Expr) → exprsSync es → exprs es = es
  | [], _ => rfl
  | e :: es, ⟨he, hes⟩ => by rw [exprs, expr_eq_self e he, exprs_eq_self es hes]

theorem optional_eq_self : (e : Option Expr) → optionalSync e → optional e = e
  | none, _ => rfl
  | some e, h => by rw [optional, expr_eq_self e h]

theorem optionals_eq_self : (es : List (Option Expr)) → optionalsSync es → optionals es = es
  | [], _ => rfl
  | e :: es, ⟨he, hes⟩ => by rw [optionals, optional_eq_self e he, optionals_eq_self es hes]

theorem clauses_eq_self : (cs : List Clause) → clausesSync cs → clauses cs = cs
  | [], _ => rfl
  | .mk target iter conditions _ :: cs, ⟨⟨rfl, ht, hi, hif⟩, hcs⟩ => by
    rw [clauses, expr_eq_self target ht, expr_eq_self iter hi, exprs_eq_self conditions hif, clauses_eq_self cs hcs]

theorem keywords_eq_self : (ks : List Keyword) → keywordsSync ks → keywords ks = ks
  | [], _ => rfl
  | .mk _ value :: ks, ⟨hv, hks⟩ => by rw [keywords, expr_eq_self value hv, keywords_eq_self ks hks]

theorem params_eq_self : (ps : Params) → ps.IsSync → params ps = ps
  | .mk posOnly args variadic kwOnly kwDefaults kwVariadic defaults, ⟨hp, ha, hv, hk, hkd, hkv, hd⟩ => by
    rw [params, paramList_eq_self posOnly hp, paramList_eq_self args ha, optionalParam_eq_self variadic hv,
      paramList_eq_self kwOnly hk, optionals_eq_self kwDefaults hkd, optionalParam_eq_self kwVariadic hkv,
      exprs_eq_self defaults hd]

theorem param_eq_self : (p : Param) → p.IsSync → param p = p
  | .mk _ type _, h => by rw [param, optional_eq_self type h]

theorem paramList_eq_self : (ps : List Param) → paramsSync ps → paramList ps = ps
  | [], _ => rfl
  | p :: ps, ⟨hp, hps⟩ => by rw [paramList, param_eq_self p hp, paramList_eq_self ps hps]

theorem optionalParam_eq_self : (p : Option Param) → optionalParamSync p → optionalParam p = p
  | none, _ => rfl
  | some p, h => by rw [optionalParam, param_eq_self p h]

end

theorem optional_eq_map (e : Option Expr) : e.map expr = optional e := by
  cases e <;> rfl

mutual

theorem isSync_pattern : (p : Pattern) → (pattern p).IsSync
  | .value value => isSync_expr value
  | .singleton _ => trivial
  | .sequence items => isSync_patterns items
  | .mapping keys items _ => ⟨isSync_exprs keys, isSync_patterns items⟩
  | .class_ callee items _ named => ⟨isSync_expr callee, isSync_patterns items, isSync_patterns named⟩
  | .star _ => trivial
  | .as_ none _ => trivial
  | .as_ (some item) _ => isSync_pattern item
  | .or_ items => isSync_patterns items

theorem isSync_patterns : (ps : List Pattern) → patternsSync (patterns ps)
  | [] => trivial
  | p :: ps => ⟨isSync_pattern p, isSync_patterns ps⟩

end

mutual

theorem pattern_eq_self : (p : Pattern) → p.IsSync → pattern p = p
  | .value value, h => by rw [pattern, expr_eq_self value h]
  | .singleton _, _ => rfl
  | .sequence items, h => by rw [pattern, patterns_eq_self items h]
  | .mapping keys items _, ⟨hk, hi⟩ => by rw [pattern, exprs_eq_self keys hk, patterns_eq_self items hi]
  | .class_ callee items _ named, ⟨hc, hi, hn⟩ => by
    rw [pattern, expr_eq_self callee hc, patterns_eq_self items hi, patterns_eq_self named hn]
  | .star _, _ => rfl
  | .as_ none _, _ => rfl
  | .as_ (some item) _, h => by rw [pattern, pattern_eq_self item h]
  | .or_ items, h => by rw [pattern, patterns_eq_self items h]

theorem patterns_eq_self : (ps : List Pattern) → patternsSync ps → patterns ps = ps
  | [], _ => rfl
  | p :: ps, ⟨hp, hps⟩ => by rw [patterns, pattern_eq_self p hp, patterns_eq_self ps hps]

end

theorem isSync_simple (what : Simple) : (simple what).IsSync := by
  cases what with
  | return_ value => simpa only [simple, Simple.IsSync, optional_eq_map] using isSync_optional value
  | delete targets => exact isSync_exprs targets
  | assign targets value typeComment => exact ⟨isSync_exprs targets, isSync_expr value⟩
  | augAssign target op value => exact ⟨isSync_expr target, isSync_expr value⟩
  | annAssign target type value isPlain =>
    simpa only [simple, Simple.IsSync, optional_eq_map] using
      ⟨isSync_expr target, isSync_expr type, isSync_optional value⟩
  | raise exception cause =>
    simpa only [simple, Simple.IsSync, optional_eq_map] using ⟨isSync_optional exception, isSync_optional cause⟩
  | assert test message =>
    simpa only [simple, Simple.IsSync, optional_eq_map] using ⟨isSync_expr test, isSync_optional message⟩
  | expr value => exact isSync_expr value
  | _ => trivial

theorem simple_eq_self {what : Simple} (h : what.IsSync) : simple what = what := by
  cases what with
  | return_ value => rw [simple, optional_eq_map, optional_eq_self value h]
  | delete targets => rw [simple, exprs_eq_self targets h]
  | assign targets value typeComment => rw [simple, exprs_eq_self targets h.1, expr_eq_self value h.2]
  | augAssign target op value => rw [simple, expr_eq_self target h.1, expr_eq_self value h.2]
  | annAssign target type value isPlain =>
    rw [simple, optional_eq_map, expr_eq_self target h.1, expr_eq_self type h.2.1, optional_eq_self value h.2.2]
  | raise exception cause =>
    rw [simple, optional_eq_map, optional_eq_map, optional_eq_self exception h.1, optional_eq_self cause h.2]
  | assert test message => rw [simple, optional_eq_map, expr_eq_self test h.1, optional_eq_self message h.2]
  | expr value => rw [simple, expr_eq_self value h]
  | _ => rfl

theorem isSync_decorators (ds : List Decorator) : ∀ d ∈ ds.map decorator, d.expr.IsSync := by
  intro d hd
  obtain ⟨d, -, rfl⟩ := List.mem_map.1 hd
  exact isSync_expr d.expr

theorem decorators_eq_self {ds : List Decorator} (h : ∀ d ∈ ds, d.expr.IsSync) : ds.map decorator = ds :=
  (List.map_congr_left fun d hd => by simp only [decorator, expr_eq_self d.expr (h d hd), id]).trans (List.map_id ds)

theorem isSync_withItems (is : List WithItem) :
    ∀ i ∈ is.map withItem, i.context.IsSync ∧ optionalSync i.target := by
  intro i hi
  obtain ⟨i, -, rfl⟩ := List.mem_map.1 hi
  refine ⟨isSync_expr i.context, ?_⟩
  rw [withItem, optional_eq_map]
  exact isSync_optional i.target

theorem withItems_eq_self {is : List WithItem} (h : ∀ i ∈ is, i.context.IsSync ∧ optionalSync i.target) :
    is.map withItem = is := by
  refine (List.map_congr_left fun i hi => ?_).trans (List.map_id is)
  rw [withItem, expr_eq_self i.context (h i hi).1, optional_eq_map, optional_eq_self i.target (h i hi).2]
  rfl

theorem isSync_blockHead (head : BlockHead) : (blockHead head).IsSync := by
  cases head with
  | function isAsync name ps decorators returns typeComment =>
    exact ⟨rfl, rename_methods_not_mem name, isSync_params ps, isSync_decorators decorators,
      optional_eq_map returns ▸ isSync_optional returns⟩
  | class_ name bases ks decorators =>
    exact ⟨isSync_exprs bases, isSync_keywords ks, isSync_decorators decorators⟩
  | with_ isAsync items typeComment => exact ⟨rfl, isSync_withItems items⟩
  | module_ name => trivial

theorem blockHead_eq_self {head : BlockHead} (h : head.IsSync) : blockHead head = head := by
  cases head with
  | function isAsync name ps decorators returns typeComment =>
    obtain ⟨rfl, hn, hp, hd, hr⟩ := h
    rw [blockHead, rename_methods_eq_self hn, params_eq_self ps hp, decorators_eq_self hd, optional_eq_map,
      optional_eq_self returns hr]
  | class_ name bases ks decorators =>
    obtain ⟨hb, hk, hd⟩ := h
    rw [blockHead, exprs_eq_self bases hb, keywords_eq_self ks hk, decorators_eq_self hd]
  | with_ isAsync items typeComment =>
    obtain ⟨rfl, hi⟩ := h
    rw [blockHead, withItems_eq_self hi]
  | module_ name => rfl

theorem isSync_branchHead (head : BranchHead) : (branchHead head).IsSync := by
  cases head with
  | for_ isAsync target iter typeComment => exact ⟨rfl, isSync_expr target, isSync_expr iter⟩
  | while_ test => exact isSync_expr test
  | if_ test => exact isSync_expr test

theorem branchHead_eq_self {head : BranchHead} (h : head.IsSync) : branchHead head = head := by
  cases head with
  | for_ isAsync target iter typeComment =>
    obtain ⟨rfl, ht, hi⟩ := h
    rw [branchHead, expr_eq_self target ht, expr_eq_self iter hi]
  | while_ test => rw [branchHead, expr_eq_self test h]
  | if_ test => rw [branchHead, expr_eq_self test h]

end Blocking

theorem BlockHead.isAsync_eq_false {head : BlockHead} (h : head.IsSync) : head.isAsync = false := by
  cases head with
  | function => exact h.1
  | with_ => exact h.1
  | _ => rfl

theorem BranchHead.isAsync_eq_false {head : BranchHead} (h : head.IsSync) : head.isAsync = false := by
  cases head with
  | for_ => exact h.1
  | _ => rfl

mutual

theorem Stmt.isSync_blocking : (s : Stmt) → s.blocking.IsSync
  | .simple _ what => isSync_simple what
  | .comment _ => trivial
  | .block _ head body => ⟨isSync_blockHead head, isSync_blockingStmts body⟩
  | .branch _ head body orelse => ⟨isSync_branchHead head, isSync_blockingStmts body, isSync_blockingStmts orelse⟩
  | .attempt _ _ body handlers orelse finalbody =>
    ⟨isSync_blockingStmts body, isSync_blockingHandlers handlers, isSync_blockingStmts orelse,
      isSync_blockingStmts finalbody⟩
  | .select _ subject cases => ⟨isSync_expr subject, isSync_blockingCases cases⟩

theorem isSync_blockingStmts : (ss : List Stmt) → stmtsSync (blockingStmts ss)
  | [] => trivial
  | s :: ss => ⟨s.isSync_blocking, isSync_blockingStmts ss⟩

theorem isSync_blockingHandlers : (hs : List Handler) → handlersSync (blockingHandlers hs)
  | [] => trivial
  | .comment _ :: hs => isSync_blockingHandlers hs
  | .handler _ type _ body :: hs =>
    ⟨optional_eq_map type ▸ isSync_optional type, isSync_blockingStmts body, isSync_blockingHandlers hs⟩

theorem isSync_blockingCases : (cs : List Case) → casesSync (blockingCases cs)
  | [] => trivial
  | .comment _ :: cs => isSync_blockingCases cs
  | .case _ p guard body :: cs =>
    ⟨isSync_pattern p, optional_eq_map guard ▸ isSync_optional guard, isSync_blockingStmts body,
      isSync_blockingCases cs⟩

end

mutual

theorem Stmt.blocking_eq_self : (s : Stmt) → s.IsSync → s.blocking = s
  | .simple _ what, h => by rw [Stmt.blocking, simple_eq_self h]
  | .comment _, _ => rfl
  | .block _ head body, ⟨hh, hb⟩ => by
    rw [Stmt.blocking, blockHead_eq_self hh, head.isAsync_eq_false hh, blockingStmts_eq_self body hb]
    rfl
  | .branch _ head body orelse, ⟨hh, hb, ho⟩ => by
    rw [Stmt.blocking, branchHead_eq_self hh, head.isAsync_eq_false hh, blockingStmts_eq_self body hb,
      blockingStmts_eq_self orelse ho]
    rfl
  | .attempt _ _ body handlers orelse finalbody, ⟨hb, hh, ho, hf⟩ => by
    rw [Stmt.blocking, blockingStmts_eq_self body hb, blockingHandlers_eq_self handlers hh,
      blockingStmts_eq_self orelse ho, blockingStmts_eq_self finalbody hf]
  | .select _ subject cases, ⟨hs, hc⟩ => by
    rw [Stmt.blocking, expr_eq_self subject hs, blockingCases_eq_self cases hc]

theorem blockingStmts_eq_self : (ss : List Stmt) → stmtsSync ss → blockingStmts ss = ss
  | [], _ => rfl
  | s :: ss, ⟨hs, hss⟩ => by rw [blockingStmts, s.blocking_eq_self hs, blockingStmts_eq_self ss hss]

theorem blockingHandlers_eq_self : (hs : List Handler) → handlersSync hs → blockingHandlers hs = hs
  | [], _ => rfl
  | .comment _ :: hs, h => by rw [blockingHandlers, blockingHandlers_eq_self hs h]
  | .handler _ type _ body :: hs, ⟨ht, hb, hhs⟩ => by
    rw [blockingHandlers, optional_eq_map, optional_eq_self type ht, blockingStmts_eq_self body hb,
      blockingHandlers_eq_self hs hhs]

theorem blockingCases_eq_self : (cs : List Case) → casesSync cs → blockingCases cs = cs
  | [], _ => rfl
  | .comment _ :: cs, h => by rw [blockingCases, blockingCases_eq_self cs h]
  | .case _ p guard body :: cs, ⟨hp, hg, hb, hcs⟩ => by
    rw [blockingCases, pattern_eq_self p hp, optional_eq_map, optional_eq_self guard hg,
      blockingStmts_eq_self body hb, blockingCases_eq_self cs hcs]

end

namespace Tree

theorem isSync_blocking (t : Tree) : t.blocking.IsSync := by
  rw [IsSync, blocking, body_withBody]
  exact isSync_blockingStmts t.body

theorem blocking_eq_self_of_isSync {t : Tree} (h : t.IsSync) : t.blocking = t := by
  rw [blocking, blockingStmts_eq_self t.body h, withBody_body]

/-- Exactly the trees with nothing asynchronous in them are their own blocking form. -/
theorem blocking_eq_self_iff_isSync (t : Tree) : t.blocking = t ↔ t.IsSync :=
  ⟨fun h => h ▸ t.isSync_blocking, blocking_eq_self_of_isSync⟩

end Tree

end TwinModule
