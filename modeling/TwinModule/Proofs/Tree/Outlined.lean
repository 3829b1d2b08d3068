import TwinModule.Blocking
import TwinModule.Syntax.Outline
/-!
The blocking form of a tree by its outline. In an outline all nodes are alike, so its blocking form is told by one rule
for all of them: a node keeps its kind and its parts but for the few that are named. The outline of the blocking form of
a tree is the blocking form of its outline.
-/
set_option autoImplicit false

namespace TwinModule

namespace Outline
open Blocking

/-- The kinds of statements that are replaced, and what they are replaced by. -/
def plainKinds : List (String × String) :=
  [("AsyncFunctionDef", "FunctionDef"), ("AsyncWith", "With"), ("AsyncFor", "For")]

/-- The parts that hold the name of a method. -/
def methodNames : List (String × String) :=
  [("AsyncFunctionDef", "name"), ("FunctionDef", "name"), ("Attribute", "attr")]

/-- The parts with a node that there may be none of. -/
def optionalParts : List (String × String) :=
  [("Yield", "value"), ("FormattedValue", "format_spec"), ("Slice", "lower"), ("Slice", "upper"), ("Slice", "step"),
    ("arguments", "vararg"), ("arguments", "kwarg"), ("arg", "annotation"), ("MatchAs", "pattern"), ("Return", "value"),
    ("AnnAssign", "value"), ("Raise", "exc"), ("Raise", "cause"), ("Assert", "msg"), ("withitem", "optional_vars"),
    ("AsyncFunctionDef", "returns"), ("FunctionDef", "returns"), ("ExceptHandler", "type"), ("match_case", "guard")]

def isAbsent : Outline → Bool
  | absent => true
  | _ => false

/-- Whether the parts are those of a name that is read. -/
def isRead (parts : List (String × Outline)) : Bool :=
  parts.any fun part => part.1 == "ctx" && match part.2 with
    | text "Load" => true
    | _ => false

def renamed (table : List (String × String)) : Outline → Outline
  | text s => text (rename table s)
  | o => o

/-- What is left of a part besides what becomes of the nodes in it. -/
def settled (kind name : String) (isRead : Bool) (o : Outline) : Outline :=
  if (kind, name) = ("comprehension", "is_async") then number 0
  else if (kind, name) ∈ methodNames then renamed methods o
  else if (kind, name) = ("Name", "id") ∧ isRead = true then renamed builtins o
  else o

/-- A part with what has become of it. Where nothing is left of something there has to be, the part is not there. -/
def kept (kind name : String) (before after : Outline) : List (String × Outline) :=
  if after.isAbsent && !before.isAbsent && !optionalParts.contains (kind, name) then [] else [(name, after)]

mutual

/-- The blocking form of an outline. What is awaited stands for itself. -/
def blocking : Outline → Outline
  | list items => list (blockings items)
  | node kind place tags parts =>
    let blocked := blockingParts kind (isRead parts) parts
    if kind = "Await" then (blocked.lookup "value").getD absent
    else if (plainKinds.lookup kind).isSome then node (rename plainKinds kind) (place.map Span.forChild) tags blocked
    else node kind place tags blocked
  | absent => absent
  | text s => text s
  | number n => number n
  | flag b => flag b
  | literal v => literal v

def blockings : List Outline → List Outline
  | [] => []
  | o :: os => o.blocking :: blockings os

def blockingParts (kind : String) (isRead : Bool) : List (String × Outline) → List (String × Outline)
  | [] => []
  | (name, o) :: rest => kept kind name o (settled kind name isRead o.blocking) ++ blockingParts kind isRead rest

end

@[simp] theorem blocking_absent : absent.blocking = absent := rfl

@[simp] theorem blocking_text (s : String) : (text s).blocking = text s := rfl

@[simp] theorem blocking_number (n : Int) : (number n).blocking = number n := rfl

@[simp] theorem blocking_flag (b : Bool) : (flag b).blocking = flag b := rfl

@[simp] theorem blocking_literal (v : Literal) : (literal v).blocking = literal v := rfl

@[simp] theorem blocking_list (items : List Outline) : (list items).blocking = list (blockings items) := rfl

@[simp] theorem blockings_nil : blockings [] = [] := rfl

@[simp] theorem blockings_cons (o : Outline) (os : List Outline) : blockings (o :: os) = o.blocking :: blockings os := rfl

theorem blockings_eq_map (os : List Outline) : blockings os = os.map blocking := by
  induction os with
  | nil => rfl
  | cons o os ih => simp [ih]

section

variable {kind name : String} {isRead : Bool}

@[simp] theorem blockingParts_nil : blockingParts kind isRead [] = [] := rfl

theorem blockingParts_cons (o : Outline) (rest : List (String × Outline)) :
    blockingParts kind isRead ((name, o) :: rest) =
      kept kind name o (settled kind name isRead o.blocking) ++ blockingParts kind isRead rest := rfl

theorem blockingParts_append (as bs : List (String × Outline)) :
    blockingParts kind isRead (as ++ bs) = blockingParts kind isRead as ++ blockingParts kind isRead bs := by
  induction as with
  | nil => rfl
  | cons a as ih =>
    obtain ⟨name, o⟩ := a
    simp [blockingParts_cons, ih]

/-- A part in which nothing is replaced but what is in its nodes. -/
def IsPlainPart (kind name : String) : Prop :=
  (kind, name) ≠ ("comprehension", "is_async") ∧ (kind, name) ∉ methodNames ∧ (kind, name) ≠ ("Name", "id")

instance : Decidable (IsPlainPart kind name) := inferInstanceAs (Decidable (_ ∧ _ ∧ _))

theorem settled_of_isPlainPart (h : IsPlainPart kind name) (o : Outline) : settled kind name isRead o = o := by
  simp [settled, h.1, h.2.1, h.2.2]

@[simp] theorem blockingParts_required (h : IsPlainPart kind name) (hr : (kind, name) ∉ optionalParts) (o : Outline) :
    blockingParts kind isRead (required name o) = required name o.blocking := by
  by_cases ho : o = absent
  · subst ho
    rfl
  · have hr : optionalParts.contains (kind, name) = false := by simpa using hr
    have ho' : o.isAbsent = false := by cases o <;> simp_all [isAbsent]
    have hreq : required name o = [(name, o)] := by cases o <;> simp_all [required]
    simp only [hreq, blockingParts_cons, settled_of_isPlainPart h, kept, ho', hr]
    cases o.blocking <;> simp [required, isAbsent]

/-- A part that there may be none of stays, even if nothing is left in it. -/
@[simp] theorem blockingParts_optional (h : IsPlainPart kind name) (hr : (kind, name) ∈ optionalParts) (o : Outline)
    (rest : List (String × Outline)) :
    blockingParts kind isRead ((name, o) :: rest) = (name, o.blocking) :: blockingParts kind isRead rest := by
  simp [blockingParts_cons, settled_of_isPlainPart h, kept, hr]

theorem blockingParts_same (h : IsPlainPart kind name) {o : Outline} (ho : o.blocking = o)
    (rest : List (String × Outline)) :
    blockingParts kind isRead ((name, o) :: rest) = (name, o) :: blockingParts kind isRead rest := by
  simp [blockingParts_cons, ho, settled_of_isPlainPart h, kept]

@[simp] theorem blockingParts_absent (h : IsPlainPart kind name) (rest : List (String × Outline)) :
    blockingParts kind isRead ((name, absent) :: rest) = (name, absent) :: blockingParts kind isRead rest :=
  blockingParts_same h rfl rest

@[simp] theorem blockingParts_text (h : IsPlainPart kind name) (s : String) (rest : List (String × Outline)) :
    blockingParts kind isRead ((name, text s) :: rest) = (name, text s) :: blockingParts kind isRead rest :=
  blockingParts_same h rfl rest

@[simp] theorem blockingParts_ofText? (h : IsPlainPart kind name) (s : Option String)
    (rest : List (String × Outline)) :
    blockingParts kind isRead ((name, ofText? s) :: rest) = (name, ofText? s) :: blockingParts kind isRead rest :=
  blockingParts_same h (by cases s <;> rfl) rest

@[simp] theorem blockingParts_number (h : IsPlainPart kind name) (n : Int) (rest : List (String × Outline)) :
    blockingParts kind isRead ((name, number n) :: rest) = (name, number n) :: blockingParts kind isRead rest :=
  blockingParts_same h rfl rest

@[simp] theorem blockingParts_literal (h : IsPlainPart kind name) (v : Literal) (rest : List (String × Outline)) :
    blockingParts kind isRead ((name, literal v) :: rest) = (name, literal v) :: blockingParts kind isRead rest :=
  blockingParts_same h rfl rest

theorem blockingParts_present (h : IsPlainPart kind name) {o : Outline} (ho : o.blocking.isAbsent = false)
    (rest : List (String × Outline)) :
    blockingParts kind isRead ((name, o) :: rest) = (name, o.blocking) :: blockingParts kind isRead rest := by
  simp [blockingParts_cons, settled_of_isPlainPart h, kept, ho]

@[simp] theorem blockingParts_list (h : IsPlainPart kind name) (items : List Outline)
    (rest : List (String × Outline)) :
    blockingParts kind isRead ((name, list items) :: rest) =
      (name, list (blockings items)) :: blockingParts kind isRead rest :=
  blockingParts_present h rfl rest

@[simp] theorem blockingParts_method (h : (kind, name) ∈ methodNames) (s : String) (rest : List (String × Outline)) :
    blockingParts kind isRead ((name, text s) :: rest) =
      (name, text (rename methods s)) :: blockingParts kind isRead rest := by
  have hc : (kind, name) ≠ ("comprehension", "is_async") := by
    rintro heq
    rw [heq] at h
    exact absurd h (by decide)
  simp [blockingParts_cons, settled, hc, h, renamed, kept, isAbsent]

@[simp] theorem blockingParts_isAsync (n : Int) :
    blockingParts "comprehension" isRead [("is_async", number n)] = [("is_async", number 0)] := by
  simp [blockingParts_cons, settled, kept, isAbsent]

@[simp] theorem blockingParts_id (s use : String) :
    blockingParts "Name" isRead [("id", text s), ("ctx", text use)] =
      [("id", text (if isRead then rename builtins s else s)), ("ctx", text use)] := by
  cases isRead <;> simp (disch := decide) [blockingParts_cons, settled, methodNames, renamed, kept, isAbsent]

@[simp] theorem isRead_name (s use : String) : Outline.isRead [("id", text s), ("ctx", text use)] = (use == "Load") := by
  by_cases h : use = "Load"
  · subst h
    rfl
  · simp [Outline.isRead, h]

@[simp] theorem blockings_texts {α : Type} (f : α → String) (xs : List α) :
    blockings (xs.map fun x => text (f x)) = xs.map fun x => text (f x) := by
  induction xs with
  | nil => rfl
  | cons x xs ih => simp [ih]

@[simp] theorem blockings_names (names : List String) : blockings (names.map text) = names.map text :=
  blockings_texts id names

theorem blocking_of_node (kind : String) (place : Option Span) (tags : List Tag) (parts : List (String × Outline)) :
    (node kind place tags parts).blocking =
      let blocked := blockingParts kind (Outline.isRead parts) parts
      if kind = "Await" then (blocked.lookup "value").getD absent
      else if (plainKinds.lookup kind).isSome then node (rename plainKinds kind) (place.map Span.forChild) tags blocked
      else node kind place tags blocked := rfl

/-- A node of a kind that stays has its parts replaced. -/
@[simp] theorem blocking_node (h : kind ≠ "Await") (hp : (plainKinds.lookup kind).isSome = false)
    (place : Option Span) (tags : List Tag) (parts : List (String × Outline)) :
    (node kind place tags parts).blocking = node kind place tags (blockingParts kind (Outline.isRead parts) parts) := by
  simp [blocking_of_node, h, hp]

@[simp] theorem blocking_await (o : Outline) : (Outline.inner "Await" (required "value" o)).blocking = o.blocking := by
  have hplain : IsPlainPart "Await" "value" := by decide
  simp only [inner, blocking_of_node, if_pos, blockingParts_required hplain (by decide)]
  cases o.blocking <;> simp [required]

/-- The parts that are left out where they are missing, before any others. -/
@[simp] theorem blockingParts_required_append (h : IsPlainPart kind name) (hr : (kind, name) ∉ optionalParts)
    (o : Outline) (rest : List (String × Outline)) :
    blockingParts kind isRead (required name o ++ rest) =
      required name o.blocking ++ blockingParts kind isRead rest := by
  rw [blockingParts_append, blockingParts_required h hr]

end

end Outline

open Blocking (rename)
open Outline

/-- There are always parameters, if only an empty list of them. -/
@[simp] theorem blockingParts_params {kind name : String} {isRead : Bool} (h : IsPlainPart kind name) (ps : Params)
    (rest : List (String × Outline)) :
    blockingParts kind isRead ((name, ps.outline) :: rest) =
      (name, ps.outline.blocking) :: blockingParts kind isRead rest := by
  refine blockingParts_present h ?_ rest
  cases ps with
  | mk => simp (disch := decide) [Params.outline, Outline.inner, isAbsent]

mutual

theorem outline_expr : ∀ e : Expr, (Blocking.expr e).outline = e.outline.blocking
  | .boolOp op values => by
    simp (disch := decide) [Blocking.expr, Expr.outline, Outline.inner, outline_exprs values]
  | .walrus target value => by
    simp (disch := decide) [Blocking.expr, Expr.outline, Outline.inner, outline_expr target, outline_expr value]
  | .binary left op right => by
    simp (disch := decide) [Blocking.expr, Expr.outline, Outline.inner, outline_expr left, outline_expr right]
  | .unary op operand => by
    simp (disch := decide) [Blocking.expr, Expr.outline, Outline.inner, outline_expr operand]
  | .lambda ps body => by
    simp (disch := decide) [Blocking.expr, Expr.outline, Outline.inner, outline_params ps, outline_expr body]
  | .ifElse test body orelse => by
    simp (disch := decide) [Blocking.expr, Expr.outline, Outline.inner, outline_expr test, outline_expr body,
      outline_expr orelse]
  | .dict keys values => by
    simp (disch := decide) [Blocking.expr, Expr.outline, Outline.inner, outline_optionals keys, outline_exprs values]
  | .set elements => by
    simp (disch := decide) [Blocking.expr, Expr.outline, Outline.inner, outline_exprs elements]
  | .listComp element clauses => by
    simp (disch := decide) [Blocking.expr, Expr.outline, Outline.inner, outline_expr element, outline_clauses clauses]
  | .setComp element clauses => by
    simp (disch := decide) [Blocking.expr, Expr.outline, Outline.inner, outline_expr element, outline_clauses clauses]
  | .dictComp key value clauses => by
    simp (disch := decide) [Blocking.expr, Expr.outline, Outline.inner, outline_expr key, outline_expr value,
      outline_clauses clauses]
  | .generator element clauses => by
    simp (disch := decide) [Blocking.expr, Expr.outline, Outline.inner, outline_expr element, outline_clauses clauses]
  | .await value => by
    simp [Blocking.expr, Expr.outline, outline_expr value]
  | .yield value => by
    simp (disch := decide) [Blocking.expr, Expr.outline, Outline.inner, outline_optional value]
  | .yieldFrom value => by
    simp (disch := decide) [Blocking.expr, Expr.outline, Outline.inner, outline_expr value]
  | .compare left ops rights => by
    simp (disch := decide) [Blocking.expr, Expr.outline, Outline.inner, outline_expr left, outline_exprs rights]
  | .call callee args keywords => by
    simp (disch := decide) [Blocking.expr, Expr.outline, Outline.inner, outline_expr callee, outline_exprs args,
      outline_keywords keywords]
  | .formatted value conversion spec => by
    simp (disch := decide) [Blocking.expr, Expr.outline, Outline.inner, outline_expr value, outline_optional spec]
  | .format parts => by
    simp (disch := decide) [Blocking.expr, Expr.outline, Outline.inner, outline_exprs parts]
  | .literal value mark => by
    simp (disch := decide) [Blocking.expr, Expr.outline, Outline.inner]
  | .member value name usage => by
    simp (disch := decide) [Blocking.expr, Expr.outline, Outline.inner, outline_expr value]
  | .index value key usage => by
    simp (disch := decide) [Blocking.expr, Expr.outline, Outline.inner, outline_expr value, outline_expr key]
  | .starred value usage => by
    simp (disch := decide) [Blocking.expr, Expr.outline, Outline.inner, outline_expr value]
  | .name id usage => by
    cases usage <;> simp (disch := decide) [Blocking.expr, Expr.outline, Outline.inner, Usage.kindName]
  | .list elements usage => by
    simp (disch := decide) [Blocking.expr, Expr.outline, Outline.inner, outline_exprs elements]
  | .tuple elements usage => by
    simp (disch := decide) [Blocking.expr, Expr.outline, Outline.inner, outline_exprs elements]
  | .slice lower upper step => by
    simp (disch := decide) [Blocking.expr, Expr.outline, Outline.inner, outline_optional lower, outline_optional upper,
      outline_optional step]
  | .gap owner role => by simp [Blocking.expr, Expr.outline]
  | .several items => by simp [Blocking.expr, Expr.outline, outline_exprs items]

theorem outline_exprs : ∀ es : List Expr, outlines (Blocking.exprs es) = blockings (outlines es)
  | [] => by simp [Blocking.exprs, outlines]
  | e :: es => by simp [Blocking.exprs, outlines, outline_expr e, outline_exprs es]

theorem outline_optional : ∀ e : Option Expr, optional (Blocking.optional e) = (optional e).blocking
  | none => by simp [Blocking.optional, optional]
  | some e => by simp [Blocking.optional, optional, outline_expr e]

theorem outline_optionals :
    ∀ es : List (Option Expr), TwinModule.optionals (Blocking.optionals es) = blockings (TwinModule.optionals es)
  | [] => by simp [Blocking.optionals, optionals]
  | e :: es => by simp [Blocking.optionals, optionals, outline_optional e, outline_optionals es]

theorem outline_clauses :
    ∀ cs : List Clause, clauseOutlines (Blocking.clauses cs) = blockings (clauseOutlines cs)
  | [] => by simp [Blocking.clauses, clauseOutlines]
  | .mk target iter conditions isAsync :: cs => by
    simp (disch := decide) [Blocking.clauses, clauseOutlines, Outline.inner, outline_expr target,
      outline_expr iter, outline_exprs conditions, outline_clauses cs]

theorem outline_keywords :
    ∀ ks : List Keyword, keywordOutlines (Blocking.keywords ks) = blockings (keywordOutlines ks)
  | [] => by simp [Blocking.keywords, keywordOutlines]
  | .mk name value :: ks => by
    simp (disch := decide) [Blocking.keywords, keywordOutlines, Outline.inner, outline_expr value,
      outline_keywords ks]

theorem outline_params : ∀ ps : Params, (Blocking.params ps).outline = ps.outline.blocking
  | .mk posOnly args variadic kwOnly kwDefaults kwVariadic defaults => by
    simp (disch := decide) [Blocking.params, Params.outline, Outline.inner, outline_paramList posOnly,
      outline_paramList args, outline_optionalParam variadic, outline_paramList kwOnly,
      outline_optionals kwDefaults, outline_optionalParam kwVariadic, outline_exprs defaults]

theorem outline_param : ∀ p : Param, (Blocking.param p).outline = p.outline.blocking
  | .mk name type typeComment => by
    simp (disch := decide) [Blocking.param, Param.outline, Outline.inner, outline_optional type]

theorem outline_paramList :
    ∀ ps : List Param, paramOutlines (Blocking.paramList ps) = blockings (paramOutlines ps)
  | [] => by simp [Blocking.paramList, paramOutlines]
  | p :: ps => by simp [Blocking.paramList, paramOutlines, outline_param p, outline_paramList ps]

theorem outline_optionalParam :
    ∀ p : Option Param, optionalParam (Blocking.optionalParam p) = (optionalParam p).blocking
  | none => by simp [Blocking.optionalParam, optionalParam]
  | some p => by simp [Blocking.optionalParam, optionalParam, outline_param p]

end

mutual

theorem outline_pattern : ∀ p : Pattern, (Blocking.pattern p).outline = p.outline.blocking
  | .value value => by
    simp (disch := decide) [Blocking.pattern, Pattern.outline, Outline.inner, outline_expr value]
  | .singleton value => by
    simp (disch := decide) [Blocking.pattern, Pattern.outline, Outline.inner]
  | .sequence items => by
    simp (disch := decide) [Blocking.pattern, Pattern.outline, Outline.inner, outline_patterns items]
  | .mapping keys items rest => by
    simp (disch := decide) [Blocking.pattern, Pattern.outline, Outline.inner, outline_exprs keys,
      outline_patterns items]
  | .class_ callee items names named => by
    simp (disch := decide) [Blocking.pattern, Pattern.outline, Outline.inner, outline_expr callee,
      outline_patterns items, outline_patterns named]
  | .star name => by
    simp (disch := decide) [Blocking.pattern, Pattern.outline, Outline.inner]
  | .as_ none name => by
    simp (disch := decide) [Blocking.pattern, Pattern.outline, Outline.inner]
  | .as_ (some item) name => by
    simp (disch := decide) [Blocking.pattern, Pattern.outline, Outline.inner, outline_pattern item]
  | .or_ items => by
    simp (disch := decide) [Blocking.pattern, Pattern.outline, Outline.inner, outline_patterns items]

theorem outline_patterns :
    ∀ ps : List Pattern, patternOutlines (Blocking.patterns ps) = blockings (patternOutlines ps)
  | [] => by simp [Blocking.patterns, patternOutlines]
  | p :: ps => by simp [Blocking.patterns, patternOutlines, outline_pattern p, outline_patterns ps]

end

/-- There is always a pattern in a case. -/
@[simp] theorem blockingParts_pattern {kind name : String} {isRead : Bool} (h : IsPlainPart kind name) (p : Pattern)
    (rest : List (String × Outline)) :
    blockingParts kind isRead ((name, p.outline) :: rest) =
      (name, p.outline.blocking) :: blockingParts kind isRead rest := by
  refine blockingParts_present h ?_ rest
  cases p with
  | as_ item => cases item <;> simp (disch := decide) [Pattern.outline, Outline.inner, isAbsent]
  | _ => simp (disch := decide) [Pattern.outline, Outline.inner, isAbsent]

theorem outline_optional_map (e : Option Expr) : optional (e.map Blocking.expr) = (optional e).blocking := by
  cases e <;> simp [optional, outline_expr]

theorem blockings_aliases (names : List Alias) :
    blockings (names.map Alias.outline) = names.map Alias.outline := by
  have h (a : Alias) : a.outline.blocking = a.outline := by simp (disch := decide) [Alias.outline, Outline.inner]
  simp [blockings_eq_map, h]

theorem outline_withItem (i : WithItem) : (Blocking.withItem i).outline = i.outline.blocking := by
  simp (disch := decide) [Blocking.withItem, WithItem.outline, Outline.inner, outline_expr, outline_optional_map]

theorem blockings_withItems (items : List WithItem) :
    blockings (items.map WithItem.outline) = (items.map Blocking.withItem).map WithItem.outline := by
  simp [blockings_eq_map, outline_withItem]

theorem blockings_decorators (ds : List Decorator) :
    blockings (ds.map fun d => d.expr.outline) = (ds.map Blocking.decorator).map fun d => d.expr.outline := by
  simp [blockings_eq_map, Blocking.decorator, outline_expr]

theorem kindName_simple_ne_await (what : Simple) : what.kindName ≠ "Await" := by
  cases what <;> simp [Simple.kindName]

theorem kindName_blockHead_ne_await (head : BlockHead) : head.kindName ≠ "Await" := by
  cases head with
  | function isAsync => cases isAsync <;> simp [BlockHead.kindName]
  | with_ isAsync => cases isAsync <;> simp [BlockHead.kindName]
  | _ => simp [BlockHead.kindName]

theorem kindName_branchHead_ne_await (head : BranchHead) : head.kindName ≠ "Await" := by
  cases head with
  | for_ isAsync => cases isAsync <;> simp [BranchHead.kindName]
  | _ => simp [BranchHead.kindName]

theorem kindName_simple (what : Simple) : (Blocking.simple what).kindName = what.kindName := by
  cases what <;> rfl

theorem parts_simple (what : Simple) (isRead : Bool) :
    (Blocking.simple what).parts = blockingParts what.kindName isRead what.parts := by
  cases what with
  | importFrom module names level =>
    cases level <;> simp (disch := decide) [Blocking.simple, Simple.parts, Simple.kindName, blockings_aliases]
  | _ =>
    simp (disch := decide) [Blocking.simple, Simple.parts, Simple.kindName, outline_expr, outline_exprs,
      outline_optional_map, blockings_aliases]

theorem kindName_blockHead (head : BlockHead) :
    (Blocking.blockHead head).kindName = rename plainKinds head.kindName := by
  cases head with
  | function isAsync => cases isAsync <;> rfl
  | with_ isAsync => cases isAsync <;> rfl
  | _ => rfl

theorem isSome_lookup_blockHead (head : BlockHead) : (plainKinds.lookup head.kindName).isSome = head.isAsync := by
  cases head with
  | function isAsync => cases isAsync <;> rfl
  | with_ isAsync => cases isAsync <;> rfl
  | _ => rfl

theorem parts_blockHead (head : BlockHead) (isRead : Bool) :
    (Blocking.blockHead head).parts = blockingParts head.kindName isRead head.parts := by
  cases head with
  | function isAsync name ps decorators returns typeComment =>
    cases isAsync <;> simp (disch := decide) [Blocking.blockHead, BlockHead.parts, BlockHead.kindName,
      decoratorOutlines, blockings_decorators, outline_params, outline_optional_map]
  | class_ name bases keywords decorators =>
    simp (disch := decide) [Blocking.blockHead, BlockHead.parts, BlockHead.kindName, decoratorOutlines,
      blockings_decorators, outline_exprs, outline_keywords]
  | with_ isAsync items typeComment =>
    cases isAsync <;> simp (disch := decide) [Blocking.blockHead, BlockHead.parts, BlockHead.kindName,
      blockings_withItems]
  | module_ name => simp (disch := decide) [Blocking.blockHead, BlockHead.parts, BlockHead.kindName]

theorem kindName_branchHead (head : BranchHead) :
    (Blocking.branchHead head).kindName = rename plainKinds head.kindName := by
  cases head with
  | for_ isAsync => cases isAsync <;> rfl
  | _ => rfl

theorem isSome_lookup_branchHead (head : BranchHead) : (plainKinds.lookup head.kindName).isSome = head.isAsync := by
  cases head with
  | for_ isAsync => cases isAsync <;> rfl
  | _ => rfl

theorem parts_branchHead (head : BranchHead) (isRead : Bool) :
    (Blocking.branchHead head).parts = blockingParts head.kindName isRead head.parts := by
  cases head with
  | for_ isAsync target iter typeComment =>
    cases isAsync <;> simp (disch := decide) [Blocking.branchHead, BranchHead.parts, BranchHead.kindName, outline_expr]
  | _ => simp (disch := decide) [Blocking.branchHead, BranchHead.parts, BranchHead.kindName, outline_expr]

/-- A statement whose kind may be replaced: it has the tags of the one it replaces, and its place with a start. -/
theorem blocking_placed {kind : String} {isAsync : Bool} (ha : kind ≠ "Await")
    (h : (plainKinds.lookup kind).isSome = isAsync) (info : Info) (parts : List (String × Outline)) :
    (placed kind info parts).blocking =
      placed (rename plainKinds kind) (info.renewed isAsync) (blockingParts kind (isRead parts) parts) := by
  cases isAsync with
  | false =>
    have hnone : plainKinds.lookup kind = none := Option.not_isSome_iff_eq_none.mp (by simp [h])
    have hr : rename plainKinds kind = kind := by rw [rename, hnone, Option.getD_none]
    simp [placed, ha, h, Info.renewed, hr]
  | true => simp [placed, blocking_of_node, ha, h, Info.renewed]

theorem blocking_outline_comment (c : Comment) : c.outline.blocking = c.outline := by
  simp (disch := decide) [Comment.outline, blockingParts_cons, settled, methodNames, kept]

theorem isPlainPart_body (kind : String) : IsPlainPart kind "body" := by
  simp [IsPlainPart, methodNames]

theorem isPlainPart_orelse (kind : String) : IsPlainPart kind "orelse" := by
  simp [IsPlainPart, methodNames]

mutual

theorem outline_stmt : ∀ s : Stmt, s.blocking.outline = s.outline.blocking
  | .simple info what => by
    have hp : (plainKinds.lookup what.kindName).isSome = false := by cases what <;> rfl
    rw [Stmt.blocking, Stmt.outline, Stmt.outline, placed, placed,
      blocking_node (kindName_simple_ne_await what) hp, kindName_simple, ← parts_simple]
  | .comment c => by rw [Stmt.blocking, Stmt.outline, blocking_outline_comment]
  | .block info head body => by
    rw [Stmt.blocking, Stmt.outline, Stmt.outline,
      blocking_placed (kindName_blockHead_ne_await head) (isSome_lookup_blockHead head), kindName_blockHead,
      blockingParts_list (isPlainPart_body _), ← parts_blockHead, outline_stmts body]
  | .branch info head body orelse => by
    rw [Stmt.blocking, Stmt.outline, Stmt.outline,
      blocking_placed (kindName_branchHead_ne_await head) (isSome_lookup_branchHead head), kindName_branchHead,
      blockingParts_append, ← parts_branchHead, blockingParts_list (isPlainPart_body _),
      blockingParts_list (isPlainPart_orelse _), blockingParts_nil, outline_stmts body, outline_stmts orelse]
  | .attempt info isGroup body handlers orelse finalbody => by
    cases isGroup <;> simp (disch := decide) [Stmt.blocking, Stmt.outline, placed, outline_stmts body,
      outline_handlers handlers, outline_stmts orelse, outline_stmts finalbody]
  | .select info subject cases => by
    simp (disch := decide) [Stmt.blocking, Stmt.outline, placed, outline_expr, outline_cases cases]

theorem outline_stmts : ∀ ss : List Stmt, stmtOutlines (blockingStmts ss) = blockings (stmtOutlines ss)
  | [] => by simp [blockingStmts, stmtOutlines]
  | s :: ss => by simp [blockingStmts, stmtOutlines, outline_stmt s, outline_stmts ss]

theorem outline_handlers : ∀ hs : List Handler, handlerOutlines (blockingHandlers hs) = blockings (handlerOutlines hs)
  | [] => by simp [blockingHandlers, handlerOutlines]
  | .comment c :: hs => by
    simp [blockingHandlers, handlerOutlines, blocking_outline_comment, outline_handlers hs]
  | .handler span type name body :: hs => by
    simp (disch := decide) [blockingHandlers, handlerOutlines, outline_optional_map, outline_stmts body,
      outline_handlers hs]

theorem outline_cases : ∀ cs : List Case, caseOutlines (blockingCases cs) = blockings (caseOutlines cs)
  | [] => by simp [blockingCases, caseOutlines]
  | .comment c :: cs => by
    simp [blockingCases, caseOutlines, blocking_outline_comment, outline_cases cs]
  | .case lines pattern guard body :: cs => by
    simp (disch := decide) [blockingCases, caseOutlines, Outline.inner, outline_pattern,
      outline_optional_map, outline_stmts body, outline_cases cs]

end

theorem outline_tree (t : Tree) : t.blocking.outline = t.outline.blocking := by
  cases t with
  | file body =>
    simp (disch := decide) [Tree.blocking, Tree.body, Tree.withBody, Tree.outline, Outline.inner, outline_stmts]
  | module_ info name body =>
    simp (disch := decide) [Tree.blocking, Tree.body, Tree.withBody, Tree.outline, placed, outline_stmts]

/-- Whatever is known of a place is the same in the other one. -/
def Span.KnownIn (s r : Span) : Prop :=
  ∀ position ∈ [Span.line, Span.column, Span.endLine, Span.endColumn],
    ∀ n, position s = some n → position r = some n

theorem Span.knownIn_forChild (s : Span) : s.KnownIn s.forChild := by
  simp +contextual [Span.KnownIn, Span.forChild]

/-- The one statement stands for the other: it is of the kind that the other's is replaced by, and has its tags and what
is known of its place. -/
structure Stmt.StandsFor (r s : Stmt) : Prop where
  kind : r.kindName = rename plainKinds s.kindName
  tags : r.tags = s.tags
  place : s.span.KnownIn r.span

theorem Info.knownIn_renewed (info : Info) (isNew : Bool) : info.span.KnownIn (info.renewed isNew).span := by
  cases isNew with
  | false => exact fun _ _ _ h => h
  | true => exact info.span.knownIn_forChild

theorem Stmt.standsFor_blocking (s : Stmt) : s.blocking.StandsFor s where
  kind := by
    cases s with
    | simple info what =>
      rw [Stmt.blocking, Stmt.kindName, Stmt.kindName, kindName_simple]
      cases what <;> rfl
    | block info head body => exact kindName_blockHead head
    | branch info head body orelse => exact kindName_branchHead head
    | attempt info isGroup => cases isGroup <;> rfl
    | comment c => rfl
    | select info subject cases => rfl
  tags := by
    cases s with
    | block info head body => exact tags_renewed info head.isAsync
    | branch info head body orelse => exact tags_renewed info head.isAsync
    | _ => rfl
  place := by
    cases s with
    | block info head body => exact info.knownIn_renewed head.isAsync
    | branch info head body orelse => exact info.knownIn_renewed head.isAsync
    | _ => exact fun _ _ _ h => h

/-- The blocking form of a tree is the tree node by node: its outline is the blocking form of the outline. Each list of
statements is as long as before, and the statement in each place stands for the one that was there. -/
theorem blocking_keeps_structure :
    (∀ t : Tree, t.blocking.outline = t.outline.blocking) ∧
      (∀ statements : List Stmt, blockingStmts statements = statements.map Stmt.blocking) ∧
      ∀ s : Stmt, s.blocking.StandsFor s :=
  ⟨outline_tree, blockingStmts_eq_map, Stmt.standsFor_blocking⟩

end TwinModule
