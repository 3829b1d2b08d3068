import TwinModule.Proofs.Tree.Tidy
import TwinModule.Syntax.Outline
/-!
Passes over the lists of a tree by its outline. A pass replaces every list in a tree, whatever node it is in and
whatever it holds. In a tree of statements only blocks, handlers and cases are lists with anything to replace, and the
passes over these do to the tree what the passes over all lists do to its outline.
-/
set_option autoImplicit false

namespace TwinModule

namespace Outline

/-- Induction on outlines, with what is in a list and in the parts of a node. -/
@[elab_as_elim]
theorem induction {motive : Outline → Prop} (absent : motive absent) (text : ∀ s, motive (text s))
    (number : ∀ n, motive (number n)) (flag : ∀ b, motive (flag b)) (literal : ∀ v, motive (literal v))
    (list : ∀ items, (∀ o ∈ items, motive o) → motive (list items))
    (node : ∀ kind place tags parts, (∀ part ∈ parts, motive part.2) → motive (node kind place tags parts))
    (o : Outline) : motive o := by
  refine Outline.rec (motive_1 := motive) (motive_2 := fun items => ∀ o ∈ items, motive o)
    (motive_3 := fun parts => ∀ part ∈ parts, motive part.2) (motive_4 := fun part => motive part.2)
    absent text number flag literal list node ?_ ?_ ?_ ?_ ?_ o
  · simp
  · intro o os ho hos
    simpa using ⟨ho, hos⟩
  · simp
  · intro part parts hpart hparts
    exact List.forall_mem_cons.mpr ⟨hpart, hparts⟩
  · exact fun _ _ h => h

/-- What a node is called; the data in a part is not called anything. -/
def kindName : Outline → String
  | node kind .. => kind
  | _ => ""

def place : Outline → Option Span
  | node _ place .. => place
  | _ => none

def parts : Outline → List (String × Outline)
  | node _ _ _ parts => parts
  | _ => []

def items : Outline → List Outline
  | list items => items
  | _ => []

def isList : Outline → Bool
  | list _ => true
  | _ => false

def isNode : Outline → Bool
  | node .. => true
  | _ => false

def statementKinds : List String :=
  ["FunctionDef", "AsyncFunctionDef", "ClassDef", "Return", "Delete", "Assign", "AugAssign", "AnnAssign", "For",
    "AsyncFor", "While", "If", "With", "AsyncWith", "Match", "Raise", "Try", "TryStar", "Assert", "Import",
    "ImportFrom", "Global", "Nonlocal", "Expr", "Pass", "Break", "Continue", "ModuleDef", "Erased"]

/-- The nodes with blocks. -/
def blockKinds : List String :=
  ["Module", "ModuleDef", "FunctionDef", "AsyncFunctionDef", "ClassDef", "For", "AsyncFor", "While", "If", "With",
    "AsyncWith", "Try", "TryStar", "ExceptHandler", "match_case"]

def blockNames : List String := ["body", "orelse", "finalbody"]

def isComment (o : Outline) : Bool := o.kindName == "Comment"

def isStatement (o : Outline) : Bool := statementKinds.contains o.kindName

/-- A `try` without handlers. -/
def isBareTry (o : Outline) : Bool :=
  o.kindName == "Try" && match o.parts.lookup "handlers" with
    | some (list []) => true
    | _ => false

/-- What becomes of the list in a part of a node, given the node, the name of the part and what is in the list. -/
abbrev ListMap := Outline → String → List Outline → List Outline

def rewritten (f : ListMap) (owner : Outline) (name : String) : Outline → Outline
  | list items => list (f owner name items)
  | o => o

mutual

/-- All lists in the parts of nodes replaced, those further in first. The node is told to the map as it was. -/
def mapLists (f : ListMap) : Outline → Outline
  | list items => list (mapItems f items)
  | node kind place tags parts => node kind place tags (mapParts f (node kind place tags parts) parts)
  | absent => absent
  | text s => text s
  | number n => number n
  | flag b => flag b
  | literal v => literal v

def mapItems (f : ListMap) : List Outline → List Outline
  | [] => []
  | o :: os => o.mapLists f :: mapItems f os

def mapParts (f : ListMap) (owner : Outline) : List (String × Outline) → List (String × Outline)
  | [] => []
  | (name, o) :: rest => (name, rewritten f owner name (o.mapLists f)) :: mapParts f owner rest

end

/-- Without comments. -/
def bared : ListMap := fun _ _ items => items.filter fun o => !o.isComment

/-- The statement that a block without one needs: every body but that of a file, and the last block of a `try`
without handlers. -/
def filler? (owner : Outline) (name : String) : Option Outline :=
  if name = "body" ∧ owner.kindName ≠ "Module" ∨ name = "finalbody" ∧ owner.isBareTry = true then
    some (node "Pass" (some (owner.place.getD Span.unset).forChild) [] [])
  else none

/-- What is added to a list: the statement that it needs, unless it has one. -/
def added (owner : Outline) (name : String) (items : List Outline) : List Outline :=
  if items.any isStatement then [] else (filler? owner name).toList

def filled : ListMap := fun owner name items => items ++ added owner name items

mutual

/-- The outline with all places complete, given the place of what is around it. -/
def located (outer : Span) : Outline → Outline
  | list items => list (locatedItems outer items)
  | node kind place tags parts =>
    node kind (place.map fun s => s.orElse outer) tags
      (locatedParts ((place.map fun s => s.orElse outer).getD outer) parts)
  | absent => absent
  | text s => text s
  | number n => number n
  | flag b => flag b
  | literal v => literal v

def locatedItems (outer : Span) : List Outline → List Outline
  | [] => []
  | o :: os => o.located outer :: locatedItems outer os

def locatedParts (outer : Span) : List (String × Outline) → List (String × Outline)
  | [] => []
  | (name, o) :: rest => (name, o.located outer) :: locatedParts outer rest

end

mutual

/-- Whether everything in an outline is such, the outline itself included. -/
@[simp] def every (p : Outline → Bool) : Outline → Bool
  | list items => p (list items) && everyItem p items
  | node kind place tags parts => p (node kind place tags parts) && everyPart p parts
  | absent => p absent
  | text s => p (text s)
  | number n => p (number n)
  | flag b => p (flag b)
  | literal v => p (literal v)

@[simp] def everyItem (p : Outline → Bool) : List Outline → Bool
  | [] => true
  | o :: os => o.every p && everyItem p os

@[simp] def everyPart (p : Outline → Bool) : List (String × Outline) → Bool
  | [] => true
  | (_, o) :: rest => o.every p && everyPart p rest

end

/-- The lists of a node of the language: there are none in a list, blocks are only where there are blocks, and hold
statements and comments. A comment may be in any list, but is never a part on its own. -/
def isRegular : Outline → Bool
  | list items => items.all fun o => !o.isList
  | node kind _ _ parts => parts.all fun part =>
    !part.2.isComment && (!(blockNames.contains part.1 && part.2.isList) ||
      blockKinds.contains kind && part.2.items.all fun o => o.isStatement || o.isComment)
  | _ => true

section

variable {f : ListMap} {p : Outline → Bool} {outer : Span}

theorem mapItems_eq_map (os : List Outline) : mapItems f os = os.map (mapLists f) := by
  induction os with
  | nil => rfl
  | cons o os ih => simp [mapItems, ih]

theorem mapParts_eq_map (owner : Outline) (parts : List (String × Outline)) :
    mapParts f owner parts = parts.map fun part => (part.1, rewritten f owner part.1 (part.2.mapLists f)) := by
  induction parts with
  | nil => rfl
  | cons part parts ih => simp [mapParts, ih]

theorem locatedItems_eq_map (os : List Outline) : locatedItems outer os = os.map (located outer) := by
  induction os with
  | nil => rfl
  | cons o os ih => simp [locatedItems, ih]

theorem locatedParts_eq_map (parts : List (String × Outline)) :
    locatedParts outer parts = parts.map fun part => (part.1, part.2.located outer) := by
  induction parts with
  | nil => rfl
  | cons part parts ih => simp [locatedParts, ih]

theorem everyItem_eq_all (os : List Outline) : everyItem p os = os.all (every p) := by
  induction os with
  | nil => rfl
  | cons o os ih => simp [everyItem, ih]

theorem everyPart_eq_all (parts : List (String × Outline)) :
    everyPart p parts = parts.all fun part => part.2.every p := by
  induction parts with
  | nil => rfl
  | cons part parts ih => simp [everyPart, ih]

theorem mapLists_list (items : List Outline) : (list items).mapLists f = list (items.map (mapLists f)) := by
  rw [mapLists, mapItems_eq_map]

theorem mapLists_node (kind : String) (place : Option Span) (tags : List Tag) (parts : List (String × Outline)) :
    (node kind place tags parts).mapLists f = node kind place tags (parts.map fun part =>
      (part.1, rewritten f (node kind place tags parts) part.1 (part.2.mapLists f))) := by
  rw [mapLists, mapParts_eq_map]

theorem located_list (items : List Outline) : (list items).located outer = list (items.map (located outer)) := by
  rw [located, locatedItems_eq_map]

theorem located_node (kind : String) (place : Option Span) (tags : List Tag) (parts : List (String × Outline)) :
    (node kind place tags parts).located outer = node kind (place.map fun s => s.orElse outer) tags
      (parts.map fun part => (part.1, part.2.located ((place.map fun s => s.orElse outer).getD outer))) := by
  rw [located, locatedParts_eq_map]

theorem every_list (items : List Outline) :
    (list items).every p = true ↔ p (list items) = true ∧ ∀ o ∈ items, o.every p = true := by
  simp [every, everyItem_eq_all]

theorem every_node (kind : String) (place : Option Span) (tags : List Tag) (parts : List (String × Outline)) :
    (node kind place tags parts).every p = true ↔
      p (node kind place tags parts) = true ∧ ∀ part ∈ parts, part.2.every p = true := by
  rw [every, everyPart_eq_all, Bool.and_eq_true, List.all_eq_true]

theorem every_and {q : Outline → Bool} {o : Outline} (hp : o.every p = true) (hq : o.every q = true) :
    (o.every fun n => p n && q n) = true := by
  induction o using Outline.induction with
  | list items ih =>
    obtain ⟨hp, hps⟩ := (every_list items).mp hp
    obtain ⟨hq, hqs⟩ := (every_list items).mp hq
    exact (every_list items).mpr ⟨by rw [hp, hq]; rfl, fun o ho => ih o ho (hps o ho) (hqs o ho)⟩
  | node kind place tags parts ih =>
    obtain ⟨hp, hps⟩ := (every_node ..).mp hp
    obtain ⟨hq, hqs⟩ := (every_node ..).mp hq
    exact (every_node ..).mpr ⟨by rw [hp, hq]; rfl, fun part hp => ih part hp (hps part hp) (hqs part hp)⟩
  | _ => exact Bool.and_eq_true_iff.mpr ⟨hp, hq⟩

@[simp] theorem kindName_mapLists (o : Outline) : (o.mapLists f).kindName = o.kindName := by
  cases o <;> rfl

@[simp] theorem kindName_located (o : Outline) : (o.located outer).kindName = o.kindName := by
  cases o <;> rfl

@[simp] theorem kindName_rewritten (owner : Outline) (name : String) (o : Outline) :
    (rewritten f owner name o).kindName = o.kindName := by
  cases o <;> rfl

theorem isRegular_node {kind : String} {place : Option Span} {tags : List Tag} {parts : List (String × Outline)} :
    (node kind place tags parts).isRegular = true ↔ ∀ part ∈ parts,
      part.2.isComment = false ∧ (part.1 ∈ blockNames → part.2.isList = true →
        kind ∈ blockKinds ∧ ∀ o ∈ part.2.items, o.isStatement = true ∨ o.isComment = true) := by
  rw [isRegular, List.all_eq_true]
  refine forall₂_congr fun part hp => ?_
  rw [Bool.and_eq_true, Bool.not_eq_true', Bool.or_eq_true, Bool.not_eq_true', Bool.and_eq_false_iff,
    Bool.and_eq_true, List.all_eq_true]
  simp only [Bool.or_eq_true, List.contains_eq_mem, decide_eq_true_eq, decide_eq_false_iff_not]
  grind

/-- What is in an expression or a pattern: nodes with no place and no blocks that are no comments. -/
@[simp] def isInner : Outline → Bool
  | node kind place _ _ => place.isNone && kind != "Comment" && !blockKinds.contains kind
  | _ => true

theorem not_isComment_of_inner {o : Outline} (h : o.every isInner = true) : o.isComment = false := by
  cases o with
  | node kind place tags parts =>
    have h := ((every_node ..).mp h).1
    simp only [isInner, Bool.and_eq_true, bne_iff_ne] at h
    simpa [isComment, kindName] using h.1.2
  | _ => rfl

/-- A map that replaces only blocks and lists with comments in them. -/
def IsQuiet (f : ListMap) : Prop :=
  ∀ owner name items, name ∉ blockNames → (∀ o ∈ items, o.isComment = false) → f owner name items = items

theorem isQuiet_bared : IsQuiet bared := by
  intro owner name items hname hitems
  exact List.filter_eq_self.mpr fun o ho => by simp [hitems o ho]

theorem added_of_name (owner : Outline) {name : String} (hname : name ∉ blockNames) (items : List Outline) :
    added owner name items = [] := by
  have hnone : filler? owner name = none := by
    refine if_neg ?_
    rintro (⟨rfl, -⟩ | ⟨rfl, -⟩)
    · exact hname (by decide)
    · exact hname (by decide)
  simp [added, hnone]

theorem filled_of_name (owner : Outline) {name : String} (hname : name ∉ blockNames) (items : List Outline) :
    filled owner name items = items := by
  rw [filled, added_of_name owner hname, List.append_nil]

theorem isQuiet_filled : IsQuiet filled := fun owner _ items hname _ => filled_of_name owner hname items

theorem rewritten_of_inner (hf : IsQuiet f) (owner : Outline) {name : String} {o : Outline}
    (hname : o.isList = true → name ∉ blockNames) (hi : o.every isInner = true) : rewritten f owner name o = o := by
  cases o with
  | list items =>
    have hitems := ((every_list items).mp hi).2
    rw [rewritten, hf owner name items (hname rfl) fun o ho => not_isComment_of_inner (hitems o ho)]
  | _ => rfl

/-- Nothing in an expression is replaced. -/
theorem mapLists_of_inner (hf : IsQuiet f) (o : Outline) (hi : o.every isInner = true) (hr : o.every isRegular = true) :
    o.mapLists f = o := by
  induction o using Outline.induction with
  | list items ih =>
    have hi := ((every_list items).mp hi).2
    have hr := ((every_list items).mp hr).2
    rw [mapLists_list, List.map_congr_left fun o ho => ih o ho (hi o ho) (hr o ho), List.map_id']
  | node kind place tags parts ih =>
    obtain ⟨hinner, hi⟩ := (every_node ..).mp hi
    obtain ⟨hregular, hr⟩ := (every_node ..).mp hr
    have hkind : kind ∉ blockKinds := by
      simp only [isInner, Bool.and_eq_true] at hinner
      simpa using hinner.2
    have hpart : ∀ part ∈ parts,
        (part.1, rewritten f (node kind place tags parts) part.1 (part.2.mapLists f)) = part := by
      intro part hp
      have hname : part.2.isList = true → part.1 ∉ blockNames := fun hlist hmem =>
        hkind ((isRegular_node.mp hregular part hp).2 hmem hlist).1
      rw [ih part hp (hi part hp) (hr part hp), rewritten_of_inner hf _ hname (hi part hp)]
    rw [mapLists_node, List.map_congr_left hpart, List.map_id']
  | _ => rfl

/-- There are no places in an expression. -/
theorem located_of_inner (o : Outline) (hi : o.every isInner = true) : o.located outer = o := by
  induction o using Outline.induction with
  | list items ih =>
    have hi := ((every_list items).mp hi).2
    rw [located_list, List.map_congr_left fun o ho => ih o ho (hi o ho), List.map_id']
  | node kind place tags parts ih =>
    obtain ⟨hinner, hparts⟩ := (every_node ..).mp hi
    have hplace : place = none := by
      simp only [isInner, Bool.and_eq_true] at hinner
      simpa using hinner.1.1
    subst hplace
    have hpart : ∀ part ∈ parts, (part.1, part.2.located outer) = part := fun part hp => by
      rw [ih part hp (hparts part hp)]
    rw [located_node, Option.map_none, Option.getD_none, List.map_congr_left hpart, List.map_id']
  | _ => rfl

end

@[simp] theorem every_inner {kind : String} (hk : kind ≠ "Comment") (hb : kind ∉ blockKinds)
    (parts : List (String × Outline)) : (inner kind parts).every isInner = everyPart isInner parts := by
  simp [inner, hk, hb]

@[simp] theorem everyPart_append {p : Outline → Bool} (as bs : List (String × Outline)) :
    everyPart p (as ++ bs) = (everyPart p as && everyPart p bs) := by
  simp [everyPart_eq_all]

@[simp] theorem everyPart_required (name : String) (o : Outline) :
    everyPart isInner (required name o) = o.every isInner := by
  cases o <;> simp [required]

@[simp] theorem every_ofText? (s : Option String) : (ofText? s).every isInner = true := by
  cases s <;> rfl

@[simp] theorem everyItem_texts {α : Type} (g : α → String) (xs : List α) :
    everyItem isInner (xs.map fun x => text (g x)) = true := by
  simp [everyItem_eq_all]

@[simp] theorem everyItem_names (names : List String) : everyItem isInner (names.map text) = true :=
  everyItem_texts id names

end Outline

open Outline

mutual

theorem inner_expr : ∀ e : Expr, e.outline.every isInner = true
  | .boolOp op values => by simp (disch := decide) [Expr.outline, inner_exprs values]
  | .walrus target value => by simp (disch := decide) [Expr.outline, inner_expr target, inner_expr value]
  | .binary left op right => by simp (disch := decide) [Expr.outline, inner_expr left, inner_expr right]
  | .unary op operand => by simp (disch := decide) [Expr.outline, inner_expr operand]
  | .lambda ps body => by simp (disch := decide) [Expr.outline, inner_params ps, inner_expr body]
  | .ifElse test body orelse => by
    simp (disch := decide) [Expr.outline, inner_expr test, inner_expr body, inner_expr orelse]
  | .dict keys values => by simp (disch := decide) [Expr.outline, inner_optionals keys, inner_exprs values]
  | .set elements => by simp (disch := decide) [Expr.outline, inner_exprs elements]
  | .listComp element clauses => by
    simp (disch := decide) [Expr.outline, inner_expr element, inner_clauses clauses]
  | .setComp element clauses => by
    simp (disch := decide) [Expr.outline, inner_expr element, inner_clauses clauses]
  | .dictComp key value clauses => by
    simp (disch := decide) [Expr.outline, inner_expr key, inner_expr value, inner_clauses clauses]
  | .generator element clauses => by
    simp (disch := decide) [Expr.outline, inner_expr element, inner_clauses clauses]
  | .await value => by simp (disch := decide) [Expr.outline, inner_expr value]
  | .yield value => by simp (disch := decide) [Expr.outline, inner_optional value]
  | .yieldFrom value => by simp (disch := decide) [Expr.outline, inner_expr value]
  | .compare left ops rights => by simp (disch := decide) [Expr.outline, inner_expr left, inner_exprs rights]
  | .call callee args keywords => by
    simp (disch := decide) [Expr.outline, inner_expr callee, inner_exprs args, inner_keywords keywords]
  | .formatted value conversion spec => by
    simp (disch := decide) [Expr.outline, inner_expr value, inner_optional spec]
  | .format parts => by simp (disch := decide) [Expr.outline, inner_exprs parts]
  | .literal value mark => by simp (disch := decide) [Expr.outline]
  | .member value name usage => by simp (disch := decide) [Expr.outline, inner_expr value]
  | .index value key usage => by simp (disch := decide) [Expr.outline, inner_expr value, inner_expr key]
  | .starred value usage => by simp (disch := decide) [Expr.outline, inner_expr value]
  | .name id usage => by simp (disch := decide) [Expr.outline]
  | .list elements usage => by simp (disch := decide) [Expr.outline, inner_exprs elements]
  | .tuple elements usage => by simp (disch := decide) [Expr.outline, inner_exprs elements]
  | .slice lower upper step => by
    simp (disch := decide) [Expr.outline, inner_optional lower, inner_optional upper, inner_optional step]
  | .gap .. => by simp [Expr.outline]
  | .several items => by simp [Expr.outline, inner_exprs items]

theorem inner_exprs : ∀ es : List Expr, everyItem isInner (outlines es) = true
  | [] => rfl
  | e :: es => by simp [outlines, inner_expr e, inner_exprs es]

theorem inner_optional : ∀ e : Option Expr, (optional e).every isInner = true
  | none => rfl
  | some e => by simp [optional, inner_expr e]

theorem inner_optionals : ∀ es : List (Option Expr), everyItem isInner (optionals es) = true
  | [] => rfl
  | e :: es => by simp [optionals, inner_optional e, inner_optionals es]

theorem inner_clauses : ∀ cs : List Clause, everyItem isInner (clauseOutlines cs) = true
  | [] => rfl
  | .mk target iter conditions isAsync :: cs => by
    simp (disch := decide) [clauseOutlines, inner_expr target, inner_expr iter, inner_exprs conditions,
      inner_clauses cs]

theorem inner_keywords : ∀ ks : List Keyword, everyItem isInner (keywordOutlines ks) = true
  | [] => rfl
  | .mk name value :: ks => by
    simp (disch := decide) [keywordOutlines, inner_expr value, inner_keywords ks]

theorem inner_params : ∀ ps : Params, ps.outline.every isInner = true
  | .mk posOnly args variadic kwOnly kwDefaults kwVariadic defaults => by
    simp (disch := decide) [Params.outline, inner_paramList posOnly, inner_paramList args,
      inner_optionalParam variadic, inner_paramList kwOnly, inner_optionals kwDefaults,
      inner_optionalParam kwVariadic, inner_exprs defaults]

theorem inner_param : ∀ p : Param, p.outline.every isInner = true
  | .mk name type typeComment => by simp (disch := decide) [Param.outline, inner_optional type]

theorem inner_paramList : ∀ ps : List Param, everyItem isInner (paramOutlines ps) = true
  | [] => rfl
  | p :: ps => by simp [paramOutlines, inner_param p, inner_paramList ps]

theorem inner_optionalParam : ∀ p : Option Param, (optionalParam p).every isInner = true
  | none => rfl
  | some p => by simp [optionalParam, inner_param p]

end

mutual

theorem inner_pattern : ∀ p : Pattern, p.outline.every isInner = true
  | .value value => by simp (disch := decide) [Pattern.outline, inner_expr value]
  | .singleton value => by simp (disch := decide) [Pattern.outline]
  | .sequence items => by simp (disch := decide) [Pattern.outline, inner_patterns items]
  | .mapping keys items rest => by
    simp (disch := decide) [Pattern.outline, inner_exprs keys, inner_patterns items]
  | .class_ callee items names named => by
    simp (disch := decide) [Pattern.outline, inner_expr callee, inner_patterns items,
      inner_patterns named]
  | .star name => by simp (disch := decide) [Pattern.outline]
  | .as_ none name => by simp (disch := decide) [Pattern.outline]
  | .as_ (some item) name => by simp (disch := decide) [Pattern.outline, inner_pattern item]
  | .or_ items => by simp (disch := decide) [Pattern.outline, inner_patterns items]

theorem inner_patterns : ∀ ps : List Pattern, everyItem isInner (patternOutlines ps) = true
  | [] => rfl
  | p :: ps => by simp [patternOutlines, inner_pattern p, inner_patterns ps]

end

/-- What is in a statement besides its blocks. -/
def plainParts (parts : List (String × Outline)) : Bool :=
  parts.all fun part => !blockNames.contains part.1 && part.2.every isInner

@[simp] theorem plainParts_nil : plainParts [] = true := rfl

@[simp] theorem plainParts_cons {name : String} (h : name ∉ blockNames) (o : Outline)
    (rest : List (String × Outline)) :
    plainParts ((name, o) :: rest) = (o.every isInner && plainParts rest) := by
  simp [plainParts, h]

@[simp] theorem plainParts_append (as bs : List (String × Outline)) :
    plainParts (as ++ bs) = (plainParts as && plainParts bs) := by
  simp [plainParts]

@[simp] theorem plainParts_required {name : String} (h : name ∉ blockNames) (o : Outline) :
    plainParts (required name o) = o.every isInner := by
  cases o <;> simp [required, plainParts, h]

theorem inner_alias (a : Alias) : a.outline.every isInner = true := by
  simp (disch := decide) [Alias.outline]

theorem inner_withItem (i : WithItem) : i.outline.every isInner = true := by
  simp (disch := decide) [WithItem.outline, inner_expr, inner_optional]

theorem inner_decorators (ds : List Decorator) : (decoratorOutlines ds).every isInner = true := by
  simp [decoratorOutlines, everyItem_eq_all, inner_expr]

theorem plainParts_simple (what : Simple) : plainParts what.parts = true := by
  cases what with
  | importFrom module names level =>
    cases level <;> simp (disch := decide) [Simple.parts, everyItem_eq_all, inner_alias]
  | import_ names => simp (disch := decide) [Simple.parts, everyItem_eq_all, inner_alias]
  | _ => simp (disch := decide) [Simple.parts, inner_expr, inner_exprs, inner_optional]

theorem plainParts_blockHead (head : BlockHead) : plainParts head.parts = true := by
  cases head with
  | with_ isAsync items => simp (disch := decide) [BlockHead.parts, everyItem_eq_all, inner_withItem]
  | _ =>
    simp (disch := decide) [BlockHead.parts, inner_params, inner_decorators, inner_optional, inner_exprs,
      inner_keywords]

theorem plainParts_branchHead (head : BranchHead) : plainParts head.parts = true := by
  cases head <;> simp (disch := decide) [BranchHead.parts, inner_expr]

section

variable {f : ListMap} {owner : Outline} {outer : Span}

@[simp] theorem mapParts_append (as bs : List (String × Outline)) :
    mapParts f owner (as ++ bs) = mapParts f owner as ++ mapParts f owner bs := by
  simp [mapParts_eq_map]

@[simp] theorem locatedParts_append (as bs : List (String × Outline)) :
    locatedParts outer (as ++ bs) = locatedParts outer as ++ locatedParts outer bs := by
  simp [locatedParts_eq_map]

theorem rewritten_mapLists_of_inner (hf : IsQuiet f) {name : String} {o : Outline} (hname : name ∉ blockNames)
    (hi : o.every isInner = true) (hr : o.every isRegular = true) : rewritten f owner name (o.mapLists f) = o := by
  rw [mapLists_of_inner hf o hi hr, rewritten_of_inner hf owner (fun _ => hname) hi]

theorem mapParts_of_plain (hf : IsQuiet f) {parts : List (String × Outline)} (h : plainParts parts = true)
    (hr : everyPart isRegular parts = true) : mapParts f owner parts = parts := by
  rw [everyPart_eq_all, List.all_eq_true] at hr
  have hpart : ∀ part ∈ parts, (part.1, rewritten f owner part.1 (part.2.mapLists f)) = part := by
    intro part hp
    have h := List.all_eq_true.mp h part hp
    simp only [Bool.and_eq_true, Bool.not_eq_true', List.contains_eq_mem, decide_eq_false_iff_not] at h
    rw [rewritten_mapLists_of_inner hf h.1 h.2 (hr part hp)]
  rw [mapParts_eq_map, List.map_congr_left hpart, List.map_id']

theorem locatedParts_of_plain {parts : List (String × Outline)} (h : plainParts parts = true) :
    locatedParts outer parts = parts := by
  have hpart : ∀ part ∈ parts, (part.1, part.2.located outer) = part := by
    intro part hp
    have h := List.all_eq_true.mp h part hp
    rw [Bool.and_eq_true] at h
    rw [located_of_inner part.2 h.2]
  rw [locatedParts_eq_map, List.map_congr_left hpart, List.map_id']

end

/-- What the block is called. -/
def Slot.name : Slot → String
  | .body => "body"
  | .orelse => "orelse"
  | .finalbody => "finalbody"

/-- What a pass over blocks is told of the node that a block is in. -/
def Owner.TellsOf : Owner → Outline → Prop
  | .file, o => o.kindName = "Module"
  | .item span isBareTry, o =>
    o.kindName ≠ "Module" ∧ o.place.getD Span.unset = span ∧ o.isBareTry = isBareTry

/-- The pass over blocks does to statements what the other does to their outlines. If it takes handlers away, it treats
no block in a special way for there being none. -/
structure BlockMap.Draws (w : BlockMap) (f : ListMap) : Prop where
  quiet : IsQuiet f
  block : ∀ {owner : Owner} {o : Outline}, owner.TellsOf o → ∀ slot ss,
    stmtOutlines (w.block owner slot ss) = f o slot.name (stmtOutlines ss)
  handlers : ∀ o hs, handlerOutlines (w.handlers hs) = f o "handlers" (handlerOutlines hs)
  cases : ∀ o cs, caseOutlines (w.cases cs) = f o "cases" (caseOutlines cs)
  bare : ∀ span isGroup hs slot ss,
    w.block (.item span (!isGroup && (w.handlers (mapHandlers w hs)).isEmpty)) slot ss =
      w.block (.item span (!isGroup && hs.isEmpty)) slot ss

/-- What passes tell statements by. -/
theorem told_outline (s : Stmt) : s.outline.isComment = !s.isReal ∧ s.outline.isStatement = s.isReal := by
  cases s with
  | simple info what => cases what <;> exact ⟨rfl, rfl⟩
  | block info head body =>
    cases head with
    | function isAsync => cases isAsync <;> exact ⟨rfl, rfl⟩
    | with_ isAsync => cases isAsync <;> exact ⟨rfl, rfl⟩
    | _ => exact ⟨rfl, rfl⟩
  | branch info head body orelse =>
    cases head with
    | for_ isAsync => cases isAsync <;> exact ⟨rfl, rfl⟩
    | _ => exact ⟨rfl, rfl⟩
  | attempt info isGroup => cases isGroup <;> exact ⟨rfl, rfl⟩
  | _ => exact ⟨rfl, rfl⟩

theorem tellsOf_block (info : Info) (head : BlockHead) (body : List Stmt) :
    (Owner.item info.span false).TellsOf (Stmt.block info head body).outline := by
  cases head with
  | function isAsync => cases isAsync <;> exact ⟨by simp [Stmt.outline, placed, kindName, BlockHead.kindName], rfl, rfl⟩
  | with_ isAsync => cases isAsync <;> exact ⟨by simp [Stmt.outline, placed, kindName, BlockHead.kindName], rfl, rfl⟩
  | _ => exact ⟨by simp [Stmt.outline, placed, kindName, BlockHead.kindName], rfl, rfl⟩

theorem tellsOf_branch (info : Info) (head : BranchHead) (body orelse : List Stmt) :
    (Owner.item info.span false).TellsOf (Stmt.branch info head body orelse).outline := by
  cases head with
  | for_ isAsync => cases isAsync <;> exact ⟨by simp [Stmt.outline, placed, kindName, BranchHead.kindName], rfl, rfl⟩
  | _ => exact ⟨by simp [Stmt.outline, placed, kindName, BranchHead.kindName], rfl, rfl⟩

theorem tellsOf_attempt (info : Info) (isGroup : Bool) (body : List Stmt) (handlers : List Handler)
    (orelse finalbody : List Stmt) :
    (Owner.item info.span (!isGroup && handlers.isEmpty)).TellsOf
      (Stmt.attempt info isGroup body handlers orelse finalbody).outline := by
  cases isGroup with
  | true => exact ⟨by simp [Stmt.outline, placed, kindName], rfl, rfl⟩
  | false =>
    refine ⟨by simp [Stmt.outline, placed, kindName], rfl, ?_⟩
    cases handlers with
    | nil => rfl
    | cons h hs => cases h <;> rfl

section

variable {w : BlockMap} {f : ListMap}

mutual

theorem outline_mapBlocks (hw : w.Draws f) :
    ∀ s : Stmt, s.outline.every isRegular = true → (s.mapBlocks w).outline = s.outline.mapLists f
  | .simple info what, h => by
    simp only [Stmt.outline, placed, every, Bool.and_eq_true] at h
    simp only [Stmt.mapBlocks, Stmt.outline, placed, mapLists,
      mapParts_of_plain hw.quiet (plainParts_simple what) h.2]
  | .comment c, _ => rfl
  | .block info head body, h => by
    have howner := tellsOf_block info head body
    simp only [Stmt.outline, placed, every, everyPart, Bool.and_eq_true] at h howner
    obtain ⟨-, ⟨-, hbody⟩, hhead⟩ := h
    simp only [Stmt.mapBlocks, Stmt.outline, placed, mapLists, mapParts, rewritten, hw.block howner,
      stmtOutlines_mapStmts hw body hbody, mapParts_of_plain hw.quiet (plainParts_blockHead head) hhead, Slot.name]
  | .branch info head body orelse, h => by
    have howner := tellsOf_branch info head body orelse
    simp only [Stmt.outline, placed, every, everyPart_append, everyPart, Bool.and_eq_true] at h howner
    obtain ⟨-, hhead, ⟨-, hbody⟩, ⟨-, horelse⟩, -⟩ := h
    simp only [Stmt.mapBlocks, Stmt.outline, placed, mapLists, mapParts_append, mapParts, rewritten, hw.block howner,
      stmtOutlines_mapStmts hw body hbody, stmtOutlines_mapStmts hw orelse horelse,
      mapParts_of_plain hw.quiet (plainParts_branchHead head) hhead, Slot.name]
  | .attempt info isGroup body handlers orelse finalbody, h => by
    have howner := tellsOf_attempt info isGroup body handlers orelse finalbody
    have hlist := hw.handlers (Stmt.attempt info isGroup body handlers orelse finalbody).outline
      (mapHandlers w handlers)
    simp only [Stmt.outline, placed, every, everyPart, Bool.and_eq_true] at h howner hlist
    obtain ⟨-, ⟨-, hbody⟩, ⟨-, hhandlers⟩, ⟨-, horelse⟩, ⟨-, hfinalbody⟩, -⟩ := h
    simp only [Stmt.mapBlocks, Stmt.outline, placed, mapLists, mapParts, rewritten, hw.bare, hw.block howner,
      hlist, stmtOutlines_mapStmts hw body hbody, handlerOutlines_mapHandlers hw handlers hhandlers,
      stmtOutlines_mapStmts hw orelse horelse, stmtOutlines_mapStmts hw finalbody hfinalbody, Slot.name]
  | .select info subject cases, h => by
    have hlist := hw.cases (Stmt.select info subject cases).outline (mapCases w cases)
    simp only [Stmt.outline, placed, every, everyPart_append, everyPart, Bool.and_eq_true] at h hlist
    obtain ⟨-, hsubject, ⟨-, hcases⟩, -⟩ := h
    have hplain : plainParts (required "subject" subject.outline) = true := by
      simp (disch := decide) [inner_expr]
    simp only [Stmt.mapBlocks, Stmt.outline, placed, mapLists, mapParts_append, mapParts, rewritten,
      mapParts_of_plain hw.quiet hplain hsubject, hlist, caseOutlines_mapCases hw cases hcases]

theorem stmtOutlines_mapStmts (hw : w.Draws f) : ∀ ss : List Stmt, everyItem isRegular (stmtOutlines ss) = true →
    stmtOutlines (mapStmts w ss) = mapItems f (stmtOutlines ss)
  | [], _ => rfl
  | s :: ss, h => by
    simp only [stmtOutlines, everyItem, Bool.and_eq_true] at h
    simp only [mapStmts, stmtOutlines, mapItems, outline_mapBlocks hw s h.1, stmtOutlines_mapStmts hw ss h.2]

theorem handlerOutlines_mapHandlers (hw : w.Draws f) : ∀ hs : List Handler,
    everyItem isRegular (handlerOutlines hs) = true →
      handlerOutlines (mapHandlers w hs) = mapItems f (handlerOutlines hs)
  | [], _ => rfl
  | .comment c :: hs, h => by
    simp only [handlerOutlines, everyItem, Bool.and_eq_true] at h
    simp only [mapHandlers, handlerOutlines, mapItems, handlerOutlines_mapHandlers hw hs h.2]
    rfl
  | .handler span type name body :: hs, h => by
    have howner : (Owner.item span false).TellsOf (node "ExceptHandler" (some span) []
        [("type", optional type), ("name", ofText? name), ("body", list (stmtOutlines body))]) :=
      ⟨by simp [kindName], rfl, rfl⟩
    simp only [handlerOutlines, everyItem, every, everyPart, Bool.and_eq_true] at h
    obtain ⟨⟨-, htype, hname, ⟨-, hbody⟩, -⟩, hrest⟩ := h
    simp only [mapHandlers, handlerOutlines, mapItems, mapLists, mapParts, hw.block howner,
      stmtOutlines_mapStmts hw body hbody, handlerOutlines_mapHandlers hw hs hrest, Slot.name,
      rewritten_mapLists_of_inner hw.quiet (show "type" ∉ blockNames by decide) (inner_optional type) htype,
      rewritten_mapLists_of_inner hw.quiet (show "name" ∉ blockNames by decide) (every_ofText? name) hname]
    rfl

theorem caseOutlines_mapCases (hw : w.Draws f) : ∀ cs : List Case,
    everyItem isRegular (caseOutlines cs) = true → caseOutlines (mapCases w cs) = mapItems f (caseOutlines cs)
  | [], _ => rfl
  | .comment c :: cs, h => by
    simp only [caseOutlines, everyItem, Bool.and_eq_true] at h
    simp only [mapCases, caseOutlines, mapItems, caseOutlines_mapCases hw cs h.2]
    rfl
  | .case lines pattern guard body :: cs, h => by
    have howner : (Owner.item Span.unset false).TellsOf (Outline.inner "match_case"
        [("pattern", pattern.outline), ("guard", optional guard), ("body", list (stmtOutlines body))]) :=
      ⟨by simp [Outline.inner, kindName], rfl, rfl⟩
    simp only [caseOutlines, Outline.inner, everyItem, every, everyPart, Bool.and_eq_true] at h howner
    obtain ⟨⟨-, hpattern, hguard, ⟨-, hbody⟩, -⟩, hrest⟩ := h
    simp only [mapCases, caseOutlines, Outline.inner, mapItems, mapLists, mapParts, hw.block howner,
      stmtOutlines_mapStmts hw body hbody, caseOutlines_mapCases hw cs hrest, Slot.name,
      rewritten_mapLists_of_inner hw.quiet (show "pattern" ∉ blockNames by decide) (inner_pattern pattern) hpattern,
      rewritten_mapLists_of_inner hw.quiet (show "guard" ∉ blockNames by decide) (inner_optional guard) hguard]
    rfl

end

/-- The pass over the blocks of a tree does to its outline what the pass over all lists does. -/
theorem Tree.outline_mapBlocks (hw : w.Draws f) (t : Tree) (h : t.outline.every isRegular = true) :
    (t.mapBlocks w).outline = t.outline.mapLists f := by
  cases t with
  | file body =>
    have howner : Owner.file.TellsOf (Tree.file body).outline := rfl
    have hignores := hw.quiet (Tree.file body).outline "type_ignores" [] (by decide) (by simp)
    simp only [Tree.outline, Outline.inner, every, everyPart, Bool.and_eq_true] at h howner hignores
    obtain ⟨-, ⟨-, hbody⟩, -⟩ := h
    simp only [Tree.mapBlocks, Tree.outline, Outline.inner, mapLists, mapParts, mapItems, rewritten, hw.block howner,
      stmtOutlines_mapStmts hw body hbody, Slot.name, hignores]
  | module_ info name body =>
    have howner : (Owner.item info.span false).TellsOf (Tree.module_ info name body).outline :=
      ⟨by simp [Tree.outline, placed, kindName], rfl, rfl⟩
    simp only [Tree.outline, placed, every, everyPart, Bool.and_eq_true] at h howner
    obtain ⟨-, -, ⟨-, hbody⟩, -⟩ := h
    simp only [Tree.mapBlocks, Tree.outline, placed, mapLists, mapParts, rewritten, hw.block howner,
      stmtOutlines_mapStmts hw body hbody, Slot.name]

end

theorem draws_strip : BlockMap.strip.Draws bared where
  quiet := isQuiet_bared
  block _ _ ss := by
    have hreal : ∀ s : Stmt, (!s.outline.isComment) = s.isReal := fun s => by simp [told_outline s]
    simp only [BlockMap.strip, bared, stmtOutlines_eq_map, List.filter_map, Function.comp_def, hreal]
  handlers _ hs := by
    induction hs with
    | nil => rfl
    | cons h hs ih =>
      cases h with
      | comment c => exact ih
      | handler span type name body => exact congrArg (List.cons _) ih
  cases _ cs := by
    induction cs with
    | nil => rfl
    | cons c cs ih =>
      cases c with
      | comment c => exact ih
      | case lines pattern guard body => exact congrArg (List.cons _) ih
  bare _ _ _ _ _ := rfl

/-- What a block needs can be told from what is known of the node that it is in. -/
theorem filler?_outline {owner : Owner} {o : Outline} (h : owner.TellsOf o) (slot : Slot) :
    (BlockMap.filler? owner slot).map Stmt.outline = Outline.filler? o slot.name := by
  cases owner with
  | file =>
    have hkind : o.kindName = "Module" := h
    have hbare : o.isBareTry = false := by simp [isBareTry, hkind]
    cases slot <;> simp [BlockMap.filler?, Outline.filler?, Slot.name, hkind, hbare]
  | item span isBareTry =>
    obtain ⟨hkind, rfl, rfl⟩ := h
    cases hbare : o.isBareTry <;> cases slot <;>
      simp [BlockMap.filler?, Outline.filler?, Slot.name, hkind, hbare, Stmt.pass, Stmt.outline, placed,
        Simple.kindName, Simple.parts]

theorem draws_pad : BlockMap.pad.Draws filled where
  quiet := isQuiet_filled
  block {owner o} howner slot ss := by
    have hreal : (stmtOutlines ss).any isStatement = ss.any Stmt.isReal := by
      simp only [stmtOutlines_eq_map, List.any_map, Function.comp_def, (told_outline _).2]
    simp only [BlockMap.pad, filled, added, hreal, ← filler?_outline howner slot]
    cases ss.any Stmt.isReal with
    | true => simp
    | false => cases BlockMap.filler? owner slot <;> simp [stmtOutlines_eq_map]
  handlers o hs := (filled_of_name o (by decide) _).symm
  cases o cs := (filled_of_name o (by decide) _).symm
  bare span isGroup hs slot ss := by
    have hhandlers : BlockMap.pad.handlers (mapHandlers .pad hs) = mapHandlers .pad hs := rfl
    rw [hhandlers, isEmpty_mapHandlers]

mutual

theorem outline_locate (outer : Span) : ∀ s : Stmt, (s.locate outer).outline = s.outline.located outer
  | .simple info what => by
    simp only [Stmt.locate, Stmt.outline, placed, located, locatedParts_of_plain (plainParts_simple what),
      Option.map_some]
  | .comment c => rfl
  | .block info head body => by
    simp only [Stmt.locate, Stmt.outline, placed, located, locatedParts, Option.map_some, Option.getD_some,
      locatedParts_of_plain (plainParts_blockHead head), outline_locateStmts _ body]
  | .branch info head body orelse => by
    simp only [Stmt.locate, Stmt.outline, placed, located, locatedParts_append, locatedParts, Option.map_some,
      Option.getD_some, locatedParts_of_plain (plainParts_branchHead head), outline_locateStmts _ body,
      outline_locateStmts _ orelse]
  | .attempt info isGroup body handlers orelse finalbody => by
    simp only [Stmt.locate, Stmt.outline, placed, located, locatedParts, Option.map_some, Option.getD_some,
      outline_locateStmts _ body, outline_locateHandlers _ handlers, outline_locateStmts _ orelse,
      outline_locateStmts _ finalbody]
  | .select info subject cases => by
    have hplain : plainParts (required "subject" subject.outline) = true := by
      simp (disch := decide) [inner_expr]
    simp only [Stmt.locate, Stmt.outline, placed, located, locatedParts_append, locatedParts, Option.map_some,
      Option.getD_some, locatedParts_of_plain hplain, outline_locateCases _ cases]

theorem outline_locateStmts (outer : Span) :
    ∀ ss : List Stmt, stmtOutlines (locateStmts outer ss) = locatedItems outer (stmtOutlines ss)
  | [] => rfl
  | s :: ss => by
    simp only [locateStmts, stmtOutlines, locatedItems, outline_locate outer s, outline_locateStmts outer ss]

theorem outline_locateHandlers (outer : Span) :
    ∀ hs : List Handler, handlerOutlines (locateHandlers outer hs) = locatedItems outer (handlerOutlines hs)
  | [] => rfl
  | .comment c :: hs => by
    simp only [locateHandlers, handlerOutlines, locatedItems, outline_locateHandlers outer hs]
    rfl
  | .handler span type name body :: hs => by
    simp only [locateHandlers, handlerOutlines, locatedItems, located, locatedParts, Option.map_some, Option.getD_some,
      located_of_inner _ (inner_optional type), located_of_inner _ (every_ofText? name), outline_locateStmts _ body,
      outline_locateHandlers outer hs]

theorem outline_locateCases (outer : Span) :
    ∀ cs : List Case, caseOutlines (locateCases outer cs) = locatedItems outer (caseOutlines cs)
  | [] => rfl
  | .comment c :: cs => by
    simp only [locateCases, caseOutlines, locatedItems, outline_locateCases outer cs]
    rfl
  | .case lines pattern guard body :: cs => by
    simp only [locateCases, caseOutlines, Outline.inner, locatedItems, located, locatedParts, Option.map_none,
      Option.getD_none, located_of_inner _ (inner_pattern pattern), located_of_inner _ (inner_optional guard),
      outline_locateStmts outer body, outline_locateCases outer cs]

end

theorem Tree.outline_locate (t : Tree) : t.locate.outline = t.outline.located Span.origin := by
  cases t with
  | file body =>
    simp only [Tree.locate, Tree.outline, Outline.inner, located, locatedParts, locatedItems, outline_locateStmts,
      Option.map_none, Option.getD_none]
  | module_ info name body =>
    simp only [Tree.locate, Tree.outline, placed, located, locatedParts, outline_locateStmts, Option.map_some,
      Option.getD_some]

end TwinModule
