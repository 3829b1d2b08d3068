import TwinModule.Syntax.Stmt
/-!
Whether two trees are equal, as a computation. Trees hold lists of trees, for which no decision is derived.
-/
set_option autoImplicit false

namespace TwinModule

mutual

def Expr.same : Expr → Expr → Bool
  | .boolOp op values, e => match e with
    | .boolOp op' values' => op == op' && exprsSame values values'
    | _ => false
  | .walrus target value, e => match e with
    | .walrus target' value' => target.same target' && value.same value'
    | _ => false
  | .binary left op right, e => match e with
    | .binary left' op' right' => left.same left' && op == op' && right.same right'
    | _ => false
  | .unary op operand, e => match e with
    | .unary op' operand' => op == op' && operand.same operand'
    | _ => false
  | .lambda params body, e => match e with
    | .lambda params' body' => params.same params' && body.same body'
    | _ => false
  | .ifElse test body orelse, e => match e with
    | .ifElse test' body' orelse' => test.same test' && body.same body' && orelse.same orelse'
    | _ => false
  | .dict keys values, e => match e with
    | .dict keys' values' => optionalsSame keys keys' && exprsSame values values'
    | _ => false
  | .set elements, e => match e with
    | .set elements' => exprsSame elements elements'
    | _ => false
  | .listComp element clauses, e => match e with
    | .listComp element' clauses' => element.same element' && clausesSame clauses clauses'
    | _ => false
  | .setComp element clauses, e => match e with
    | .setComp element' clauses' => element.same element' && clausesSame clauses clauses'
    | _ => false
  | .dictComp key value clauses, e => match e with
    | .dictComp key' value' clauses' => key.same key' && value.same value' && clausesSame clauses clauses'
    | _ => false
  | .generator element clauses, e => match e with
    | .generator element' clauses' => element.same element' && clausesSame clauses clauses'
    | _ => false
  | .await value, e => match e with
    | .await value' => value.same value'
    | _ => false
  | .yield value, e => match e with
    | .yield value' => optionalSame value value'
    | _ => false
  | .yieldFrom value, e => match e with
    | .yieldFrom value' => value.same value'
    | _ => false
  | .compare left ops rights, e => match e with
    | .compare left' ops' rights' => left.same left' && ops == ops' && exprsSame rights rights'
    | _ => false
  | .call callee args keywords, e => match e with
    | .call callee' args' keywords' =>
      callee.same callee' && exprsSame args args' && keywordsSame keywords keywords'
    | _ => false
  | .formatted value conversion spec, e => match e with
    | .formatted value' conversion' spec' =>
      value.same value' && conversion == conversion' && optionalSame spec spec'
    | _ => false
  | .format parts, e => match e with
    | .format parts' => exprsSame parts parts'
    | _ => false
  | .literal value mark, e => match e with
    | .literal value' mark' => value == value' && mark == mark'
    | _ => false
  | .member value name usage, e => match e with
    | .member value' name' usage' => value.same value' && name == name' && usage == usage'
    | _ => false
  | .index value key usage, e => match e with
    | .index value' key' usage' => value.same value' && key.same key' && usage == usage'
    | _ => false
  | .starred value usage, e => match e with
    | .starred value' usage' => value.same value' && usage == usage'
    | _ => false
  | .name id usage, e => match e with
    | .name id' usage' => id == id' && usage == usage'
    | _ => false
  | .list elements usage, e => match e with
    | .list elements' usage' => exprsSame elements elements' && usage == usage'
    | _ => false
  | .tuple elements usage, e => match e with
    | .tuple elements' usage' => exprsSame elements elements' && usage == usage'
    | _ => false
  | .slice lower upper step, e => match e with
    | .slice lower' upper' step' =>
      optionalSame lower lower' && optionalSame upper upper' && optionalSame step step'
    | _ => false
  | .gap owner role, e => match e with
    | .gap owner' role' => owner == owner' && role == role'
    | _ => false
  | .several items, e => match e with
    | .several items' => exprsSame items items'
    | _ => false

def exprsSame : List Expr → List Expr → Bool
  | [], es => es.isEmpty
  | e :: es, us => match us with
    | u :: us => e.same u && exprsSame es us
    | [] => false

def optionalSame : Option Expr → Option Expr → Bool
  | none, e => e.isNone
  | some e, u => match u with
    | some u => e.same u
    | none => false

def optionalsSame : List (Option Expr) → List (Option Expr) → Bool
  | [], es => es.isEmpty
  | e :: es, us => match us with
    | u :: us => optionalSame e u && optionalsSame es us
    | [] => false

def Clause.same : Clause → Clause → Bool
  | .mk target iter conditions isAsync, c => match c with
    | .mk target' iter' conditions' isAsync' =>
      target.same target' && iter.same iter' && exprsSame conditions conditions' && isAsync == isAsync'

def clausesSame : List Clause → List Clause → Bool
  | [], cs => cs.isEmpty
  | c :: cs, ds => match ds with
    | d :: ds => c.same d && clausesSame cs ds
    | [] => false

def Keyword.same : Keyword → Keyword → Bool
  | .mk name value, k => match k with
    | .mk name' value' => name == name' && value.same value'

def keywordsSame : List Keyword → List Keyword → Bool
  | [], ks => ks.isEmpty
  | k :: ks, ls => match ls with
    | l :: ls => k.same l && keywordsSame ks ls
    | [] => false

def Params.same : Params → Params → Bool
  | .mk posOnly args variadic kwOnly kwDefaults kwVariadic defaults, p => match p with
    | .mk posOnly' args' variadic' kwOnly' kwDefaults' kwVariadic' defaults' =>
      paramListSame posOnly posOnly' && paramListSame args args' && optionalParamSame variadic variadic' &&
        paramListSame kwOnly kwOnly' && optionalsSame kwDefaults kwDefaults' &&
        optionalParamSame kwVariadic kwVariadic' && exprsSame defaults defaults'

def Param.same : Param → Param → Bool
  | .mk name type typeComment, p => match p with
    | .mk name' type' typeComment' => name == name' && optionalSame type type' && typeComment == typeComment'

def paramListSame : List Param → List Param → Bool
  | [], ps => ps.isEmpty
  | p :: ps, qs => match qs with
    | q :: qs => p.same q && paramListSame ps qs
    | [] => false

def optionalParamSame : Option Param → Option Param → Bool
  | none, p => p.isNone
  | some p, q => match q with
    | some q => p.same q
    | none => false

end

mutual

theorem Expr.same_iff : (e u : Expr) → (e.same u = true ↔ e = u)
  | .boolOp _ values, u => by cases u <;> simp [Expr.same, exprsSame_iff values]
  | .walrus target value, u => by cases u <;> simp [Expr.same, target.same_iff, value.same_iff]
  | .binary left _ right, u => by cases u <;> simp [Expr.same, left.same_iff, right.same_iff, and_assoc]
  | .unary _ operand, u => by cases u <;> simp [Expr.same, operand.same_iff]
  | .lambda params body, u => by cases u <;> simp [Expr.same, params.same_iff, body.same_iff]
  | .ifElse test body orelse, u => by
    cases u <;> simp [Expr.same, test.same_iff, body.same_iff, orelse.same_iff, and_assoc]
  | .dict keys values, u => by cases u <;> simp [Expr.same, optionalsSame_iff keys, exprsSame_iff values]
  | .set elements, u => by cases u <;> simp [Expr.same, exprsSame_iff elements]
  | .listComp element clauses, u => by cases u <;> simp [Expr.same, element.same_iff, clausesSame_iff clauses]
  | .setComp element clauses, u => by cases u <;> simp [Expr.same, element.same_iff, clausesSame_iff clauses]
  | .dictComp key value clauses, u => by
    cases u <;> simp [Expr.same, key.same_iff, value.same_iff, clausesSame_iff clauses, and_assoc]
  | .generator element clauses, u => by cases u <;> simp [Expr.same, element.same_iff, clausesSame_iff clauses]
  | .await value, u => by cases u <;> simp [Expr.same, value.same_iff]
  | .yield value, u => by cases u <;> simp [Expr.same, optionalSame_iff value]
  | .yieldFrom value, u => by cases u <;> simp [Expr.same, value.same_iff]
  | .compare left _ rights, u => by cases u <;> simp [Expr.same, left.same_iff, exprsSame_iff rights, and_assoc]
  | .call callee args keywords, u => by
    cases u <;> simp [Expr.same, callee.same_iff, exprsSame_iff args, keywordsSame_iff keywords, and_assoc]
  | .formatted value _ spec, u => by cases u <;> simp [Expr.same, value.same_iff, optionalSame_iff spec, and_assoc]
  | .format parts, u => by cases u <;> simp [Expr.same, exprsSame_iff parts]
  | .literal _ _, u => by cases u <;> simp [Expr.same]
  | .member value _ _, u => by cases u <;> simp [Expr.same, value.same_iff, and_assoc]
  | .index value key _, u => by cases u <;> simp [Expr.same, value.same_iff, key.same_iff, and_assoc]
  | .starred value _, u => by cases u <;> simp [Expr.same, value.same_iff]
  | .name _ _, u => by cases u <;> simp [Expr.same]
  | .list elements _, u => by cases u <;> simp [Expr.same, exprsSame_iff elements]
  | .tuple elements _, u => by cases u <;> simp [Expr.same, exprsSame_iff elements]
  | .slice lower upper step, u => by
    cases u <;> simp [Expr.same, optionalSame_iff lower, optionalSame_iff upper, optionalSame_iff step, and_assoc]
  | .gap _ _, u => by cases u <;> simp [Expr.same]
  | .several items, u => by cases u <;> simp [Expr.same, exprsSame_iff items]

theorem exprsSame_iff : (es us : List Expr) → (exprsSame es us = true ↔ es = us)
  | [], us => by cases us <;> simp [exprsSame]
  | e :: es, us => by cases us <;> simp [exprsSame, e.same_iff, exprsSame_iff es]

theorem optionalSame_iff : (e u : Option Expr) → (optionalSame e u = true ↔ e = u)
  | none, u => by cases u <;> simp [optionalSame]
  | some e, u => by cases u <;> simp [optionalSame, e.same_iff]

theorem optionalsSame_iff : (es us : List (Option Expr)) → (optionalsSame es us = true ↔ es = us)
  | [], us => by cases us <;> simp [optionalsSame]
  | e :: es, us => by cases us <;> simp [optionalsSame, optionalSame_iff e, optionalsSame_iff es]

theorem Clause.same_iff : (c d : Clause) → (c.same d = true ↔ c = d)
  | .mk target iter conditions _, d => by
    cases d; simp [Clause.same, target.same_iff, iter.same_iff, exprsSame_iff conditions, and_assoc]

theorem clausesSame_iff : (cs ds : List Clause) → (clausesSame cs ds = true ↔ cs = ds)
  | [], ds => by cases ds <;> simp [clausesSame]
  | c :: cs, ds => by cases ds <;> simp [clausesSame, c.same_iff, clausesSame_iff cs]

theorem Keyword.same_iff : (k l : Keyword) → (k.same l = true ↔ k = l)
  | .mk _ value, l => by cases l; simp [Keyword.same, value.same_iff]

theorem keywordsSame_iff : (ks ls : List Keyword) → (keywordsSame ks ls = true ↔ ks = ls)
  | [], ls => by cases ls <;> simp [keywordsSame]
  | k :: ks, ls => by cases ls <;> simp [keywordsSame, k.same_iff, keywordsSame_iff ks]

theorem Params.same_iff : (p q : Params) → (p.same q = true ↔ p = q)
  | .mk posOnly args variadic kwOnly kwDefaults kwVariadic defaults, q => by
    cases q
    simp [Params.same, paramListSame_iff posOnly, paramListSame_iff args, optionalParamSame_iff variadic,
      paramListSame_iff kwOnly, optionalsSame_iff kwDefaults, optionalParamSame_iff kwVariadic,
      exprsSame_iff defaults, and_assoc]

theorem Param.same_iff : (p q : Param) → (p.same q = true ↔ p = q)
  | .mk _ type _, q => by cases q; simp [Param.same, optionalSame_iff type, and_assoc]

theorem paramListSame_iff : (ps qs : List Param) → (paramListSame ps qs = true ↔ ps = qs)
  | [], qs => by cases qs <;> simp [paramListSame]
  | p :: ps, qs => by cases qs <;> simp [paramListSame, p.same_iff, paramListSame_iff ps]

theorem optionalParamSame_iff : (p q : Option Param) → (optionalParamSame p q = true ↔ p = q)
  | none, q => by cases q <;> simp [optionalParamSame]
  | some p, q => by cases q <;> simp [optionalParamSame, p.same_iff]

end

instance : DecidableEq Expr := fun e u => decidable_of_iff _ (e.same_iff u)
instance : DecidableEq Params := fun p q => decidable_of_iff _ (p.same_iff q)
instance : DecidableEq Keyword := fun k l => decidable_of_iff _ (k.same_iff l)


mutual

def Pattern.same : Pattern → Pattern → Bool
  | .value value, p => match p with
    | .value value' => value == value'
    | _ => false
  | .singleton value, p => match p with
    | .singleton value' => value == value'
    | _ => false
  | .sequence items, p => match p with
    | .sequence items' => patternsSame items items'
    | _ => false
  | .mapping keys items rest, p => match p with
    | .mapping keys' items' rest' => keys == keys' && patternsSame items items' && rest == rest'
    | _ => false
  | .class_ callee items names named, p => match p with
    | .class_ callee' items' names' named' =>
      callee == callee' && patternsSame items items' && names == names' && patternsSame named named'
    | _ => false
  | .star name, p => match p with
    | .star name' => name == name'
    | _ => false
  | .as_ item name, p => match p with
    | .as_ item' name' => optionalPatternSame item item' && name == name'
    | _ => false
  | .or_ items, p => match p with
    | .or_ items' => patternsSame items items'
    | _ => false

def patternsSame : List Pattern → List Pattern → Bool
  | [], ps => ps.isEmpty
  | p :: ps, qs => match qs with
    | q :: qs => p.same q && patternsSame ps qs
    | [] => false

def optionalPatternSame : Option Pattern → Option Pattern → Bool
  | none, p => p.isNone
  | some p, q => match q with
    | some q => p.same q
    | none => false

end

mutual

theorem Pattern.same_iff : (p q : Pattern) → (p.same q = true ↔ p = q)
  | .value _, q => by cases q <;> simp [Pattern.same]
  | .singleton _, q => by cases q <;> simp [Pattern.same]
  | .sequence items, q => by cases q <;> simp [Pattern.same, patternsSame_iff items]
  | .mapping _ items _, q => by cases q <;> simp [Pattern.same, patternsSame_iff items, and_assoc]
  | .class_ _ items _ named, q => by
    cases q <;> simp [Pattern.same, patternsSame_iff items, patternsSame_iff named, and_assoc]
  | .star _, q => by cases q <;> simp [Pattern.same]
  | .as_ item _, q => by cases q <;> simp [Pattern.same, optionalPatternSame_iff item]
  | .or_ items, q => by cases q <;> simp [Pattern.same, patternsSame_iff items]

theorem patternsSame_iff : (ps qs : List Pattern) → (patternsSame ps qs = true ↔ ps = qs)
  | [], qs => by cases qs <;> simp [patternsSame]
  | p :: ps, qs => by cases qs <;> simp [patternsSame, p.same_iff, patternsSame_iff ps]

theorem optionalPatternSame_iff : (p q : Option Pattern) → (optionalPatternSame p q = true ↔ p = q)
  | none, q => by cases q <;> simp [optionalPatternSame]
  | some p, q => by cases q <;> simp [optionalPatternSame, p.same_iff]

end

instance : DecidableEq Pattern := fun p q => decidable_of_iff _ (p.same_iff q)

deriving instance DecidableEq for WithItem
deriving instance DecidableEq for Decorator
deriving instance DecidableEq for Simple
deriving instance DecidableEq for BlockHead
deriving instance DecidableEq for BranchHead

mutual

def Stmt.same : Stmt → Stmt → Bool
  | .simple info what, s => match s with
    | .simple info' what' => info == info' && what == what'
    | _ => false
  | .comment c, s => match s with
    | .comment c' => c == c'
    | _ => false
  | .block info head body, s => match s with
    | .block info' head' body' => info == info' && head == head' && stmtsSame body body'
    | _ => false
  | .branch info head body orelse, s => match s with
    | .branch info' head' body' orelse' =>
      info == info' && head == head' && stmtsSame body body' && stmtsSame orelse orelse'
    | _ => false
  | .attempt info isGroup body handlers orelse finalbody, s => match s with
    | .attempt info' isGroup' body' handlers' orelse' finalbody' =>
      info == info' && isGroup == isGroup' && stmtsSame body body' && handlersSame handlers handlers' &&
        stmtsSame orelse orelse' && stmtsSame finalbody finalbody'
    | _ => false
  | .select info subject cases, s => match s with
    | .select info' subject' cases' => info == info' && subject == subject' && casesSame cases cases'
    | _ => false

def stmtsSame : List Stmt → List Stmt → Bool
  | [], ss => ss.isEmpty
  | s :: ss, us => match us with
    | u :: us => s.same u && stmtsSame ss us
    | [] => false

def Handler.same : Handler → Handler → Bool
  | .comment c, h => match h with
    | .comment c' => c == c'
    | _ => false
  | .handler span type name body, h => match h with
    | .handler span' type' name' body' => span == span' && type == type' && name == name' && stmtsSame body body'
    | _ => false

def handlersSame : List Handler → List Handler → Bool
  | [], hs => hs.isEmpty
  | h :: hs, ks => match ks with
    | k :: ks => h.same k && handlersSame hs ks
    | [] => false

def Case.same : Case → Case → Bool
  | .comment c, d => match d with
    | .comment c' => c == c'
    | _ => false
  | .case lines pattern guard body, d => match d with
    | .case lines' pattern' guard' body' =>
      lines == lines' && pattern == pattern' && guard == guard' && stmtsSame body body'
    | _ => false

def casesSame : List Case → List Case → Bool
  | [], cs => cs.isEmpty
  | c :: cs, ds => match ds with
    | d :: ds => c.same d && casesSame cs ds
    | [] => false

end

mutual

theorem Stmt.same_iff : (s u : Stmt) → (s.same u = true ↔ s = u)
  | .simple _ _, u => by cases u <;> simp [Stmt.same]
  | .comment _, u => by cases u <;> simp [Stmt.same]
  | .block _ _ body, u => by cases u <;> simp [Stmt.same, stmtsSame_iff body, and_assoc]
  | .branch _ _ body orelse, u => by
    cases u <;> simp [Stmt.same, stmtsSame_iff body, stmtsSame_iff orelse, and_assoc]
  | .attempt _ _ body handlers orelse finalbody, u => by
    cases u <;> simp [Stmt.same, stmtsSame_iff body, handlersSame_iff handlers, stmtsSame_iff orelse,
      stmtsSame_iff finalbody, and_assoc]
  | .select _ _ cases', u => by cases u <;> simp [Stmt.same, casesSame_iff cases', and_assoc]

theorem stmtsSame_iff : (ss us : List Stmt) → (stmtsSame ss us = true ↔ ss = us)
  | [], us => by cases us <;> simp [stmtsSame]
  | s :: ss, us => by cases us <;> simp [stmtsSame, s.same_iff, stmtsSame_iff ss]

theorem Handler.same_iff : (h k : Handler) → (h.same k = true ↔ h = k)
  | .comment _, k => by cases k <;> simp [Handler.same]
  | .handler _ _ _ body, k => by cases k <;> simp [Handler.same, stmtsSame_iff body, and_assoc]

theorem handlersSame_iff : (hs ks : List Handler) → (handlersSame hs ks = true ↔ hs = ks)
  | [], ks => by cases ks <;> simp [handlersSame]
  | h :: hs, ks => by cases ks <;> simp [handlersSame, h.same_iff, handlersSame_iff hs]

theorem Case.same_iff : (c d : Case) → (c.same d = true ↔ c = d)
  | .comment _, d => by cases d <;> simp [Case.same]
  | .case _ _ _ body, d => by cases d <;> simp [Case.same, stmtsSame_iff body, and_assoc]

theorem casesSame_iff : (cs ds : List Case) → (casesSame cs ds = true ↔ cs = ds)
  | [], ds => by cases ds <;> simp [casesSame]
  | c :: cs, ds => by cases ds <;> simp [casesSame, c.same_iff, casesSame_iff cs]

end

instance : DecidableEq Stmt := fun s u => decidable_of_iff _ (s.same_iff u)

deriving instance DecidableEq for Tree

end TwinModule
