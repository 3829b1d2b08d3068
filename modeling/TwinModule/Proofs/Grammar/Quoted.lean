import Mathlib
import TwinModule.Directive.Constant
import TwinModule.Proofs.Text.Quoted
/-!
A quoted text is a single token, and that token alone is read as a text constant: the text that was quoted.
-/
set_option autoImplicit false

namespace TwinModule

namespace Token
open Text Lexeme

theorem sourceChars_quoteChars (cs : List Char) : sourceChars (quoteChars cs) = quoteChars cs ++ ['\n'] := by
  have hlast : (quoteChars cs).getLast? = some (chooseQuote cs) := List.getLast?_concat
  have hmark : chooseQuote cs ≠ '\n' := ne_newline_of_isPrintable (isMark_chooseQuote cs).isPrintable
  rw [sourceChars, foldNewlines_of_not_mem (not_mem_quoteChars (by decide) cs)]
  simp [hlast, hmark]

theorem lexemeSize?_quotedChars {q : Char} (hq : IsMark q) (cs : List Char) :
    lexemeSize? q (quotedChars q cs ++ [q] ++ ['\n']) = some (.string, (quotedChars q cs ++ [q]).length) := by
  have hstart : stringStart (q :: (quotedChars q cs ++ [q] ++ ['\n'])) = some (0, q) := by
    rcases hq with rfl | rfl <;> rfl
  have hend : stringEnd q (quotedChars q cs ++ [q] ++ ['\n']) = some ['\n'] := by
    rw [List.append_assoc, List.singleton_append]
    exact stringEnd_quotedChars hq cs ['\n'] (by rcases hq with rfl | rfl <;> decide)
  rw [lexemeSize?, lexeme?, hstart]
  simp only [List.drop_zero, hend, Option.map_some]
  simp

/-- The end of a text, outside of brackets and blocks. -/
theorem lexFrom_end (place : Place) : lexFrom ⟨place, [], [(0, 0)]⟩ true [] = some [⟨.stop, "", place, place⟩] := by
  rw [lexFrom]
  split
  · rename_i h
    cases h
  · rename_i h
    cases h
    rfl
  · rename_i h
    cases h

theorem lexFrom_newline (place : Place) : lexFrom ⟨place, [], [(0, 0)]⟩ false ['\n'] =
    some [⟨.newline, "", place, place⟩, ⟨.stop, "", place.step '\n', place.step '\n'⟩] := by
  rw [lexFrom.eq_def]
  simp [lexFrom_end]

/-- A text that starts with a mark is not indented. -/
theorem lexFrom_mark {q : Char} (hq : IsMark q) (cs : List Char) :
    lexFrom Context.start true (q :: cs) = lexFrom Context.start false (q :: cs) := by
  have hmeasure : measure Context.start.place 0 0 0 (q :: cs) = some (⟨1, 0⟩, 0, 0, q :: cs) := by
    rcases hq with rfl | rfl <;> rfl
  have hne : q ≠ '\n' ∧ q ≠ '#' := by rcases hq with rfl | rfl <;> decide
  rw [lexFrom]
  split
  · rename_i h
    cases hmeasure.symm.trans h
  · rename_i h
    cases hmeasure.symm.trans h
  · rename_i h
    cases hmeasure.symm.trans h
    simp [Context.start, layout, hne]

theorem lex_quoteChars (cs : List Char) : ∃ stop last, lex (quoteChars cs) =
    some [⟨.string, String.ofList (quoteChars cs), ⟨1, 0⟩, stop⟩, ⟨.newline, "", stop, stop⟩,
      ⟨.stop, "", last, last⟩] := by
  have hq := isMark_chooseQuote cs
  have hsize := lexemeSize?_quotedChars hq cs
  rw [lex, sourceChars_quoteChars, quoteChars_eq, List.cons_append, lexFrom_mark hq]
  generalize chooseQuote cs = q at hq hsize ⊢
  generalize quotedChars q cs ++ [q] = rest at hsize ⊢
  obtain ⟨hline, hhash, hspace, htab, hfeed⟩ : q ≠ '\n' ∧ q ≠ '#' ∧ q ≠ ' ' ∧ q ≠ '\t' ∧ q ≠ '\x0c' := by
    rcases hq with rfl | rfl <;> decide
  rw [lexFrom.eq_def]
  simp [Context.start, hline, hhash, hspace, htab, hfeed, hq.ne_backslash, hsize, lexFrom_newline]

end Token

namespace Grammar
open Text

theorem of_quoteChars (cs : List Char) :
    StringToken.of (quoteChars cs) = ⟨false, false, false, false, quotedChars (chooseQuote cs) cs⟩ := by
  have hq := isMark_chooseQuote cs
  rw [quoteChars_eq]
  generalize chooseQuote cs = q at hq ⊢
  have hletters : (q :: (quotedChars q cs ++ [q])).takeWhile isLetter = [] := by rcases hq with rfl | rfl <;> rfl
  have hmarks : (quotedChars q cs ++ [q]).take 2 ≠ [q, q] := by
    cases cs with
    | nil => simp [quotedChars]
    | cons c cs =>
      obtain ⟨d, ds, he, hd⟩ := exists_quotedChars_cons hq c cs
      simp [he, hd]
  simp only [StringToken.of, hletters]
  simp [hmarks]

theorem stringNode_quoteChars (expression : List Char → Option Expr) (cs : List Char) :
    stringNode expression [StringToken.of (quoteChars cs)] = some (.literal (.text (String.ofList cs)) none) := by
  have htext := unescape_quotedChars (isMark_chooseQuote cs) cs
  simp [of_quoteChars, stringNode, tokenChunks, content?, htext]

namespace Reader

variable {α β : Type} {p : Reader α} {f : α → Reader β} {x : α} {i j : Input}

theorem bind_of_eq_some (h : p i = some (x, j)) : (p >>= f) i = f x j := by
  simp [Bind.bind, StateT.bind, h]

theorem bind_of_eq_none (h : p i = none) : (p >>= f) i = none := by
  simp [Bind.bind, StateT.bind, h]

theorem maybe_of_eq_none (h : p i = none) : maybe p i = some (none, i) := by
  simp [maybe, HOrElse.hOrElse, OrElse.orElse, Alternative.orElse, StateT.orElse, Functor.map, StateT.map, h,
    Pure.pure, StateT.pure]

theorem manyUpTo_of_eq_none (h : p i = none) (n : Nat) : manyUpTo p n i = some ([], i) := by
  cases n with
  | zero => rfl
  | succ n =>
    rw [manyUpTo, bind_of_eq_some (maybe_of_eq_none h)]
    rfl

theorem many_of_eq_none (h : p i = none) : many p i = some ([], i) := manyUpTo_of_eq_none h _

/-- A single thing without a separator after it. -/
theorem sepBy1_of_eq_some {separator : String} (h : p i = some (x, j)) (hend : word separator j = none) :
    sepBy1 separator p i = some ([x], j) := by
  have hmany : many (do word separator; p) j = some ([], j) := many_of_eq_none (bind_of_eq_none hend)
  rw [sepBy1, bind_of_eq_some h, bind_of_eq_some hmany]
  rfl

/-- An operand without an operator after it. -/
theorem leftAssoc_of_eq_some {op : Reader β} {join : α → β → α → α} (h : p i = some (x, j))
    (hend : op j = none) : leftAssoc op p join i = some (x, j) := by
  have hremaining : remaining j = some (j.tokens.length, j) := rfl
  rw [leftAssoc, bind_of_eq_some h, bind_of_eq_some hremaining]
  cases j.tokens.length with
  | zero => rfl
  | succ n =>
    rw [leftAssocUpTo, bind_of_eq_some (maybe_of_eq_none (bind_of_eq_none hend))]
    rfl

end Reader

section

open Reader

variable {r : Rules} {e : Expr} {text : String} {start stop last end_ : Place} {ts : List Token}

/-- Tokens that start with a string that is alone on its line. -/
def atString (text : String) (start stop last : Place) (ts : List Token) : Input :=
  ⟨⟨.string, text, start, stop⟩ :: ⟨.newline, "", stop, stop⟩ :: ts, last⟩

/-- The tokens from the end of the line on. -/
def atLineEnd (stop : Place) (ts : List Token) : Input := ⟨⟨.newline, "", stop, stop⟩ :: ts, stop⟩

theorem operatorOf_atLineEnd (ops : List BinaryOp) : operatorOf ops (atLineEnd stop ts) = none := by
  refine bind_of_eq_none ?_
  simp [atLineEnd, take, Token.is]

theorem factor_atString (h : stringNode (fieldExpr r) [StringToken.of text.toList] = some e) :
    factor r (atString text start stop last ts) = some (e, atLineEnd stop ts) := by
  have hatom : atom r (atString text start stop last ts) =
      (stringNode (fieldExpr r) [StringToken.of text.toList]).map fun e => (e, atLineEnd stop ts) := rfl
  have hprimary : primary r (atString text start stop last ts) = some (e, atLineEnd stop ts) := by
    rw [primary, bind_of_eq_some (hatom.trans (by rw [h]; rfl))]
    rfl
  have hpower : factor r (atString text start stop last ts) = (primary r >>= fun e => do
      if ← accept "**" then return .binary e .pow (← r.factor) else return e) (atString text start stop last ts) := rfl
  rw [hpower, bind_of_eq_some hprimary]
  rfl

theorem bitOr_atString (h : stringNode (fieldExpr r) [StringToken.of text.toList] = some e) :
    bitOr r (atString text start stop last ts) = some (e, atLineEnd stop ts) := by
  have hlevel {ops : List BinaryOp} {p : Reader Expr}
      (hp : p (atString text start stop last ts) = some (e, atLineEnd stop ts)) :
      binaryLevel ops p (atString text start stop last ts) = some (e, atLineEnd stop ts) :=
    leftAssoc_of_eq_some hp (operatorOf_atLineEnd ops)
  exact hlevel (hlevel (hlevel (hlevel (hlevel (hlevel (factor_atString h))))))

theorem disjunction_atString (h : stringNode (fieldExpr r) [StringToken.of text.toList] = some e) :
    disjunction r (atString text start stop last ts) = some (e, atLineEnd stop ts) := by
  have hmany : many (do let op ← compareOp; let e ← bitOr r; pure (op, e)) (atLineEnd stop ts) =
      some ([], atLineEnd stop ts) := many_of_eq_none rfl
  have hcomparison : comparison r (atString text start stop last ts) = some (e, atLineEnd stop ts) := by
    rw [comparison, bind_of_eq_some (bitOr_atString h), bind_of_eq_some hmany]
    rfl
  have hinversion : inversion r (atString text start stop last ts) = some (e, atLineEnd stop ts) := hcomparison
  have hconjunction : conjunction r (atString text start stop last ts) = some (e, atLineEnd stop ts) := by
    rw [conjunction, bind_of_eq_some (sepBy1_of_eq_some hinversion rfl)]
    rfl
  rw [disjunction, bind_of_eq_some (sepBy1_of_eq_some hconjunction rfl)]
  rfl

/-- A string that is alone on its line goes through all levels of the grammar as it is. -/
theorem expression_atString (h : stringNode (fieldExpr r) [StringToken.of text.toList] = some e) :
    expression r (atString text start stop last ts) = some (e, atLineEnd stop ts) := by
  have hbody : expression r (atString text start stop last ts) = (disjunction r >>= fun body => (do
      word "if"
      let test ← disjunction r
      word "else"
      return .ifElse test body (← r.expression)) <|> pure body) (atString text start stop last ts) := rfl
  rw [hbody, bind_of_eq_some (disjunction_atString h)]
  rfl

theorem tupled_atString {p : Reader Expr} (h : p (atString text start stop last ts) = some (e, atLineEnd stop ts)) :
    tupled p (atString text start stop last ts) = some (e, atLineEnd stop ts) := by
  have hcommas : commas p (atString text start stop last ts) = some (([e], false), atLineEnd stop ts) := by
    rw [commas, bind_of_eq_some (sepBy1_of_eq_some h rfl)]
    rfl
  rw [tupled, bind_of_eq_some hcommas]
  rfl

/-- A quoted text spells out the text. -/
theorem parseExpression_quoteChars (cs : List Char) :
    parseExpression (quoteChars cs) = some (.literal (.text (String.ofList cs)) none) := by
  obtain ⟨stop, last, hlex⟩ := Token.lex_quoteChars cs
  have hnode : stringNode (fieldExpr (Rules.upTo ((quoteChars cs).length + 1)))
      [StringToken.of (String.ofList (quoteChars cs)).toList] = some (.literal (.text (String.ofList cs)) none) := by
    rw [String.toList_ofList]
    exact stringNode_quoteChars _ cs
  have hread : tupled (Rules.upTo ((quoteChars cs).length + 2)).expression
      (atString (String.ofList (quoteChars cs)) ⟨1, 0⟩ stop ⟨1, 0⟩ [⟨.stop, "", last, last⟩]) =
        some (.literal (.text (String.ofList cs)) none, atLineEnd stop [⟨.stop, "", last, last⟩]) :=
    tupled_atString (expression_atString hnode)
  have hwhole : (do
      let e ← tupled (Rules.upTo ((quoteChars cs).length + 2)).expression
      let _ ← many (kind .newline)
      let _ ← kind .stop
      return e : Reader Expr)
      (atString (String.ofList (quoteChars cs)) ⟨1, 0⟩ stop ⟨1, 0⟩ [⟨.stop, "", last, last⟩]) =
        some (.literal (.text (String.ofList cs)) none, ⟨[], stop⟩) := by
    rw [bind_of_eq_some hread]
    rfl
  rw [parseExpression, hlex]
  exact congrArg (Option.bind · fun x => some x.1) hwhole

end

end Grammar

theorem Constant.readText?_quoteChars (cs : List Char) :
    readText? (Text.quoteChars cs) = .ok (some (String.ofList cs)) := by
  have hzero : '\x00' ∉ Text.quoteChars cs := Text.not_mem_quoteChars (by decide) cs
  have hblank : (Text.quoteChars cs).dropWhile (fun c => c == ' ' || c == '\t') = Text.quoteChars cs := by
    rw [Text.quoteChars]
    rcases Text.isMark_chooseQuote cs with h | h <;> rw [h] <;> rfl
  simp [readText?, read, hzero, hblank, Grammar.parseExpression_quoteChars, ofExpr, ofLiteral]

end TwinModule
