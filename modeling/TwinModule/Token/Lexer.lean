import TwinModule.Token.Basic
import TwinModule.Token.Lexeme
import TwinModule.Text.Lines
/-!
From text to tokens. Line ends count only outside brackets; the indentation of a line is measured twice,
with tabs to multiples of eight and with tabs as single columns, and both measures must agree on how lines
nest.
-/
set_option autoImplicit false

namespace TwinModule.Token
open TwinModule.Text TwinModule.Lexeme

/-- What the reader of tokens remembers: its place, the open brackets, and the open indentations in both
measures, innermost first. -/
structure Context where
  place : Place
  brackets : List Char
  indents : List (Nat × Nat)
  deriving Repr

def Context.start : Context := ⟨⟨1, 0⟩, [], [(0, 0)]⟩

/-- The indentation of a line in both measures, and the text after it. A line may be joined to the next
one by a backslash; then the first measure taken before a backslash counts. -/
def measure (place : Place) (col alt joined : Nat) : List Char → Option (Place × Nat × Nat × List Char)
  | ' ' :: cs => measure (place.step ' ') (col + 1) (alt + 1) joined cs
  | '\t' :: cs => measure (place.step '\t') ((col / 8 + 1) * 8) (alt + 1) joined cs
  | '\x0c' :: cs => measure (place.step '\x0c') 0 0 joined cs
  | '\\' :: '\n' :: cs =>
    if cs.isEmpty then none
    else measure ⟨place.line + 1, 0⟩ col alt (if joined = 0 then col else joined) cs
  | '\\' :: _ => none
  | cs => some (place, if joined = 0 then col else joined, if joined = 0 then alt else joined, cs)

theorem measure_length (place : Place) (col alt joined : Nat) (cs : List Char)
    {r : Place × Nat × Nat × List Char} (h : measure place col alt joined cs = some r) :
    r.2.2.2.length ≤ cs.length := by
  fun_induction measure place col alt joined cs with
  | case1 _ _ _ _ _ ih => exact Nat.le_succ_of_le (ih h)
  | case2 _ _ _ _ _ ih => exact Nat.le_succ_of_le (ih h)
  | case3 _ _ _ _ _ ih => exact Nat.le_succ_of_le (ih h)
  | case4 => simp_all
  | case5 _ _ _ _ _ _ ih => exact Nat.le_succ_of_le (Nat.le_succ_of_le (ih h))
  | case6 => simp_all
  | case7 => simp only [Option.some.injEq] at h; subst h; exact Nat.le_refl _

def maxIndents : Nat := 100

def maxBrackets : Nat := 200

/-- The indentations left open by a line, and how many were closed. -/
def dedent (col : Nat) : List (Nat × Nat) → Nat × List (Nat × Nat)
  | [] => (0, [])
  | (c, a) :: rest =>
    if col < c && !rest.isEmpty then let (n, left) := dedent col rest; (n + 1, left)
    else (0, (c, a) :: rest)

/-- The layout tokens of a line with the given indentation, and the indentations open after it. -/
def layout (place : Place) (col alt : Nat) (indents : List (Nat × Nat)) :
    Option (List Token × List (Nat × Nat)) :=
  match indents with
  | [] => none
  | (c, a) :: _ =>
    if col = c then if alt = a then some ([], indents) else none
    else if c < col then
      if maxIndents ≤ indents.length || alt ≤ a then none
      else some ([⟨.indent, "", place, place⟩], (col, alt) :: indents)
    else
      match dedent col indents with
      | (n, (c', a') :: rest) =>
        if col = c' && alt = a' then some (List.replicate n ⟨.dedent, "", place, place⟩, (c', a') :: rest)
        else none
      | (_, []) => none

/-- The bracket that closes the given one. -/
def closing : Char → Char
  | '(' => ')'
  | '[' => ']'
  | _ => '}'

/-- The brackets open after an operator. A closing bracket must answer the last open one. -/
def bracketsAfter (op : String) (brackets : List Char) : Option (List Char) :=
  match op.toList with
  | [c] =>
    if c = '(' || c = '[' || c = '{' then
      if maxBrackets ≤ brackets.length then none else some (c :: brackets)
    else if c = ')' || c = ']' || c = '}' then
      match brackets with
      | o :: rest => if closing o = c then some rest else none
      | [] => none
    else some brackets
  | _ => some brackets

/-- The kind of the token at the head of a text, and the text after it. -/
def lexeme? (c : Char) (cs : List Char) : Option (Kind × List Char) :=
  match stringStart (c :: cs) with
  | some (n, q) => (stringEnd q (cs.drop n)).map fun rest => (.string, rest)
  | none =>
    if isWordStart c then
      let word := c :: cs.takeWhile isWordChar
      if word.all (fun d => d.toNat < 128) || Text.isIdentifier word then
        some (.name, cs.dropWhile isWordChar)
      else none
    else if isDigit c then (numberEnd (c :: cs)).map fun rest => (.number, rest)
    else if c = '.' && (cs.head?.any isDigit) then
      (fractionEnd cs).map fun rest => (.number, rest)
    else (operator? (c :: cs)).map fun o => (.op, cs.drop (o.length - 1))

/-- The text from the end of the line on. -/
def afterComment (cs : List Char) : List Char :=
  cs.dropWhile (· != '\n')

theorem length_afterComment (cs : List Char) : (afterComment cs).length ≤ cs.length :=
  (List.dropWhile_sublist _).length_le

/-- A token that starts with `c`: its kind, and how many characters it takes after `c`. -/
def lexemeSize? (c : Char) (cs : List Char) : Option (Kind × Nat) :=
  (lexeme? c cs).map fun r => (r.1, cs.length - r.2.length)

/-- The tokens of a text, read on from the start of a line (`fresh`) or from inside one. Lines without
tokens leave no trace, and a line end inside brackets is a blank. -/
def lexFrom (ctx : Context) (fresh : Bool) (cs : List Char) : Option (List Token) :=
  match fresh, cs with
  | true, cs =>
    match h : measure ctx.place 0 0 0 cs with
    | none => none
    | some (place, _, _, []) =>
      if ctx.brackets.isEmpty then
        (layout place 0 0 ctx.indents).map fun r => r.1 ++ [⟨.stop, "", place, place⟩]
      else none
    | some (place, col, alt, c :: rest) =>
      have _hlen : (c :: rest).length ≤ cs.length := measure_length _ _ _ _ _ h
      if c = '\n' then lexFrom { ctx with place := place.step c } true rest
      else if c = '#' then
        have := length_afterComment rest
        lexFrom { ctx with place := ⟨place.line + 1, 0⟩ } true ((afterComment rest).drop 1)
      else if ctx.brackets.isEmpty then
        match layout place col alt ctx.indents with
        | none => none
        | some (toks, indents) =>
          (lexFrom { ctx with place, indents } false (c :: rest)).map (toks ++ ·)
      else lexFrom { ctx with place } false (c :: rest)
  | false, [] => none
  | false, c :: cs =>
    if c = ' ' || c = '\t' || c = '\x0c' then lexFrom { ctx with place := ctx.place.step c } false cs
    else if c = '\n' then
      let next := { ctx with place := ctx.place.step c }
      if ctx.brackets.isEmpty then
        (lexFrom next true cs).map (⟨.newline, "", ctx.place, ctx.place⟩ :: ·)
      else lexFrom next true cs
    else if c = '#' then
      have := length_afterComment cs
      lexFrom { ctx with place := ctx.place.after (c :: cs.takeWhile (· != '\n')) } false (afterComment cs)
    else if c = '\\' then
      match cs with
      | '\n' :: d :: rest => lexFrom { ctx with place := ⟨ctx.place.line + 1, 0⟩ } false (d :: rest)
      | _ => none
    else
      match lexemeSize? c cs with
      | none => none
      | some (kind, n) =>
        let text := c :: cs.take n
        let stop := ctx.place.after text
        let token : Token := ⟨kind, String.ofList text, ctx.place, stop⟩
        if kind = .op then
          match bracketsAfter token.text ctx.brackets with
          | none => none
          | some brackets => (lexFrom { ctx with place := stop, brackets } false (cs.drop n)).map (token :: ·)
        else (lexFrom { ctx with place := stop } false (cs.drop n)).map (token :: ·)
termination_by 2 * cs.length + fresh.toNat
decreasing_by all_goals simp only [List.length_cons, List.length_drop, Bool.toNat_true, Bool.toNat_false] at *; omega

/-- The text as the tokens are read from it: line ends folded, and one at the end. -/
def sourceChars (cs : List Char) : List Char :=
  let folded := foldNewlines cs
  if folded.getLast? = some '\n' then folded else folded ++ ['\n']

/-- All tokens of a text, or nothing if it is not made of tokens. -/
def lex (cs : List Char) : Option (List Token) :=
  lexFrom Context.start true (sourceChars cs)

end TwinModule.Token
