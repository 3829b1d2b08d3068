/-!
Line boundaries. A text may be cut at line feeds only, or at every character that Unicode treats as the end
of a line; carriage returns may be folded into line feeds first.
-/
set_option autoImplicit false

namespace TwinModule.Text

/-- The characters that end a line, a carriage return and a line feed together counting once. -/
def isLineEnd (c : Char) : Bool :=
  let n := c.toNat
  (10 ≤ n && n ≤ 13) || (28 ≤ n && n ≤ 30) || n == 0x85 || n == 0x2028 || n == 0x2029

/-- The lines of a text at line feeds, without them. There is always a last line, which may be empty. -/
def splitLines : List Char → List (List Char)
  | [] => [[]]
  | c :: cs =>
    if c = '\n' then [] :: splitLines cs
    else match splitLines cs with
      | [] => [[c]]
      | l :: ls => (c :: l) :: ls

/-- The lines of a text at every line end, each with its end. No line is empty. -/
def allLines : List Char → List (List Char)
  | [] => []
  | '\r' :: '\n' :: cs => ['\r', '\n'] :: allLines cs
  | c :: cs =>
    if isLineEnd c then [c] :: allLines cs
    else match allLines cs with
      | [] => [[c]]
      | l :: ls => (c :: l) :: ls

/-- Every carriage return, with a line feed that may follow, becomes one line feed. -/
def foldNewlines : List Char → List Char
  | [] => []
  | '\r' :: '\n' :: cs => '\n' :: foldNewlines cs
  | c :: cs => (if c = '\r' then '\n' else c) :: foldNewlines cs

theorem allLines_flatten (cs : List Char) : (allLines cs).flatten = cs := by
  fun_induction allLines cs <;> simp_all

end TwinModule.Text
