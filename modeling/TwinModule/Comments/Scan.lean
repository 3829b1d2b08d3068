import TwinModule.Syntax.Stmt
import TwinModule.Token.Lexeme
import TwinModule.Text.Lines
/-!
Finding the comments of a source text. The text is read line by line, where every line end of Unicode ends a
line, so lines are counted differently here than by the grammar when a text holds unusual line ends.
-/
set_option autoImplicit false

namespace TwinModule.Comments
open TwinModule.Text TwinModule.Lexeme

/-- A string that goes on after its line. One in single marks goes on only after a backslash. -/
structure OpenString where
  mark : Char
  isTriple : Bool
  line : Nat
  column : Nat
  deriving Repr

/-- What is carried from line to line. -/
structure ScanState where
  string : Option OpenString
  /-- Brackets opened less brackets closed. -/
  brackets : Int
  /-- Whether the last line ended in a backslash. -/
  isJoined : Bool
  /-- The open indentations, innermost first. -/
  indents : List Nat
  deriving Repr

def ScanState.start : ScanState := ⟨none, 0, false, [0]⟩

/-- Why the lines cannot be read to their end. -/
inductive ScanError where
  | openString (line column : Nat)
  | openStatement (line : Nat)
  /-- A line is indented less than the line before it and not like any block around it. -/
  | unindent
  deriving DecidableEq, Repr

/-- A part of a line read from inside it: the comment at its end, with its column, and what is open. -/
structure LineScan where
  comment : Option (Nat × List Char)
  brackets : Int
  isJoined : Bool
  string : Option (Char × Bool × Nat)

/-- A line from a string on ends in a backslash. -/
def joinsString (mark : Char) : List Char → Bool
  | [] => false
  | ['\\', '\n'] => true
  | ['\\', '\r', '\n'] => true
  | '\\' :: _ :: cs => joinsString mark cs
  | c :: cs => c != mark && c != '\n' && joinsString mark cs

/-- The text of a comment does not reach over carriage returns. -/
def commentText (cs : List Char) : List Char :=
  cs.takeWhile fun c => c != '\r' && c != '\n'

/-- A string that starts here: the rest of the line after it if it ends there, or that it goes on. -/
inductive StringScan where
  | none
  | closed (size : Nat)
  | goesOn (mark : Char) (isTriple : Bool)

def stringScan (cs : List Char) : StringScan :=
  match stringStart cs with
  | .none => .none
  | some (n, mark) =>
    let quoted := cs.drop n
    if quoted.take 3 == [mark, mark, mark] then
      match closeBlock mark (quoted.drop 3) with
      | some rest => .closed (cs.length - rest.length)
      | .none => .goesOn mark true
    else
      match closeLine mark (quoted.drop 1) with
      | some rest => .closed (cs.length - rest.length)
      | .none => if joinsString mark (quoted.drop 1) then .goesOn mark false else .none

/-- The line from a column on; `skip` characters belong to what has been read. -/
def scanFrom (brackets : Int) (column : Nat) : (skip : Nat) → List Char → LineScan
  | _, [] => ⟨none, brackets, false, none⟩
  | n + 1, _ :: cs => scanFrom brackets (column + 1) n cs
  | 0, c :: cs =>
    if c = '#' then ⟨some (column, commentText (c :: cs)), brackets, false, none⟩
    else if c = '\\' && (cs == ['\n'] || cs == ['\r', '\n']) then ⟨none, brackets, true, none⟩
    else match stringScan (c :: cs) with
    | .closed size => scanFrom brackets (column + 1) (size - 1) cs
    | .goesOn mark isTriple => ⟨none, brackets, false, some (mark, isTriple, column)⟩
    | .none =>
      if isWordChar c then scanFrom brackets (column + 1) (cs.takeWhile isWordChar).length cs
      else if c = '(' || c = '[' || c = '{' then scanFrom (brackets + 1) (column + 1) 0 cs
      else if c = ')' || c = ']' || c = '}' then scanFrom (brackets - 1) (column + 1) 0 cs
      else scanFrom brackets (column + 1) 0 cs

/-- The blanks at the start of a line: their width with tabs to multiples of eight, how many they are, and
the rest. -/
def leading (width count : Nat) : List Char → Nat × Nat × List Char
  | ' ' :: cs => leading (width + 1) (count + 1) cs
  | '\t' :: cs => leading ((width / 8 + 1) * 8) (count + 1) cs
  | '\x0c' :: cs => leading 0 (count + 1) cs
  | cs => (width, count, cs)

/-- The indentations open after a line of a given width. -/
def reindent (width : Nat) (indents : List Nat) : Option (List Nat) :=
  if indents.headD 0 < width then some (width :: indents)
  else if indents.contains width then some (indents.dropWhile fun i => width < i)
  else none

/-- A comment that shares its line, and the spaces at its start do not count, with something else. -/
def isInlineOn (line text : List Char) : Bool :=
  let stripped := ((line.dropWhile (· == '\n')).reverse.dropWhile (· == '\n')).reverse
  text != stripped.dropWhile (· == ' ')

def commentAt (number : Nat) (line : List Char) (column : Nat) (text : List Char) : Comment :=
  ⟨String.ofList text, isInlineOn line text,
    ⟨some number, some column, some number, some (column + text.length)⟩⟩

/-- The state after the rest of a line, and the comment on it. -/
def finishLine (s : ScanState) (number : Nat) (line rest : List Char) : List Comment × ScanState :=
  let r := scanFrom s.brackets (line.length - rest.length) 0 rest
  ((r.comment.map fun c => commentAt number line c.1 c.2).toList,
    { s with string := r.string.map fun o => ⟨o.1, o.2.1, number, o.2.2⟩
             brackets := r.brackets, isJoined := r.isJoined })

/-- One line: its comment and the state after it, or nothing if the reading ends here. -/
def scanLine (s : ScanState) (number : Nat) (line : List Char) :
    Except ScanError (Option (List Comment × ScanState)) :=
  match s.string with
  | some o =>
    match (if o.isTriple then closeBlock o.mark line else closeLine o.mark line) with
    | some rest => .ok (some (finishLine { s with string := none } number line rest))
    | none =>
      let goesOn := o.isTriple || line.reverse.take 2 == ['\n', '\\'] ||
        line.reverse.take 3 == ['\n', '\r', '\\']
      .ok (some ([], if goesOn then s else { s with string := none }))
  | none =>
    if s.brackets = 0 && !s.isJoined then
      let (width, count, rest) := leading 0 0 line
      match rest with
      | [] => .ok none
      | c :: _ =>
        if c = '#' then .ok (some ([commentAt number line count (commentText rest)], s))
        else if c = '\r' || c = '\n' then .ok (some ([], s))
        else
          match reindent width s.indents with
          | none => .error .unindent
          | some indents => .ok (some (finishLine { s with indents } number line rest))
    else .ok (some (finishLine { s with isJoined := false } number line line))

/-- The comments of lines, the first of which has the given number. -/
def scanLines (s : ScanState) (number : Nat) : List (List Char) → Except ScanError (List Comment)
  | [] =>
    match s.string with
    | some o => .error (.openString o.line o.column)
    | none => if s.brackets = 0 && !s.isJoined then .ok [] else .error (.openStatement number)
  | line :: lines => do
    match ← scanLine s number line with
    | none => return []
    | some (found, s) => return found ++ (← scanLines s (number + 1) lines)

/-- The comments of a text in their order. -/
def scan (source : List Char) : Except ScanError (List Comment) :=
  scanLines ScanState.start 1 (allLines source)

end TwinModule.Comments
