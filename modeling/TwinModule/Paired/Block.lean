import TwinModule.Comments.Scan
import TwinModule.Text.Blank
import TwinModule.Text.Split
/-!
The lines of a file that hold a function. They start at a line that looks like the start of a function and end
with the last statement of its body, or with a comment that is indented as far as the body.
-/
set_option autoImplicit false

namespace TwinModule.Paired
open TwinModule.Comments TwinModule.Lexeme

/-- The lines of a file, each with its end. Carriage returns end lines too, and the last line has an end. -/
def fileLines (text : List Char) : List (List Char) :=
  let lines := Text.splitLines (Text.foldNewlines text)
  let lines := if lines.getLast? == some [] then lines.dropLast else lines
  lines.map (· ++ ['\n'])

/-- A word and white space after it. -/
def afterWord (word : String) (cs : List Char) : Option (List Char) :=
  if word.toList.isPrefixOf cs then
    match cs.drop word.length with
    | c :: rest => if Text.isBlank c then some rest else none
    | [] => none
  else none

/-- Whether `lambda` stands in a line as a word, before a colon or white space. The character before is given. -/
def holdsLambda (before : Option Char) : List Char → Bool
  | [] => false
  | c :: cs =>
    let starts := !(before.any isWordChar) && "lambda".toList.isPrefixOf (c :: cs)
    let goesOn := match (c :: cs).drop 6 with
      | d :: _ => d == ':' || Text.isBlank d
      | [] => false
    (starts && goesOn) || holdsLambda (some c) cs

/-- Whether a function may start on a line. -/
def looksLikeStart (line : List Char) : Bool :=
  let cs := Text.trimLeft line
  (afterWord "def" cs).isSome || ((afterWord "async" cs).bind fun r => afterWord "def" (Text.trimLeft r)).isSome ||
    cs.head? == some '@' || holdsLambda none line

/-- The number of lines before the start of the function that is said to start after so many lines. -/
def startAbove (lines : List (List Char)) : Nat → Nat
  | 0 => 0
  | n + 1 =>
    match lines[n + 1]? with
    | some line => if looksLikeStart line then n + 1 else startAbove lines n
    | none => startAbove lines n

theorem startAbove_le (lines : List (List Char)) (n : Nat) : startAbove lines n ≤ n := by
  induction n with
  | zero => simp [startAbove]
  | succ n ih =>
    simp only [startAbove]
    split
    · split <;> omega
    · omega

/-- What is found at the start of a block. -/
inductive Opening where
  | decorator | definition | lambda
  deriving DecidableEq, Repr

/-- The first opening in a line; `skip` characters belong to what has been read. -/
def opening (skip : Nat) : List Char → Option Opening
  | [] => none
  | c :: cs =>
    match skip with
    | n + 1 => opening n cs
    | 0 =>
      if c = '#' then none
      else match stringScan (c :: cs) with
      | .closed size => opening (size - 1) cs
      | .goesOn .. => none
      | .none =>
        if isWordChar c then
          let more := cs.takeWhile isWordChar
          let word := String.ofList (c :: more)
          if word = "def" ∨ word = "class" then some .definition
          else if word = "lambda" then some .lambda
          else opening more.length cs
        else if c = '@' then if cs.head? = some '=' then opening 1 cs else some .decorator
        else opening 0 cs

/-- Where the reading of a block is. -/
inductive Phase where
  | seeking | decorator | header (isLambda : Bool) | body
  deriving DecidableEq, Repr

/-- What is known of a block: the phase, how many blocks inside the body are open, the column of the body, and
the number of the last line that belongs to it. -/
structure BlockScan where
  phase : Phase
  depth : Nat
  bodyColumn : Option Nat
  last : Nat
  deriving Repr

namespace BlockScan

def start : BlockScan := ⟨.seeking, 0, none, 1⟩

/-- After the indentation of a statement, which has closed some blocks or opened one at the given column; nothing
if the statement is not in the block any more. -/
def indented (b : BlockScan) (closed opened column : Nat) : Option BlockScan :=
  match b.phase with
  | .body =>
    if 0 < opened then some { b with depth := b.depth + 1, bodyColumn := b.bodyColumn.or (some column) }
    else if b.depth ≤ closed then none
    else some { b with depth := b.depth - closed }
  | _ => some b

def opened (b : BlockScan) (o : Option Opening) : BlockScan :=
  match b.phase, o with
  | .seeking, some .decorator => { b with phase := .decorator }
  | .seeking, some .definition => { b with phase := .header false }
  | .seeking, some .lambda => { b with phase := .header true }
  | _, _ => b

/-- After the end of a statement on a line. -/
def ended (b : BlockScan) (number : Nat) : BlockScan :=
  match b.phase with
  | .seeking => b
  | .decorator => { b with phase := .seeking, last := number }
  | _ => { b with phase := .body, last := number }

/-- A comment that has its line to itself belongs to the block if it is indented like the body. -/
def commented (b : BlockScan) (number column : Nat) : BlockScan :=
  match b.bodyColumn with
  | some c => if c ≤ column then { b with last := number } else b
  | none => b

end BlockScan

/-- The part of a line that is not in a string from the line before. -/
def codeOf (s : ScanState) (line : List Char) : List Char :=
  match s.string with
  | some o => ((if o.isTriple then closeBlock o.mark line else closeLine o.mark line)).getD []
  | none => line

/-- The number of lines of the block that starts with the first line. -/
def blockSize (s : ScanState) (b : BlockScan) (number : Nat) : List (List Char) → Nat
  | [] => b.last
  | line :: lines =>
    match scanLine s number line with
    | .error _ => b.last
    | .ok none => b.last
    | .ok (some (_, after)) =>
      let isFresh := s.string.isNone && s.brackets == 0 && !s.isJoined
      let (_, column, rest) := leading 0 0 line
      let head := rest.head?
      if isFresh && head == some '#' then blockSize after (b.commented number column) (number + 1) lines
      else if isFresh && (head == some '\n' || head == some '\r') then blockSize after b (number + 1) lines
      else
        let closed := s.indents.length - after.indents.length
        let opened := after.indents.length - s.indents.length
        match (if isFresh then b.indented closed opened column else some b) with
        | none => b.last
        | some b =>
          let b := b.opened (opening 0 (codeOf s line))
          if after.string.isNone && after.brackets ≤ 0 && !after.isJoined then
            if b.phase = .header true then number else blockSize after (b.ended number) (number + 1) lines
          else blockSize after b (number + 1) lines

/-- The longest text that two texts start with. -/
def commonStart : List Char → List Char → List Char
  | a :: as, b :: bs => if a = b then a :: commonStart as bs else []
  | _, _ => []

theorem commonStart_isPrefixOf_left (as bs : List Char) : commonStart as bs <+: as := by
  induction as generalizing bs with
  | nil => simp [commonStart]
  | cons a as ih =>
    cases bs with
    | nil => simp [commonStart]
    | cons b bs =>
      simp only [commonStart]
      split
      · simpa using ih bs
      · simp

def isTabOrSpace (c : Char) : Bool := c == ' ' || c == '\t'

/-- The lines of a text without the spaces and tabs that all of them start with. Lines with nothing else in them
become empty and do not count. -/
def dedent (text : List Char) : List Char :=
  let lines := (Text.splitLines text).map fun l => if l.all isTabOrSpace then [] else l
  let margins := (lines.filter fun l => !l.isEmpty).map fun l => l.takeWhile isTabOrSpace
  let margin := match margins with
    | [] => []
    | m :: ms => ms.foldl commonStart m
  Text.glue '\n' (lines.map fun l => if margin.isPrefixOf l then l.drop margin.length else l)

/-- The text of the function that is said to start on a line, on the lines that it has in the file. -/
def blockText (lines : List (List Char)) (line : Nat) : List Char :=
  let before := startAbove lines (line - 1)
  let rest := lines.drop before
  List.replicate before '\n' ++ dedent (rest.take (blockSize ScanState.start .start 1 rest)).flatten

end TwinModule.Paired
