import TwinModule.Paired.Session
import TwinModule.Proofs.Directive.Bare
import TwinModule.Proofs.Paired.FileLines
/-!
The text of a function by itself. It is cut out of the file line by line and loses its margin before it is read. A
function at the margin is read from its own lines as the file has it; a line of blanks becomes empty before that, in a
string as well.
-/
set_option autoImplicit false

namespace TwinModule

/-- The lines of a place, whatever its columns are. -/
def Span.onLines (s : Span) : Span := { s with column := none, endColumn := none }

def Info.onLines (info : Info) : Info := { info with span := info.span.onLines }

def Comment.onLines (c : Comment) : Comment := { c with span := c.span.onLines }

mutual

/-- A statement without columns, at any depth. -/
def Stmt.onLines : Stmt → Stmt
  | .simple info what => .simple info.onLines what
  | .comment c => .comment c.onLines
  | .block info head body => .block info.onLines head (stmtsOnLines body)
  | .branch info head body orelse => .branch info.onLines head (stmtsOnLines body) (stmtsOnLines orelse)
  | .attempt info isGroup body handlers orelse finalbody =>
    .attempt info.onLines isGroup (stmtsOnLines body) (handlersOnLines handlers) (stmtsOnLines orelse)
      (stmtsOnLines finalbody)
  | .select info subject cases => .select info.onLines subject (casesOnLines cases)

def stmtsOnLines : List Stmt → List Stmt
  | [] => []
  | s :: ss => s.onLines :: stmtsOnLines ss

def handlersOnLines : List Handler → List Handler
  | [] => []
  | .comment c :: hs => .comment c.onLines :: handlersOnLines hs
  | .handler span type name body :: hs => .handler span.onLines type name (stmtsOnLines body) :: handlersOnLines hs

def casesOnLines : List Case → List Case
  | [] => []
  | .comment c :: cs => .comment c.onLines :: casesOnLines cs
  | .case lines pattern guard body :: cs => .case lines pattern guard (stmtsOnLines body) :: casesOnLines cs

end

namespace Paired
open Text Grammar Token

/-- How many lines are before the function that is said to start on a line. -/
def linesBefore (lines : List (List Char)) (line : Nat) : Nat := startAbove lines (line - 1)

/-- The lines that are found to hold the function. -/
def ownLines (lines : List (List Char)) (line : Nat) : List (List Char) :=
  let rest := lines.drop (linesBefore lines line)
  rest.take (blockSize .start .start 1 rest)

/-- The lines of a function, on the lines that they have in the file. -/
def ownText (lines : List (List Char)) (line : Nat) : List Char :=
  List.replicate (linesBefore lines line) '\n' ++ (ownLines lines line).flatten

variable {s : Session} {text : String} {parsed : List Stmt} {d : Stmt} {f : Function}

/-- What is read of it. -/
def emptyLine : String := "def f(): '''\n\n'''\n"

end Paired

end TwinModule
