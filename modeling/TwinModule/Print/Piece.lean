/-!
Source text as it is laid out: lines at a depth, texts that go on with a line, and gaps, which are empty
lines except at the start of a text.
-/
set_option autoImplicit false

namespace TwinModule

inductive Piece where
  /-- An empty line, unless nothing has been written yet. -/
  | gap
  /-- A new line, unless nothing has been written yet, with a text at a depth. -/
  | line (depth : Nat) (text : String)
  | tail (text : String)
  deriving DecidableEq, Repr, Inhabited

namespace Piece

/-- Four spaces for each step of depth. -/
def indentation (depth : Nat) : String :=
  String.ofList (List.replicate (4 * depth) ' ')

/-- The text of pieces after something has been written. -/
def more : List Piece → String
  | [] => ""
  | gap :: ps => "\n" ++ more ps
  | line depth text :: ps => "\n" ++ indentation depth ++ text ++ more ps
  | tail text :: ps => text ++ more ps

def text : List Piece → String
  | [] => ""
  | gap :: ps => text ps
  | line depth t :: ps => indentation depth ++ t ++ more ps
  | tail t :: ps => t ++ more ps

theorem more_append (ps qs : List Piece) : more (ps ++ qs) = more ps ++ more qs := by
  induction ps with
  | nil => simp [more]
  | cons p ps ih => cases p <;> simp [more, ih, String.append_assoc]

end Piece

end TwinModule
