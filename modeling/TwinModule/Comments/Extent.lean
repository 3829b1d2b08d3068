import TwinModule.Text.Lines
import TwinModule.Text.Blank
/-!
How far a block reaches beyond its statements. Lines before it that are comments or indented alike, and lines
after it that are indented alike, belong to it.
-/
set_option autoImplicit false

namespace TwinModule.Comments
open TwinModule.Text

/-- What matters about a line: its indentation, with tabs as four spaces, and whether it is blank or a
comment. -/
structure LineShape where
  indent : Nat
  isBlank : Bool
  isComment : Bool
  deriving DecidableEq, Repr, Inhabited

def indentOf : List Char → Nat
  | ' ' :: cs => indentOf cs + 1
  | '\t' :: cs => indentOf cs + 4
  | _ => 0

def LineShape.of (line : List Char) : LineShape :=
  ⟨indentOf line, line.all Text.isBlank, (line.dropWhile (· == ' ')).head? == some '#'⟩

/-- The lines of a text, cut at line feeds only. Lines are numbered from 1. -/
structure Page where
  shapes : Array LineShape
  lengths : Array Nat
  deriving Inhabited

def Page.of (source : List Char) : Page :=
  let lines := splitLines source
  ⟨(lines.map LineShape.of).toArray, (lines.map List.length).toArray⟩

namespace Page

def shape? (p : Page) (line : Nat) : Option LineShape :=
  if line = 0 then none else p.shapes[line - 1]?

/-- The indentation of the first line of code from an index on. -/
def firstIndent (shapes : List LineShape) : Nat :=
  match shapes.find? fun s => !s.isBlank && !s.isComment with
  | some s => s.indent
  | none => 0

/-- Upwards over comments and lines that are indented at least as much. -/
def lower (p : Page) (base : Nat) : Nat → Nat
  | 0 => 0
  | n + 1 =>
    match p.shape? n with
    | some s => if s.isComment || base ≤ s.indent then lower p base n else n + 1
    | none => n + 1

/-- Downwards over lines that are indented at least as much. -/
def upper (p : Page) (base : Nat) : (left line : Nat) → Nat
  | 0, line => line
  | left + 1, line =>
    match p.shape? (line + 1) with
    | some s => if base ≤ s.indent then upper p base left (line + 1) else line
    | none => line

/-- The lines that belong to the lines from `low` to `high`, or nothing if there is no line `low`. A block
that is indented more than its first line does not grow upwards. -/
def extend? (p : Page) (low high : Nat) : Option (Nat × Nat) :=
  match p.shape? low with
  | none => none
  | some first =>
    let base := if low = high then first.indent
      else max first.indent (firstIndent (p.shapes.toList.drop low))
    some (if first.indent < base then low else p.lower base low, p.upper base (p.shapes.size - high) high)

theorem lower_le (p : Page) (base n : Nat) : p.lower base n ≤ n := by
  induction n with
  | zero => exact Nat.le_refl _
  | succ n ih =>
    simp only [lower]
    split
    · split
      · omega
      · exact Nat.le_refl _
    · exact Nat.le_refl _

theorem le_upper (p : Page) (base left line : Nat) : line ≤ p.upper base left line := by
  induction left generalizing line with
  | zero => exact Nat.le_refl _
  | succ n ih =>
    simp only [upper]
    split
    · split
      · have := ih (line + 1); omega
      · exact Nat.le_refl _
    · exact Nat.le_refl _

theorem extend?_contains {p : Page} {low high l h : Nat} (e : p.extend? low high = some (l, h)) :
    l ≤ low ∧ high ≤ h := by
  unfold extend? at e
  split at e
  · simp at e
  · rename_i first _
    simp only [Option.some.injEq, Prod.mk.injEq] at e
    obtain ⟨rfl, rfl⟩ := e
    have below : ∀ base, (if first.indent < base then low else p.lower base low) ≤ low := fun base => by
      split
      · exact Nat.le_refl _
      · exact lower_le ..
    exact ⟨below _, le_upper ..⟩

end Page

end TwinModule.Comments
