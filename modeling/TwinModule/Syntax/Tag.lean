import TwinModule.Text.Quoted
/-!
Tags: what a directive comment says about the statement after it. A statement carries a list of them, in the
order in which they were written.
-/
set_option autoImplicit false

namespace TwinModule

/-- A tag of a family, with its argument and the line of its comment (0 for a tag made by hand). -/
structure Tag where
  family : String
  argument : String
  line : Nat
  deriving DecidableEq, Repr, Inhabited

namespace Tag

/-- The family that scopes a statement to one variant. -/
def variantFamily : String := "amphi"

/-- The family that names the file of a module. -/
def sourceFamily : String := "amphi-path"

/-- The comment that says what the tag says. -/
def render (t : Tag) : String :=
  "# " ++ t.family ++ ": " ++
    (if t.family = sourceFamily then Text.quote t.argument else t.argument)

/-- Whether some tag has the given argument, whatever its family. -/
def hasArgument (ts : List Tag) (argument : String) : Bool :=
  ts.any fun t => t.argument == argument

/-- The argument of the first tag of a family, and the other tags. -/
def take (family : String) : List Tag → Option String × List Tag
  | [] => (none, [])
  | t :: ts =>
    if t.family = family then (some t.argument, ts)
    else let (a, rest) := take family ts; (a, t :: rest)

/-- Whether there is a tag with this family and argument, and the tags without the first one. -/
def removeFirst (family argument : String) : List Tag → Bool × List Tag
  | [] => (false, [])
  | t :: ts =>
    if t.family = family ∧ t.argument = argument then (true, ts)
    else let (found, rest) := removeFirst family argument ts; (found, t :: rest)

/-- The tags without any that has this family and argument. -/
def removeAll (family argument : String) (ts : List Tag) : List Tag :=
  ts.filter fun t => !(t.family == family && t.argument == argument)

theorem take_fst_eq_none_iff (family : String) (ts : List Tag) :
    (take family ts).1 = none ↔ ∀ t ∈ ts, t.family ≠ family := by
  induction ts with
  | nil => simp [take]
  | cons t ts ih => by_cases h : t.family = family <;> simp [take, h, ih]

theorem removeFirst_fst (family argument : String) (ts : List Tag) :
    (removeFirst family argument ts).1 = ts.any fun t => t.family == family && t.argument == argument := by
  induction ts with
  | nil => rfl
  | cons t ts ih =>
    by_cases h : t.family = family ∧ t.argument = argument
    · simp [removeFirst, h]
    · have : (t.family == family && t.argument == argument) = false := by simpa using h
      simp [removeFirst, h, ih, this]

theorem removeFirst_eq_self {family argument : String} {ts : List Tag}
    (h : (removeFirst family argument ts).1 = false) : (removeFirst family argument ts).2 = ts := by
  induction ts with
  | nil => rfl
  | cons t ts ih =>
    by_cases hc : t.family = family ∧ t.argument = argument
    · simp [removeFirst, hc] at h
    · simp [removeFirst, hc] at h ⊢
      exact ih h

theorem removeAll_removeFirst (family argument : String) (ts : List Tag) :
    removeAll family argument (removeFirst family argument ts).2 = removeAll family argument ts := by
  induction ts with
  | nil => rfl
  | cons t ts ih =>
    by_cases hc : t.family = family ∧ t.argument = argument
    · simp [removeFirst, hc, removeAll]
    · simp only [removeFirst, hc, if_false]
      simp only [removeAll, List.filter_cons] at ih ⊢
      rw [ih]

end Tag

/-- The tag list of a single node, made when it is first needed. -/
abbrev TagSlot := Option (List Tag)

namespace TagSlot

/-- The list is there after it has been asked for. -/
def opened (slot : TagSlot) : List Tag := slot.getD []

def add (slot : TagSlot) (t : Tag) : TagSlot := some (slot.opened ++ [t])

def has (slot : TagSlot) (argument : String) : Bool := Tag.hasArgument slot.opened argument

def take (slot : TagSlot) (family : String) : Option String × TagSlot :=
  match slot with
  | none => (none, none)
  | some ts => let (a, rest) := Tag.take family ts; (a, some rest)

def remove (slot : TagSlot) (family argument : String) : Bool × TagSlot :=
  match slot with
  | none => (false, none)
  | some ts => let (found, rest) := Tag.removeFirst family argument ts; (found, some rest)

end TagSlot

end TwinModule
