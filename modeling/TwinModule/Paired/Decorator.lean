import TwinModule.Syntax.Expr
/-!
Decorators by name. A decorator is known by the dotted name that it is or calls; nothing is evaluated to find out
what the name stands for.
-/
set_option autoImplicit false

namespace TwinModule.Paired

/-- The names of a chain of members, the last one first. -/
def memberNames : Expr → Option (List String)
  | .name id _ => some [id]
  | .member value name _ => (memberNames value).map (name :: ·)
  | _ => none

/-- The dotted name that an expression is, or calls. -/
def dottedName (e : Expr) : Option (List String) :=
  (memberNames (match e with
    | .call callee _ _ => callee
    | e => e)).map List.reverse

/-- The marks of tests that run in an event loop. -/
def asyncMarks : List String := ["asyncio", "anyio", "trio"]

/-- Whether an expression is one of these marks, called or not. -/
def isAsyncMark (e : Expr) : Bool :=
  match memberNames (match e with
    | .call callee _ _ => callee
    | e => e) with
  | some (last :: "mark" :: _) => asyncMarks.contains last
  | _ => false

/-- What names stand for: values by name, the members of a value, and the names that are always there. -/
structure Names (α : Type) where
  lookup : String → Option α
  builtin : String → Option α
  member : α → String → Option α

/-- What an expression stands for by its dotted name. -/
def Names.resolve {α : Type} (names : Names α) (e : Expr) : Option α :=
  match dottedName e with
  | none => none
  | some [] => none
  | some (first :: rest) =>
    rest.foldl (fun value name => value.bind fun v => names.member v name)
      ((names.lookup first).or (names.builtin first))

end TwinModule.Paired

