import TwinModule.Options
/-!
The scope of a paired test: the name of the root module, perhaps after the package it is in.
-/
set_option autoImplicit false

namespace TwinModule.Paired

/-- The package and the root module that a scope names. -/
structure Scope where
  package : Option String
  rootName : String
  deriving DecidableEq, Repr

namespace Scope

def standard : Scope := ⟨none, "amphi"⟩

/-- The scope that a text names: the last name is the root module, those before it the package. -/
def read (text : String) : Except Failure Scope :=
  if Options.isDottedName text then
    let names := Text.parts '.' text
    let package := names.dropLast
    .ok ⟨if package.isEmpty then none else some (Text.dotted package), names.getLastD ""⟩
  else Options.complain (.badScope text)

theorem read_of_not_dotted {text : String} (h : Options.isDottedName text = false) :
    read text = .error (.complaint (.badScope text) none none) := by
  simp [read, h, Options.complain]

end Scope

end TwinModule.Paired
