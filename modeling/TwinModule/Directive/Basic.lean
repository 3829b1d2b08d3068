import TwinModule.Directive.Constant
import TwinModule.Failure
import TwinModule.Syntax.Tag
import TwinModule.Variant
/-!
Directives. A comment that is a family name, a colon and an argument is a directive if the family is known and
the argument is right for it; any other comment of that shape is an error, and a comment of another shape is
just a comment.
-/
set_option autoImplicit false

namespace TwinModule
open Text

inductive Request where
  /-- The next statement is for one variant. -/
  | variant (v : Variant)
  /-- The next module is in the file with this path. -/
  | source (path : String)
  /-- A module in another file. -/
  | declare (name : String)
  /-- What follows, up to the end, is in a module. -/
  | begin_ (name : String)
  | end_ (name : String)
  deriving DecidableEq, Repr

/-- A directive with the line of its comment and its argument as it was written. -/
structure Directive where
  line : Nat
  argument : String
  request : Request
  deriving DecidableEq, Repr

namespace Directive

def declareFamily : String := "amphi-mod"
def beginFamily : String := "amphi-begin"
def endFamily : String := "amphi-end"

/-- A comment that has the shape of a directive. -/
structure Shape where
  family : String
  argument : List Char
  deriving DecidableEq, Repr

def isFamilyPart (c : Char) : Bool := isLetter c || c == '_'

/-- The words that may go on a family name, with the hyphen before them, and the rest. -/
def familyTail : List Char → List Char × List Char
  | '-' :: cs =>
    if (cs.takeWhile isFamilyPart).isEmpty then ([], '-' :: cs)
    else ('-' :: cs.takeWhile isFamilyPart, cs.dropWhile isFamilyPart)
  | cs => ([], cs)

/-- The colon and the argument, which has to be on one line. -/
def argumentAfter? (cs : List Char) : Option (List Char) :=
  match trimLeft cs with
  | ':' :: rest => if (trimLeft rest).contains '\n' then none else some (trimLeft rest)
  | _ => none

def Shape.of? : List Char → Option Shape
  | '#' :: cs =>
    match trimLeft cs with
    | 'a' :: 'm' :: 'p' :: 'h' :: 'i' :: rest =>
      let tail := familyTail rest
      (argumentAfter? tail.2).map fun argument => ⟨String.ofList ("amphi".toList ++ tail.1), argument⟩
    | _ => none
  | _ => none

/-- The name of a module, which has to be an identifier. -/
def moduleName (argument : List Char) : Except Complaint String :=
  if isIdentifier argument then .ok (String.ofList argument)
  else .error (.badModuleName (String.ofList argument))

def complain {α : Type} (line : Nat) (c : Complaint) : Except Failure α := .error (.complaint c none (some line))

/-- What a family asks for with an argument, if it is a known family. -/
def requestOf? (line : Nat) (family : String) (argument : List Char) : Except Failure (Option Request) :=
  let named (f : String → Request) : Except Failure (Option Request) :=
    match moduleName argument with
    | .ok name => .ok (some (f name))
    | .error c => complain line c
  let given (r : Except Failure (Option Request)) :=
    if argument.isEmpty then complain line (.noArgument family) else r
  if family = Tag.variantFamily then
    given (match Variant.ofName? (String.ofList argument) with
      | some v => .ok (some (.variant v))
      | none => complain line (.unknownVariant (String.ofList argument)))
  else if family = Tag.sourceFamily then
    given (match Constant.readText? argument with
      | .ok (some path) => .ok (some (.source path))
      | .ok none => complain line (.pathNotText (String.ofList argument))
      | .error kind => .error (.unhashable kind))
  else if family = declareFamily then given (named .declare)
  else if family = beginFamily then given (named .begin_)
  else if family = endFamily then given (named .end_)
  else .ok none

/-- The directive that a comment is, if it has the shape of one. -/
def ofComment? (line : Nat) (comment : String) : Except Failure (Option Directive) :=
  let text := trim comment.toList
  match Shape.of? text with
  | none => .ok none
  | some shape =>
    match requestOf? line shape.family shape.argument with
    | .error f => .error f
    | .ok (some request) => .ok (some ⟨line, String.ofList shape.argument, request⟩)
    | .ok none => complain line (.unknownFamily shape.family (String.ofList text))

def family (d : Directive) : String :=
  match d.request with
  | .variant _ => Tag.variantFamily
  | .source _ => Tag.sourceFamily
  | .declare _ => declareFamily
  | .begin_ _ => beginFamily
  | .end_ _ => endFamily

/-- The tag that a directive puts on the next statement. -/
def tag? (d : Directive) : Option Tag :=
  match d.request with
  | .variant _ => some ⟨Tag.variantFamily, d.argument, d.line⟩
  | .source path => some ⟨Tag.sourceFamily, path, d.line⟩
  | _ => none

/-- The name of the module that a directive declares, begins or ends. -/
def moduleName? (d : Directive) : Option String :=
  match d.request with
  | .declare name => some name
  | .begin_ name => some name
  | .end_ name => some name
  | _ => none

theorem tag?_isSome_iff (d : Directive) : d.tag?.isSome = true ↔ d.moduleName? = none := by
  cases d with
  | mk line argument request => cases request <;> simp [tag?, moduleName?]

/-- Every directive read from a comment is on the line it was read from. -/
theorem ofComment?_line {line : Nat} {comment : String} {d : Directive}
    (h : ofComment? line comment = .ok (some d)) : d.line = line := by
  simp only [ofComment?] at h
  split at h
  · cases h
  · split at h
    · cases h
    · cases h; rfl
    · simp [complain] at h

end Directive

end TwinModule
