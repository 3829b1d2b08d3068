import TwinModule.Failure
import TwinModule.Text.Split
import TwinModule.Variant
/-!
Computations that take notes. What has been noted stays noted when a computation fails later on.
-/
set_option autoImplicit false

namespace TwinModule

inductive Note where
  | generating (variants : List Variant) (origin root : FilePath)
  | dropping (kind : String) (line : Option Nat) (from_ : Variant)
  | resolved (module : List String) (path : FilePath)
  | wrote (path : FilePath)
  | generated (count : Nat) (source : FilePath)
  deriving DecidableEq, Repr

namespace Note

/-- Details are only shown when asked for. -/
def isDetail : Note → Bool
  | generating .. => true
  | dropping .. => true
  | resolved .. => true
  | wrote _ => false
  | generated .. => false

/-- The part of the program that takes the note. -/
def topic : Note → String
  | generating .. => "python_amphi.main"
  | dropping .. => "python_amphi.conversion.variant_filter"
  | resolved .. => "python_amphi.conversion.resolver"
  | wrote _ => "python_amphi.conversion.writer"
  | generated .. => "python_amphi.cli"

def text : Note → String
  | generating variants origin root =>
    "generating " ++ ", ".intercalate (variants.map Variant.name) ++ " from " ++ origin.text ++
      " (source root: " ++ root.text ++ ")"
  | dropping kind line from_ =>
    "dropping " ++ kind ++ " at line " ++ (line.map toString).getD "?" ++ " from " ++ from_.name
  | resolved module path => "module " ++ Text.dotted module ++ " resolved to " ++ path.text
  | wrote path => "wrote " ++ path.text
  | generated count source => "generated " ++ toString count ++ " file(s) from " ++ source.text

/-- The line of a log that holds the note. -/
def logLine (n : Note) : String :=
  (if n.isDetail then "DEBUG " else "INFO ") ++ n.topic ++ ": " ++ n.text

end Note

/-- A result with the notes taken on the way. -/
structure Traced (α : Type) where
  notes : List Note
  result : Except Failure α

namespace Traced

variable {α β : Type}

protected def pure (a : α) : Traced α := ⟨[], .ok a⟩

def fail (f : Failure) : Traced α := ⟨[], .error f⟩

protected def bind (x : Traced α) (f : α → Traced β) : Traced β :=
  match x.result with
  | .ok a => ⟨x.notes ++ (f a).notes, (f a).result⟩
  | .error e => ⟨x.notes, .error e⟩

instance : Monad Traced where
  pure := Traced.pure
  bind := Traced.bind

def ofExcept (r : Except Failure α) : Traced α := ⟨[], r⟩

def note (n : Note) : Traced Unit := ⟨[n], .ok ()⟩

/-- The same notes, with another failure if it fails. -/
def mapFailure (f : Failure → Failure) (x : Traced α) : Traced α := ⟨x.notes, x.result.mapError f⟩

@[simp] theorem pure_eq (a : α) : (pure a : Traced α) = ⟨[], .ok a⟩ := rfl

@[simp] theorem bind_ok (ns : List Note) (a : α) (f : α → Traced β) :
    ((⟨ns, .ok a⟩ : Traced α) >>= f) = ⟨ns ++ (f a).notes, (f a).result⟩ := rfl

@[simp] theorem bind_error (ns : List Note) (e : Failure) (f : α → Traced β) :
    ((⟨ns, .error e⟩ : Traced α) >>= f) = ⟨ns, .error e⟩ := rfl

/-- The result of a sequence does not depend on what was noted. -/
theorem bind_result (x : Traced α) (f : α → Traced β) :
    (x >>= f).result = x.result >>= fun a => (f a).result := by
  cases x with
  | mk ns r => cases r <;> rfl

end Traced

end TwinModule
