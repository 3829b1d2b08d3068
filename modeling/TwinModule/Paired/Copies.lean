import TwinModule.Blocking
import TwinModule.Conversion
import TwinModule.Paired.Decorator
import TwinModule.Paired.Scope
/-!
The two copies of a test. Of the decorators, the adapter goes away in both; the blocking copy keeps the others
but the asynchronous marks, and the asynchronous copy keeps those under the adapter, because those above it are
applied to what the adapter gives back.
-/
set_option autoImplicit false

namespace TwinModule.Paired

/-- What the name of a blocking copy ends in. -/
def blockingSuffix : String := "_blocking_version"

structure Copies where
  blocking : Tree
  asynchronous : Tree

/-- The only statement of a body; comments do not count. -/
def onlyStatement (body : List Stmt) : Except Failure Stmt :=
  match body.filter Stmt.isReal with
  | [] => .error .noStatement
  | [s] => .ok s
  | _ => .error .manyStatements

/-- The decorators of the function that a body holds, with nothing but comments. -/
def onlyDecorators (body : List Stmt) : Except Failure (List Decorator) := do
  match ← onlyStatement body with
  | .block _ (.function _ _ _ decorators _ _) _ => return decorators
  | _ => throw .otherStatement

/-- A statement that is a function, with another name and other decorators. -/
def mapFunction (name : String → String) (decorators : List Decorator → List Decorator) : Stmt → Stmt
  | .block info (.function isAsync n params ds returns typeComment) body =>
    .block info (.function isAsync (name n) params (decorators ds) returns typeComment) body
  | s => s

/-- The place of the adapter among decorators. -/
def ownPlace (isAdapter : Expr → Bool) (decorators : List Decorator) : Option Nat :=
  decorators.findIdx? fun d => isAdapter d.expr

def underAdapter (own : Option Nat) (decorators : List Decorator) : List Decorator :=
  match own with
  | some n => decorators.drop (n + 1)
  | none => decorators

/-- The decorators that a blocking copy keeps. -/
def keptByBlocking (own : Option Nat) (decorators : List Decorator) : List Decorator :=
  (match own with
    | some n => decorators.eraseIdx n
    | none => decorators).filter fun d => !isAsyncMark d.expr

theorem not_isAsyncMark_of_mem_keptByBlocking {own : Option Nat} {ds : List Decorator} {d : Decorator}
    (h : d ∈ keptByBlocking own ds) : isAsyncMark d.expr = false := by
  simp [keptByBlocking] at h
  exact h.2

def asynchronousCopy (scope : Scope) (own : Option Nat) (body : List Stmt) : Except Failure Tree :=
  let c : Conversion := ⟨.asynchronous, scope.rootName, scope.package⟩
  (c.convert none none (.file (body.map (mapFunction id (underAdapter own))))).result

/-- The blocking copy of a test, under a name made from the given one. -/
def blockingCopy (scope : Scope) (own : Option Nat) (name : String) (body : List Stmt) : Except Failure Tree := do
  let c : Conversion := ⟨.blocking, scope.rootName, scope.package⟩
  let t ← (c.convert none none (.file (body.map (mapFunction id (keptByBlocking own))))).result
  let body := t.blocking.body
  let _ ← onlyDecorators body
  return .file (body.map (mapFunction (fun _ => name ++ blockingSuffix) id))

/-- The copies of the test that a body holds. -/
def copies (scope : Scope) (isAdapter : Expr → Bool) (name : String) (body : List Stmt) : Except Failure Copies := do
  let decorators ← onlyDecorators body
  let own := ownPlace isAdapter decorators
  let asynchronous ← asynchronousCopy scope own body
  let blocking ← blockingCopy scope own name body
  return ⟨blocking, asynchronous⟩

end TwinModule.Paired
