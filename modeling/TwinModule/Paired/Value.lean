import TwinModule.Paired.Builtins
import TwinModule.Paired.Scope
import TwinModule.Syntax.Literal
/-!
The values of a test module, as far as they matter: plain data, functions with the place they start at, classes,
and what comes from the testing packages. What any other value is stays unknown, except for its type.
-/
set_option autoImplicit false

namespace TwinModule.Paired

structure Function where
  name : String
  /-- The name with those of the classes and functions around it. -/
  path : String
  /-- The line of its first decorator, or else its own. -/
  line : Nat
  isAsync : Bool
  /-- The number of the parameter that it gives back, if that is all it does. -/
  gives : Option Nat
  deriving DecidableEq, Repr, Inhabited

inductive Value where
  | plain (value : Literal)
  | list (items : List Value)
  | tuple (items : List Value)
  | mapping (entries : List (Value × Value))
  | function (f : Function)
  | class_ (path : String) (members : List (String × Value))
  /-- A function of this package. The one called `test` adapts other functions. -/
  | packaged (name : String)
  /-- A package, or a module in it. -/
  | library (name : String)
  | pairing (scope : Scope)
  /-- Whatever comes from the framework that runs the tests. -/
  | marker
  | builtin (name : String)
  | other (kind : String)
  deriving Inhabited

namespace Value

def adapter : Value := packaged "test"

/-- Whether this is the function that adapts other functions. -/
def isAdapter : Value → Bool
  | packaged name => name == "test"
  | _ => false

def isFunction : Value → Bool
  | function _ => true
  | packaged _ => true
  | _ => false

def literalKind : Literal → String
  | .none => "NoneType"
  | .ellipsis => "ellipsis"
  | .bool _ => "bool"
  | .text _ => "str"
  | .bytes _ => "bytes"
  | .int _ => "int"
  | .float _ => "float"
  | .complex .. => "complex"

/-- The name of the type of a value. -/
def kind : Value → String
  | plain value => literalKind value
  | list _ => "list"
  | tuple _ => "tuple"
  | mapping _ => "dict"
  | function _ => "function"
  | packaged _ => "function"
  | class_ .. => "type"
  | library _ => "module"
  | pairing _ => "PairedTest"
  | marker => "FakePytest"
  | builtin name => if builtinFunctions.contains name then "builtin_function_or_method" else "type"
  | other kind => kind

def isCallable : Value → Bool
  | function _ | packaged _ | class_ .. | pairing _ | marker | builtin _ => true
  | _ => false

mutual

def text : Value → String
  | plain value => value.plain
  | list items => "[" ++ ", ".intercalate (texts items) ++ "]"
  | tuple [item] => "(" ++ text item ++ ",)"
  | tuple items => "(" ++ ", ".intercalate (texts items) ++ ")"
  | mapping entries => "\x7b" ++ ", ".intercalate (entryTexts entries) ++ "\x7d"
  | library name => "<module " ++ Text.quote name ++ ">"
  | v => "<" ++ v.kind ++ " object>"

def texts : List Value → List String
  | [] => []
  | v :: vs => text v :: texts vs

def entryTexts : List (Value × Value) → List String
  | [] => []
  | (key, v) :: rest => (text key ++ ": " ++ text v) :: entryTexts rest

end

/-- Whether a condition with this value holds. -/
def isTrue : Value → Bool
  | plain .none => false
  | plain (.bool b) => b
  | plain (.int n) => n != 0
  | plain (.text s) => !s.isEmpty
  | plain (.bytes bs) => !bs.isEmpty
  | plain (.float x) => !x.isZero
  | plain (.complex re im) => !(re.isZero && im.isZero)
  | list items => !items.isEmpty
  | tuple items => !items.isEmpty
  | mapping entries => !entries.isEmpty
  | _ => true

/-- The value of a name among others; the last one bound counts. -/
def find? (names : List (String × Value)) (name : String) : Option Value :=
  (names.find? fun n => n.1 == name).map (·.2)

/-- A member of a value. The framework has every member. -/
def member? : Value → String → Option Value
  | class_ _ members, name => find? members name
  | library package, name => packageMember? package name
  | marker, _ => some marker
  | _, _ => none
where
  packageMember? (package name : String) : Option Value :=
    if (packagedFunctions package).contains name then some (packaged name)
    else if (packagedTypes package).contains name then some (class_ name [])
    else if (packagedModules package).contains name then some (library (package ++ "." ++ name))
    else none

def toScope : Value → Except Failure Scope
  | plain (.text s) => Scope.read s
  | v => Options.complain (.scopeNotText v.text)

end Value

end TwinModule.Paired
