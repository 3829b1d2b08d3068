import TwinModule.Paired.Block
import TwinModule.Paired.Copies
import TwinModule.Paired.Value
import TwinModule.Print.Statement
import TwinModule.Source
/-!
Running a test module, as far as its functions, classes and decorators go. Functions that the adapter is applied
to get their two copies, which are defined in the module one after the other. The bodies of functions are not
run.
-/
set_option autoImplicit false

namespace TwinModule.Paired

/-- A definition that was added to a module: for which function, its text, and the function it has become. -/
structure Added where
  function : String
  source : Except PrintError String
  result : Option Function

/-- The class that is being defined: its name with those around it, and the names bound in it. -/
structure ClassBody where
  path : String
  names : List (String × Value)

/-- A module that is being run. It may be one that cannot be found by its functions. -/
structure Session where
  file : String
  lines : List (List Char)
  isRegistered : Bool
  names : List (String × Value)
  inner : Option ClassBody
  added : List Added

/-- What is done in a session stays done when something fails later on. -/
abbrev Run := ExceptT Failure (StateM Session)

/-- A name among others, or in the place of the same name. -/
def bindName (name : String) (value : Value) : List (String × Value) → List (String × Value)
  | [] => [(name, value)]
  | (n, v) :: rest => if n = name then (n, value) :: rest else (n, v) :: bindName name value rest

@[simp] theorem find?_bindName (name : String) (value : Value) (names : List (String × Value)) :
    Value.find? (bindName name value names) name = some value := by
  induction names with
  | nil => simp [bindName, Value.find?]
  | cons n rest ih =>
    obtain ⟨m, v⟩ := n
    by_cases h : m = name
    · simp [bindName, Value.find?, h]
    · simpa [bindName, Value.find?, h] using ih

def bind (name : String) (value : Value) : Run Unit :=
  modify fun s =>
    match s.inner with
    | some c => { s with inner := some { c with names := bindName name value c.names } }
    | none => { s with names := bindName name value s.names }

def unbind (name : String) : Run Unit :=
  modify fun s =>
    match s.inner with
    | some c => { s with inner := some { c with names := c.names.filter fun n => n.1 != name } }
    | none => { s with names := s.names.filter fun n => n.1 != name }

def builtin? (name : String) : Option Value :=
  if builtinNames.contains name then some (.builtin name) else none

def lookup (name : String) : Run Value := do
  let s ← get
  match ((s.inner.bind fun c => Value.find? c.names name).or (Value.find? s.names name)).or (builtin? name) with
  | some v => return v
  | none => throw (.unbound name)

def member (value : Value) (name : String) : Run Value :=
  match value.member? name with
  | some v => return v
  | none =>
    match value with
    | .function _ | .plain _ | .list _ | .tuple _ | .mapping _ | .builtin _ | .other _ => return .other "object"
    | .class_ path _ => throw (.noMember ("type object '" ++ path ++ "'") name)
    | .library package => throw (.noMember ("module '" ++ package ++ "'") name)
    | v => throw (.noMember ("'" ++ v.kind ++ "' object") name)

def Session.resolve (s : Session) (e : Expr) : Option Value :=
  Names.resolve ⟨Value.find? s.names, builtin?, Value.member?⟩ e

/-- The text of a function, read from the file. -/
def sourceOf (s : Session) (f : Function) : Except Failure (List Stmt) :=
  if f.path != f.name then Options.complain (.innerFunction f.path)
  else readSource s.file (String.ofList (blockText s.lines f.line))

/-- The text of a value, which has to be a function. -/
def sourceOfValue (s : Session) : Value → Except Failure (String × List Stmt)
  | .function f => do return (f.name, ← sourceOf s f)
  | .packaged name => Options.complain (.homeless name)
  | v => Options.complain (.notAFunction v.kind)

abbrev Adapt := Scope → Value → Run Value

def call (adapt : Adapt) (callee : Value) (args : List Value) (keywords : List (String × Value)) : Run Value :=
  match callee, args, keywords with
  | .packaged "test", [], [] => return .pairing .standard
  | .packaged "test", [v], [] => test v
  | .packaged "test", [], [("scope", v)] => test v
  | .packaged "test", args, _ => throw (.surplusArguments args.length)
  | .packaged _, _, _ => return .other "object"
  | .pairing scope, v :: _, _ => adapt scope v
  | .pairing _, [], _ => throw (.notCallable "PairedTest")
  | .marker, [.function f], [] => return .function f
  | .marker, [.class_ path members], [] => return .class_ path members
  | .marker, [.packaged name], [] => return .packaged name
  | .marker, _, _ => return .marker
  | .function f, args, _ =>
    match f.gives.bind fun n => args[n]? with
    | some v => return v
    | none => return .other "object"
  | .class_ path _, _, _ => return .other path
  | .builtin "staticmethod", [v], _ => return v
  | .builtin name, _, _ => return .other (if builtinFunctions.contains name then "object" else name)
  | .other _, _, _ => return .other "object"
  | v, _, _ => throw (.notCallable v.kind)
where
  /-- The adapter on a scope, or on what is to be adapted to the usual scope. -/
  test (v : Value) : Run Value :=
    match v with
    | .plain (.text s) => do return .pairing (← ExceptT.mk (pure (Scope.read s)))
    | v => if v.isCallable then adapt .standard v else ExceptT.mk (pure (Options.complain (.scopeNotText v.text)))

/-- The names of the parameters that may be given by place. -/
def placedNames : Params → List String
  | .mk posOnly args .. => (posOnly ++ args).map fun
    | .mk name _ _ => name

def parameterIn (params : Params) : Expr → Option Nat
  | .name id _ => (placedNames params).findIdx? (· == id)
  | _ => none

/-- The parameter that a body gives back at once. -/
def givenBack (params : Params) (body : List Stmt) : Option Nat :=
  match body.filter Stmt.isReal with
  | [.simple _ (.return_ (some e))] => parameterIn params e
  | _ => none

mutual

/-- The value of an expression on a line. -/
def evaluate (adapt : Adapt) (line : Nat) : Expr → Run Value
  | .literal value _ => return .plain value
  | .name id _ => lookup id
  | .member value name _ => do member (← evaluate adapt line value) name
  | .call callee args keywords => do
    let callee ← evaluate adapt line callee
    let args ← evaluateAll adapt line args
    let keywords ← evaluateKeywords adapt line keywords
    call adapt callee args keywords
  | .lambda params body => do
    evaluateParams adapt line params
    return .function ⟨"<lambda>", "<lambda>", line, false, parameterIn params body⟩
  | .list elements _ => do return .list (← evaluateAll adapt line elements)
  | .tuple elements _ => do return .tuple (← evaluateAll adapt line elements)
  | .set elements => do
    let _ ← evaluateAll adapt line elements
    return .other "set"
  | .dict keys values => do
    let keys ← evaluateOptionals adapt line keys
    let values ← evaluateAll adapt line values
    return .mapping (keys.zip values)
  | .ifElse test body orelse => do
    if (← evaluate adapt line test).isTrue then evaluate adapt line body else evaluate adapt line orelse
  | .walrus (.name id _) value => do
    let v ← evaluate adapt line value
    bind id v
    return v
  | .unary .not operand => do return .plain (.bool !(← evaluate adapt line operand).isTrue)
  | .unary .minus operand => do
    match ← evaluate adapt line operand with
    | .plain (.int n) => return .plain (.int (-n))
    | .plain (.float x) => return .plain (.float x.negate)
    | v => return .other v.kind
  | .unary _ operand => evaluate adapt line operand
  | .binary left _ right => do
    let l ← evaluate adapt line left
    let _ ← evaluate adapt line right
    return .other l.kind
  | .boolOp _ values => do
    let _ ← evaluateAll adapt line values
    return .other "object"
  | .compare left _ rights => do
    let _ ← evaluate adapt line left
    let _ ← evaluateAll adapt line rights
    return .other "bool"
  | .index value key _ => do
    let v ← evaluate adapt line value
    let _ ← evaluate adapt line key
    return match v with
      | .marker => .marker
      | _ => .other "object"
  | .starred value _ => evaluate adapt line value
  | .format _ => return .other "str"
  | .listComp .. => return .other "list"
  | .setComp .. => return .other "set"
  | .dictComp .. => return .other "dict"
  | .generator .. => return .other "generator"
  | _ => return .other "object"

def evaluateAll (adapt : Adapt) (line : Nat) : List Expr → Run (List Value)
  | [] => return []
  | e :: es => do
    let v ← evaluate adapt line e
    return v :: (← evaluateAll adapt line es)

def evaluateOptional (adapt : Adapt) (line : Nat) : Option Expr → Run Value
  | none => return .plain .none
  | some e => evaluate adapt line e

def evaluateOptionals (adapt : Adapt) (line : Nat) : List (Option Expr) → Run (List Value)
  | [] => return []
  | e :: es => do
    let v ← evaluateOptional adapt line e
    return v :: (← evaluateOptionals adapt line es)

def evaluateKeywords (adapt : Adapt) (line : Nat) : List Keyword → Run (List (String × Value))
  | [] => return []
  | .mk name value :: ks => do
    let v ← evaluate adapt line value
    return (name.getD "**", v) :: (← evaluateKeywords adapt line ks)

/-- The defaults of parameters, then their types. -/
def evaluateParams (adapt : Adapt) (line : Nat) : Params → Run Unit
  | .mk posOnly args variadic kwOnly kwDefaults kwVariadic defaults => do
    let _ ← evaluateAll adapt line defaults
    let _ ← evaluateOptionals adapt line kwDefaults
    evaluateTypes adapt line posOnly
    evaluateTypes adapt line args
    evaluateType adapt line variadic
    evaluateTypes adapt line kwOnly
    evaluateType adapt line kwVariadic

def evaluateTypes (adapt : Adapt) (line : Nat) : List Param → Run Unit
  | [] => return ()
  | .mk _ type _ :: ps => do
    let _ ← evaluateOptional adapt line type
    evaluateTypes adapt line ps

def evaluateType (adapt : Adapt) (line : Nat) : Option Param → Run Unit
  | none => return ()
  | some (.mk _ type _) => do
    let _ ← evaluateOptional adapt line type
    return ()

end

/-- The values of decorators, from the first to the last. -/
def evaluateDecorators (adapt : Adapt) : List Decorator → Run (List Value)
  | [] => return []
  | d :: ds => do
    let v ← evaluate adapt d.line d.expr
    return v :: (← evaluateDecorators adapt ds)

/-- What decorators make of a value, the last one coming first. -/
def decorate (adapt : Adapt) (decorators : List Value) (value : Value) : Run Value :=
  decorators.foldrM (fun d v => call adapt d [v] []) value

def assign (value : Value) : Expr → Run Unit
  | .name id _ => bind id value
  | .tuple targets _ => assignEach targets
  | .list targets _ => assignEach targets
  | _ => return ()
where
  assignEach (targets : List Expr) : Run Unit := do
    let items := match value with
      | .list items => items
      | .tuple items => items
      | _ => []
    for (target, n) in targets.zipIdx do
      match target with
      | .name id _ => bind id (items.getD n (.other "object"))
      | _ => pure ()

/-- The path of something defined under a name. -/
def pathOf (name : String) : Run String := do
  match (← get).inner with
  | some c => return c.path ++ "." ++ name
  | none => return name

/-- What an import of a package gives. -/
def packageNamed (name : String) : Value :=
  if (Text.parts '.' name).head? == some "pytest" then .marker else .library name

def importAlias (a : Alias) : Run Unit :=
  match a.asName with
  | some name => bind name (packageNamed a.name)
  | none =>
    let first := (Text.parts '.' a.name).headD ""
    bind first (packageNamed first)

def importFrom (package : String) (names : List Alias) : Run Unit := do
  for a in names do
    if a.name != "*" then
      let v ← member (packageNamed package) a.name
      bind (a.asName.getD a.name) v

def runSimple (adapt : Adapt) (line : Nat) : Simple → Run Unit
  | .assign targets value _ => do
    let v ← evaluate adapt line value
    for target in targets do assign v target
  | .annAssign target type value _ => do
    match value with
    | some e => assign (← evaluate adapt line e) target
    | none => pure ()
    let _ ← evaluate adapt line type
  | .augAssign target _ value => do
    let v ← evaluate adapt line value
    assign (.other v.kind) target
  | .delete targets => do
    for target in targets do
      match target with
      | .name id _ => unbind id
      | _ => pure ()
  | .import_ names => do
    for a in names do importAlias a
  | .importFrom (some package) names _ => importFrom package names
  | .expr value => do
    let _ ← evaluate adapt line value
  | _ => return ()

mutual

def run (adapt : Adapt) : Stmt → Run Unit
  | .comment _ => return ()
  | .simple info what => runSimple adapt (info.span.line.getD 1) what
  | .block info (.function isAsync name params decorators returns _) body => do
    let line := info.span.line.getD 1
    let marks ← evaluateDecorators adapt decorators
    evaluateParams adapt line params
    let _ ← evaluateOptional adapt line returns
    let first := match decorators with
      | d :: _ => d.line
      | [] => line
    let f : Function := ⟨name, ← pathOf name, first, isAsync, if isAsync then none else givenBack params body⟩
    bind name (← decorate adapt marks (.function f))
  | .block info (.class_ name bases keywords decorators) body => do
    let line := info.span.line.getD 1
    let marks ← evaluateDecorators adapt decorators
    let _ ← evaluateAll adapt line bases
    let _ ← evaluateKeywords adapt line keywords
    let path ← pathOf name
    let around := (← get).inner
    modify fun s => { s with inner := some ⟨path, []⟩ }
    runAll adapt body
    let members := ((← get).inner.map ClassBody.names).getD []
    modify fun s => { s with inner := around }
    bind name (← decorate adapt marks (.class_ path members))
  | .block info (.with_ _ items _) body => do
    for i in items do
      let v ← evaluate adapt (info.span.line.getD 1) i.context
      match i.target with
      | some target => assign (match v with | .marker => .marker | _ => .other "object") target
      | none => pure ()
    runAll adapt body
  | .block _ (.module_ _) _ => return ()
  | .branch info (.if_ test) body orelse => do
    if (← evaluate adapt (info.span.line.getD 1) test).isTrue then runAll adapt body else runAll adapt orelse
  | .branch .. => return ()
  | .attempt _ _ body _ orelse finalbody => do
    runAll adapt body
    runAll adapt orelse
    runAll adapt finalbody
  | .select .. => return ()

def runAll (adapt : Adapt) : List Stmt → Run Unit
  | [] => return ()
  | s :: ss => do
    run adapt s
    runAll adapt ss

end

/-- Defines a function in the module, outside of any class. -/
def define (adapt : Adapt) (name : String) (t : Tree) : Run Value := do
  let around := (← get).inner
  modify fun s => { s with inner := none }
  runAll adapt t.compilable.body
  modify fun s => { s with inner := around }
  return (Value.find? (← get).names name).getD (.plain .none)

/-- Adds a copy of a function to the module and gives the new function. -/
def add (adapt : Adapt) (function : String) (t : Tree) : Run Value := do
  let before := (← get).added
  let place := before.length
  modify fun s => { s with added := before ++ [⟨function, Print.source t, none⟩] }
  match t.body.getLast? with
  | none => throw .noDefinition
  | some (.block _ (.function _ name ..) _) =>
    let s ← get
    unless s.isRegistered do throw (.complaint (.homeless function) (some s.file) none)
    let v ← define adapt name t
    match v with
    | .function f =>
      modify fun s => { s with added := s.added.modify place fun a => { a with result := some f } }
    | _ => pure ()
    return v
  | some _ => throw .otherStatement

/-- Adapts functions to scopes; what is defined for that may adapt functions again, up to the given depth. -/
def adaptUpTo : Nat → Adapt
  | 0 => fun _ _ => throw .endless
  | depth + 1 => fun scope value => do
    let s ← get
    let (name, body) ← ExceptT.mk (pure (sourceOfValue s value))
    let isAdapter (e : Expr) : Bool := (s.resolve e).any Value.isAdapter
    let made ← ExceptT.mk (pure (copies scope isAdapter name body))
    let _ ← add (adaptUpTo depth) name made.blocking
    add (adaptUpTo depth) name made.asynchronous

/-- How often an adapted function may need another one to be adapted. -/
def maxDepth : Nat := 100

/-- The session after a module has been run, and what has gone wrong. -/
def runModule (file text : String) (isRegistered : Bool) : Except Failure Unit × Session :=
  let start : Session := ⟨file, fileLines text.toList, isRegistered, [], none, []⟩
  if text.toList.contains '\x00' then (.error .zeroCharacter, start)
  else
    match Grammar.parse (Text.foldNewlines text.toList) with
    | none => (.error (.ungrammatical file), start)
    | some body => (runAll (adaptUpTo maxDepth) body).run.run start

namespace Session

/-- The names that stand for functions, in their order. -/
def functionNames (s : Session) : List String :=
  ((s.names.filter fun n => n.2.isFunction).map (·.1)).mergeSort fun a b => a ≤ b

def find (s : Session) (dotted : String) : Except Failure Value :=
  match Text.parts '.' dotted with
  | [] => .error (.unbound dotted)
  | first :: rest =>
    match (Value.find? s.names first).or (builtin? first) with
    | none => .error (.noMember "module 'builtins'" first)
    | some v =>
      rest.foldlM (fun v name =>
        match v.member? name with
        | some v => .ok v
        | none => .error (.noMember (owner v) name)) v
where
  owner : Value → String
    | .class_ path _ => "type object '" ++ path ++ "'"
    | .builtin name => if builtinFunctions.contains name then "'builtin_function_or_method' object"
      else "type object '" ++ name ++ "'"
    | .library name => "module '" ++ name ++ "'"
    | v => "'" ++ v.kind ++ "' object"

end Session

end TwinModule.Paired
