import TwinModule.Blocks.Tidy
import TwinModule.Library
import TwinModule.Trace
/-!
Converting a tree to one variant. Statements for the other variant go away, the tags that name this one are
taken off, modules in other files are filled in, and imports of the root module by its own name become imports
of the variant.
-/
set_option autoImplicit false

namespace TwinModule

/-- The variant to make, the name of the root module, and the package it is in. -/
structure Conversion where
  variant : Variant
  rootName : String
  package : Option String
  deriving DecidableEq, Repr

/-- Where a conversion is: the names of the modules around, the file, and the files around it. -/
structure Surroundings where
  modulePath : List String
  file : Option String
  chain : Chain
  deriving Repr

/-- Finds and converts the body of a module in another file, given its surroundings (its own name included), its
name, the path given for it and its line. -/
abbrev Loader := Surroundings → String → Option String → Option Nat → Traced (List Stmt)

namespace Conversion

/-- The name without the prefix of the package; nothing if an absolute name has no such prefix. -/
def withoutPackage (c : Conversion) (names : List String) (isRelative : Bool) : Option (List String) :=
  match c.package with
  | none => some names
  | some package =>
    if isRelative || package.isEmpty then some names
    else
      let lead := Text.parts '.' package
      if lead.isPrefixOf names then some (names.drop lead.length) else none

/-- A name that leads to the root module, with the variant in its place; otherwise nothing. -/
def retargetName (c : Conversion) (names rest : List String) : Option String :=
  match rest with
  | first :: inner =>
    if first = c.rootName then
      some (Text.dotted (names.take (names.length - rest.length) ++ c.variant.name :: inner))
    else none
  | [] => none

def retargetAlias (c : Conversion) (a : Alias) : Alias :=
  let names := Text.parts '.' a.name
  match (c.withoutPackage names false).bind (c.retargetName names) with
  | some name => { a with name }
  | none => a

/-- An import with the variant in the place of the root module. -/
def retarget (c : Conversion) : Simple → Simple
  | .import_ names => .import_ (names.map c.retargetAlias)
  | .importFrom module names level =>
    let dots := level.getD 0
    let given := match module with
      | some m => if m.isEmpty then [] else Text.parts '.' m
      | none => []
    match c.withoutPackage given (dots != 0) with
    | none => .importFrom module names level
    | some [] =>
      if dots != 0 || !given.isEmpty then
        .importFrom module (names.map fun a => if a.name = c.rootName then { a with name := c.variant.name } else a)
          level
      else .importFrom module names level
    | some rest =>
      match c.retargetName given rest with
      | some name => .importFrom (some name) names level
      | none => .importFrom module names level
  | s => s

/-- The tags that stay on a statement of this variant; nothing if it is for the other one. -/
def keptTags (c : Conversion) (tags : List Tag) : Option (List Tag) :=
  let rest := Tag.removeAll Tag.variantFamily c.variant.name tags
  if rest.any fun t => t.family == Tag.variantFamily && t.argument == c.variant.other.name then none else some rest

/-- What a statement for the other variant leaves behind: nothing if it is a declaration. -/
def leave (c : Conversion) (s : Stmt) : Traced (List Stmt) := do
  Traced.note (.dropping s.kindName s.span.line c.variant)
  return if s.isDeclaration then [] else [.simple ⟨s.span.forChild, []⟩ .erased]

mutual

def tailor (c : Conversion) (load : Loader) (around : Surroundings) : Stmt → Traced (List Stmt)
  | .comment k => pure [.comment k]
  | .simple info what =>
    match c.keptTags info.tags with
    | none => c.leave (.simple info what)
    | some tags => pure [.simple { info with tags } (c.retarget what)]
  | .block info (.module_ name) body =>
    match c.keptTags info.tags with
    | none => c.leave (.block info (.module_ name) body)
    | some tags => do
      let (explicit, tags) := Tag.take Tag.sourceFamily tags
      let inside := { around with modulePath := around.modulePath ++ [name] }
      if isInline body then
        match explicit with
        | some path => Traced.fail (.complaint (.bodyAndPath name path) none info.span.line)
        | none =>
          let body ← tailorStmts c load inside body
          return [.block { info with tags } (.module_ name) body]
      else
        let body ← load inside name explicit info.span.line
        return [.block { info with tags } (.module_ name) body]
  | .block info head body =>
    match c.keptTags info.tags with
    | none => c.leave (.block info head body)
    | some tags => do
      let body ← tailorStmts c load around body
      return [.block { info with tags } head body]
  | .branch info head body orelse =>
    match c.keptTags info.tags with
    | none => c.leave (.branch info head body orelse)
    | some tags => do
      let body ← tailorStmts c load around body
      let orelse ← tailorStmts c load around orelse
      return [.branch { info with tags } head body orelse]
  | .attempt info isGroup body handlers orelse finalbody =>
    match c.keptTags info.tags with
    | none => c.leave (.attempt info isGroup body handlers orelse finalbody)
    | some tags => do
      let body ← tailorStmts c load around body
      let handlers ← tailorHandlers c load around handlers
      let orelse ← tailorStmts c load around orelse
      let finalbody ← tailorStmts c load around finalbody
      return [.attempt { info with tags } isGroup body handlers orelse finalbody]
  | .select info subject cases =>
    match c.keptTags info.tags with
    | none => c.leave (.select info subject cases)
    | some tags => do
      let cases ← tailorCases c load around cases
      return [.select { info with tags } subject cases]

def tailorStmts (c : Conversion) (load : Loader) (around : Surroundings) : List Stmt → Traced (List Stmt)
  | [] => pure []
  | s :: ss => do
    let first ← tailor c load around s
    let rest ← tailorStmts c load around ss
    return first ++ rest

def tailorHandlers (c : Conversion) (load : Loader) (around : Surroundings) :
    List Handler → Traced (List Handler)
  | [] => pure []
  | .comment k :: hs => do
    let rest ← tailorHandlers c load around hs
    return .comment k :: rest
  | .handler span type name body :: hs => do
    let body ← tailorStmts c load around body
    let rest ← tailorHandlers c load around hs
    return .handler span type name body :: rest

def tailorCases (c : Conversion) (load : Loader) (around : Surroundings) : List Case → Traced (List Case)
  | [] => pure []
  | .comment k :: cs => do
    let rest ← tailorCases c load around cs
    return .comment k :: rest
  | .case lines pattern guard body :: cs => do
    let body ← tailorStmts c load around body
    let rest ← tailorCases c load around cs
    return .case lines pattern guard body :: rest

end

theorem tailor_comment (c : Conversion) (load : Loader) (around : Surroundings) (k : Comment) :
    c.tailor load around (.comment k) = pure [.comment k] := by
  simp only [tailor]

/-- Without a library, no module can be in another file. -/
def noLibrary : Loader := fun _ name _ line => Traced.fail (.complaint (.noSourceRoot name) none line)

/-- A module that is not found is missed in the file and on the line that declare it. -/
def missedAt (around : Surroundings) (line : Option Nat) : Failure → Failure
  | .complaint what _ _ => .complaint what around.file line
  | f => f

/-- Modules from a library, files being read in files up to the given depth. -/
def fromLibrary (c : Conversion) (lib : Library) : (depth : Nat) → Loader
  | 0 => fun around name _ line =>
    Traced.fail (.complaint (.cycle name (around.chain.map fun e => e.1.text)) around.file line)
  | depth + 1 => fun around name explicit line => do
    let path ← Traced.ofExcept ((lib.locate around.modulePath explicit).mapError (missedAt around line))
    Traced.note (.resolved around.modulePath path)
    let chain ← Traced.ofExcept (Library.enter lib.store around.chain path name)
    let body ← Traced.ofExcept (Library.load lib.store path name)
    tailorStmts c (c.fromLibrary lib depth) ⟨around.modulePath, some path.text, chain⟩ body

/-- How deep files can be read in files: no file is read in itself, so the number of files is enough. -/
def maxDepth (lib : Library) : Nat := lib.store.entries.length + 1

def loader (c : Conversion) : Option Library → Loader
  | none => noLibrary
  | some lib => c.fromLibrary lib (maxDepth lib)

/-- The chain at the start: the file of a root module, if it is known. -/
def firstChain (c : Conversion) (lib : Option Library) (origin : Option FilePath) : Tree → Except Failure Chain
  | .file _ => .ok []
  | .module_ .. =>
    match lib, origin with
    | some lib, some origin => Library.enter lib.store [] origin c.rootName
    | _, _ => .ok []

theorem firstChain_none (c : Conversion) (origin : Option FilePath) (t : Tree) :
    c.firstChain none origin t = .ok [] := by
  cases t <;> rfl

/-- The tree of one variant. Complaints that have no file yet are about the file the tree was read from. -/
def convert (c : Conversion) (lib : Option Library) (origin : Option FilePath) (t : Tree) : Traced Tree :=
  let file := origin.map FilePath.text
  Traced.mapFailure (Failure.inFile file) do
    let chain ← Traced.ofExcept (c.firstChain lib origin t)
    let body ← tailorStmts c (c.loader lib) ⟨[c.rootName], file, chain⟩ t.body
    return (t.withBody body).finalize

end Conversion

end TwinModule
