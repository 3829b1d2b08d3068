import TwinModule.Blocking
import TwinModule.Conversion
import TwinModule.Layout
import TwinModule.Options
/-!
Generating the variants of a module in a store: reading it, converting it, laying out the files and writing
them. Nothing is written before everything has been laid out.
-/
set_option autoImplicit false

namespace TwinModule

/-- The root module: its name, the file it was read from, and its body. -/
structure RootModule where
  name : String
  origin : FilePath
  body : List Stmt

namespace Project

/-- A question about a path, whose failure is one of the path. -/
def ask (p : FilePath) (r : Except PathProblem Bool) : Except Failure Bool :=
  r.mapError fun problem => .files ⟨problem, p⟩

/-- The file of a root module: the one in the package directory, or the path itself. -/
def originOf (store : Store) (source : FilePath) : Except Failure FilePath := do
  let inside := source.child Library.packageFile
  if (← ask source (store.isDirectory source)) then
    if (← ask inside (store.isFile inside)) then return inside
  if (← ask source (store.isFile source)) && source.suffix == Library.sourceSuffix then return source
  throw (.complaint (.notAModule source.text) (some source.text) none)

/-- Reads the root module, which is named after its file or directory. -/
def loadRoot (store : Store) (source : FilePath) : Except Failure RootModule := do
  let origin ← originOf store source
  let name := source.stem
  if !Text.isIdentifier name.toList then throw (.complaint (.badRootName name) (some source.text) none)
  return ⟨name, origin, ← Library.load store origin name⟩

/-- The tree of a root module under another name, at the start of its file. -/
def RootModule.tree (body : List Stmt) (name : String) : Tree :=
  .module_ ⟨⟨some 1, some 0, none, none⟩, []⟩ name body

/-- The tree of one variant. Only the blocking one is made free of suspension. -/
def variantTree (o : Options) (lib : Library) (root : RootModule) (v : Variant) : Traced Tree := do
  let c : Conversion := ⟨v, root.name, o.package⟩
  let t ← c.convert (some lib) (some root.origin) (RootModule.tree root.body v.name)
  return if v = .blocking then t.blocking else t

def variantTrees (o : Options) (lib : Library) (root : RootModule) :
    List Variant → Traced (List (Variant × Tree))
  | [] => pure []
  | v :: vs => do
    let t ← variantTree o lib root v
    let ts ← variantTrees o lib root vs
    return (v, t) :: ts

/-- The trees of the variants, in the order of the mode. -/
def generate (store : Store) (o : Options) (source : FilePath) : Traced (List (Variant × Tree)) := do
  let path := o.cwd.join source
  let libraryRoot := o.sourceRoot.getD path.parent
  let root ← Traced.ofExcept (loadRoot store path)
  Traced.note (.generating o.mode.variants root.origin libraryRoot)
  variantTrees o ⟨store, libraryRoot⟩ root o.mode.variants

/-- The files of trees one after the other. -/
def filesOf (source : String) : List (Variant × Tree) → Except Failure FileTexts
  | [] => .ok []
  | (v, t) :: ts => do
    let first ← Layout.files source ⟨.relative, []⟩ v.name t.body
    return first.update (← filesOf source ts)

/-- The files of the variants; `shown` is what their first lines call the source. -/
def render (store : Store) (o : Options) (source : FilePath) (shown : String) : Traced FileTexts := do
  let trees ← generate store o source
  Traced.ofExcept (filesOf shown trees)

def outputDirectory (o : Options) (source : FilePath) : FilePath :=
  match o.outputDir with
  | some directory => o.cwd.join directory
  | none => (o.cwd.join source).parent

/-- Writes the files of the variants, or nothing if they cannot all be laid out. -/
def generateFiles (store : Store) (o : Options) (source : FilePath) (shown : String) :
    Store × Traced (List FilePath) :=
  let rendered := render store o source shown
  match rendered.result with
  | .error _ => (store, do let _ ← rendered; return [])
  | .ok files =>
    let (after, written) := Layout.write store (outputDirectory o source) files
    (after, do let _ ← rendered; written)

/-- The root module once for each variant of a mode, named after it. -/
def duplicate (t : Tree) (mode : Mode) : List (Variant × Tree) :=
  mode.variants.map fun v =>
    (v, match t with
      | .file body => .file body
      | .module_ info _ body => .module_ info v.name body)

end Project

end TwinModule
