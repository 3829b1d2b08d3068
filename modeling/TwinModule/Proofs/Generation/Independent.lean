import TwinModule.Project
import TwinModule.Proofs.Conversion.Sharing
/-!
Each variant is what it would be alone. The copies that are converted one after the other share the files being read,
which are none before and after each of them.
-/
set_option autoImplicit false

namespace TwinModule

open Conversion

namespace Project

open Shared (Frees frees_lift frees_bind)

def variantTreeShared (o : Options) (lib : Library) (root : RootModule) (v : Variant) (copy : Tree) :
    Shared Tree := do
  let t ← convertShared ⟨v, root.name, o.package⟩ lib (some root.origin) copy
  return if v = .blocking then t.blocking else t

/-- The copies of a root module are converted one after the other. -/
def variantTreesShared (o : Options) (lib : Library) (root : RootModule) :
    List (Variant × Tree) → Shared (List (Variant × Tree))
  | [] => pure []
  | (v, copy) :: copies => do
    let t ← variantTreeShared o lib root v copy
    let ts ← variantTreesShared o lib root copies
    return (v, t) :: ts

/-- The trees of the variants, made from copies of one root module with one list of the files being read. -/
def generateShared (store : Store) (o : Options) (source : FilePath) : Shared (List (Variant × Tree)) := do
  let path := o.cwd.join source
  let libraryRoot := o.sourceRoot.getD path.parent
  let root ← Shared.lift (Traced.ofExcept (loadRoot store path))
  Shared.lift (Traced.note (.generating o.mode.variants root.origin libraryRoot))
  variantTreesShared o ⟨store, libraryRoot⟩ root (duplicate (RootModule.tree root.body root.name) o.mode)

theorem frees_variantTree (o : Options) (lib : Library) (root : RootModule) (v : Variant) :
    Frees (variantTree o lib root v) (variantTreeShared o lib root v (RootModule.tree root.body v.name)) :=
  frees_bind (frees_convertShared _ _ _ _) fun _ => frees_lift _

theorem frees_variantTrees (o : Options) (lib : Library) (root : RootModule) (vs : List Variant) :
    Frees (variantTrees o lib root vs)
      (variantTreesShared o lib root (vs.map fun v => (v, RootModule.tree root.body v.name))) := by
  induction vs with
  | nil => exact frees_lift (pure [])
  | cons v vs ih =>
    exact frees_bind (frees_variantTree o lib root v) fun _ => frees_bind ih fun _ => frees_lift _

theorem frees_generate (store : Store) (o : Options) (source : FilePath) :
    Frees (generate store o source) (generateShared store o source) :=
  frees_bind (frees_lift _) fun root => frees_bind (frees_lift _) fun _ =>
    frees_variantTrees o ⟨store, o.sourceRoot.getD (o.cwd.join source).parent⟩ root o.mode.variants

/-- What comes of a generation, apart from what is noted: the root module is read once, then each variant is made. -/
theorem result_generate (store : Store) (o : Options) (source : FilePath) :
    (generate store o source).result = loadRoot store (o.cwd.join source) >>= fun root =>
      (variantTrees o ⟨store, o.sourceRoot.getD (o.cwd.join source).parent⟩ root o.mode.variants).result := by
  simp only [generate, Traced.bind_result]
  rfl

theorem result_variantTrees (o : Options) (lib : Library) (root : RootModule) (vs : List Variant) :
    (variantTrees o lib root vs).result = vs.mapM fun v => (v, ·) <$> (variantTree o lib root v).result := by
  induction vs with
  | nil => rfl
  | cons v vs ih =>
    simp only [variantTrees, Traced.bind_result, List.mapM_cons, ih, bind_map_left]
    rfl

/-- Each variant is generated as it would be alone: both together give the two trees that each gives by itself, or the
error of the asynchronous one, or else that of the blocking one. Conversions that share the files being read give the
same, and leave none behind. -/
theorem generate_independent (store : Store) (o : Options) (source : FilePath) :
    (∃ a b : Except Failure Tree,
      (generate store { o with mode := .asyncOnly } source).result = a.map (fun t => [(.asynchronous, t)]) ∧
      (generate store { o with mode := .blockingOnly } source).result = b.map (fun t => [(.blocking, t)]) ∧
      (generate store { o with mode := .both } source).result = do
        let t ← a
        let u ← b
        return [(.asynchronous, t), (.blocking, u)]) ∧
    ∀ mode, ∃ after : Surroundings, after.chain = [] ∧
      generateShared store { o with mode } source ⟨[], none, []⟩ = (generate store { o with mode } source, after) := by
  constructor
  · have hresult (mode : Mode) := result_generate store { o with mode } source
    cases hroot : loadRoot store (o.cwd.join source) with
    | error f =>
      simp only [hroot] at hresult
      exact ⟨.error f, .error f, hresult _, hresult _, hresult _⟩
    | ok root =>
      let tree (v : Variant) : Except Failure Tree :=
        (variantTree o ⟨store, o.sourceRoot.getD (o.cwd.join source).parent⟩ root v).result
      have htrees (mode : Mode) : (generate store { o with mode } source).result =
          mode.variants.mapM fun v => (v, ·) <$> tree v := by
        rw [hresult, hroot]
        exact result_variantTrees { o with mode } _ root mode.variants
      refine ⟨tree .asynchronous, tree .blocking, ?_, ?_, ?_⟩
      · simp only [htrees, Mode.variants, List.mapM_cons, List.mapM_nil]
        cases tree .asynchronous <;> rfl
      · simp only [htrees, Mode.variants, List.mapM_cons, List.mapM_nil]
        cases tree .blocking <;> rfl
      · simp only [htrees, Mode.variants, List.mapM_cons, List.mapM_nil]
        cases tree .asynchronous with
        | error f => rfl
        | ok t => cases tree .blocking <;> rfl
  · intro mode
    obtain ⟨hgenerate, hafter⟩ := frees_generate store { o with mode } source ⟨[], none, []⟩ rfl
    exact ⟨_, hafter, Prod.ext hgenerate rfl⟩

end Project

end TwinModule
