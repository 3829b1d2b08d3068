import TwinModule.Proofs.Generation.Again
import TwinModule.Proofs.Tree.Synchronous
/-!
What generating a blocking variant leaves of asynchronous code: nothing.
-/
set_option autoImplicit false

namespace TwinModule.Project
open Traced

variable {o : Options} {lib : Library} {root : RootModule}

theorem isSync_of_variantTree {t : Tree} {ns : List Note} (h : (variantTree o lib root .blocking).Yields ns t) :
    t.IsSync := by
  obtain ⟨converted, -, rfl⟩ := bind_pure_yields_iff.1 h
  exact converted.isSync_blocking

theorem isSync_of_variantTrees {vs : List Variant} {trees : List (Variant × Tree)} {ns : List Note}
    (h : (variantTrees o lib root vs).Yields ns trees) : ∀ t, (.blocking, t) ∈ trees → t.IsSync := by
  induction vs generalizing trees ns with
  | nil =>
    obtain ⟨-, rfl⟩ := pure_yields_iff.1 h
    simp
  | cons v vs ih =>
    obtain ⟨_, first, _, rest, hfirst, hrest, -, rfl⟩ := bind_bind_pure_yields_iff.1 h
    intro t ht
    rcases List.mem_cons.1 ht with e | ht
    · cases e
      exact isSync_of_variantTree hfirst
    · exact ih hrest t ht

/-- The blocking form of a tree has nothing asynchronous in it, and exactly the trees that have nothing of the kind stay
as they are; so the blocking form is its own, and every blocking variant that is generated is free of asynchronous code,
whatever files it comes from. -/
theorem blocking_synchronous :
    (∀ t : Tree, t.blocking.IsSync ∧ (t.blocking = t ↔ t.IsSync) ∧ t.blocking.blocking = t.blocking) ∧
    ∀ (store : Store) (o : Options) (source : FilePath) (trees : List (Variant × Tree)),
      (generate store o source).result = .ok trees → ∀ t, (.blocking, t) ∈ trees → t.IsSync := by
  constructor
  · intro t
    exact ⟨t.isSync_blocking, t.blocking_eq_self_iff_isSync, Tree.blocking_eq_self_of_isSync t.isSync_blocking⟩
  · intro store o source trees h
    obtain ⟨root, ks, -, htrees, -⟩ := generate_yields_iff.1 (yields_of_result h)
    exact isSync_of_variantTrees htrees

/-- A module in another file that awaits something. -/
def awaitedB (value : Expr) : Stmt := .simple ⟨⟨some 1, some 0, some 1, some 7⟩, []⟩ (.expr value)

theorem readSource_awaitedB (file : String) :
    readSource file "await b\n" = .ok [awaitedB (.await (.name "b" .load))] :=
  readSource_of_ok "" file (by decide +kernel)

def awaitedTrees : List (Variant × Tree) :=
  [(.blocking, RootModule.tree [declaredM [awaitedB (.name "b" .load)]] "blocking")]

theorem blocking_synchronous_awaitedB :
    (generate (packageAfter "await b\n" "") blockingNextToSource namesake).result = .ok awaitedTrees ∧
      ∀ t, (.blocking, t) ∈ awaitedTrees → t.IsSync := by
  have hload : Library.load (packageAfter "await b\n" "") plainPath "m" = .ok [awaitedB (.await (.name "b" .load))] :=
    (load_of_read "m" (read_plainPath ..) (by decide)).trans (readSource_awaitedB _)
  have htrees := variantTrees_package (realPath_namesake ..) (realPath_plainPath ..) (by decide)
    (locate_packageAfter ..) hload fun _ _ => rfl
  have hgenerate : (generate (packageAfter "await b\n" "") blockingNextToSource namesake).result = .ok awaitedTrees :=
    (generate_namesake (read_namesake ..) (by decide) (readSource_declaredM _) htrees).result
  exact ⟨hgenerate, blocking_synchronous.2 _ _ _ _ hgenerate⟩

end TwinModule.Project
