import Mathlib
import TwinModule.Proofs.Layout
/-!
What generating the variants of a module gives: converted trees, and files in which nothing of the directives is left.
-/
set_option autoImplicit false

namespace TwinModule.Project
open Layout

variable {store : Store} {o : Options} {lib : Library} {root : RootModule}

theorem obeys_of_loadRoot {source : FilePath} (h : loadRoot store source = .ok root) :
    stmtsObey .attached true root.body := by
  simp only [loadRoot, bind_eq_ok_iff] at h
  obtain ⟨origin, -, h⟩ := h
  split at h
  · obtain ⟨_, h, -⟩ := bind_eq_ok_iff.1 h
    cases h
  · obtain ⟨body, hload, h⟩ := bind_eq_ok_iff.1 h
    cases h
    exact Library.load_obeys hload

theorem obeys_of_variantTree (hr : stmtsObey .attached true root.body) {v : Variant} {t : Tree}
    {ns : List Note} (h : (variantTree o lib root v).Yields ns t) : t.Obeys .converted := by
  simp only [variantTree, Traced.bind_yields_iff, Traced.pure_yields_iff] at h
  obtain ⟨ms, converted, hconvert, -, ⟨-, rfl⟩, -⟩ := h
  have hc : converted.Obeys .converted :=
    Conversion.obeys_of_convert (t := RootModule.tree root.body v.name) hr hconvert.result
  split
  · exact Tree.obeys_blocking hc
  · exact hc

theorem obeys_of_variantTrees (hr : stmtsObey .attached true root.body) {vs : List Variant}
    {trees : List (Variant × Tree)} {ns : List Note} (h : (variantTrees o lib root vs).Yields ns trees) :
    ∀ vt ∈ trees, vt.2.Obeys .converted := by
  induction vs generalizing trees ns with
  | nil =>
    obtain ⟨-, rfl⟩ := Traced.pure_yields_iff.1 h
    simp
  | cons v vs ih =>
    simp only [variantTrees, Traced.bind_yields_iff, Traced.pure_yields_iff] at h
    obtain ⟨ms, t, ht, -, ⟨ks, ts, hts, -, ⟨-, rfl⟩, -⟩, -⟩ := h
    intro vt hvt
    rcases List.mem_cons.1 hvt with rfl | hvt
    · exact obeys_of_variantTree hr ht
    · exact ih hts vt hvt

theorem obeys_of_generate {source : FilePath} {trees : List (Variant × Tree)}
    (h : (generate store o source).result = .ok trees) : ∀ vt ∈ trees, vt.2.Obeys .converted := by
  have hy := Traced.yields_of_result h
  simp only [generate, Traced.bind_ofExcept_yields_iff, Traced.bind_note_yields_iff] at hy
  obtain ⟨root, hroot, ks, htrees, -⟩ := hy
  exact obeys_of_variantTrees (obeys_of_loadRoot hroot) htrees

/-- The sheets of all variants. -/
def sheetsOf (trees : List (Variant × Tree)) : List Sheet := trees.flatMap fun vt => sheets vt.1.name vt.2

theorem isPrinted_of_filesOf {shown : String} {trees : List (Variant × Tree)} {texts : FileTexts}
    (h : filesOf shown trees = .ok texts) : ∀ f ∈ texts, IsPrinted shown (sheetsOf trees) f := by
  induction trees generalizing texts with
  | nil =>
    cases h
    simp
  | cons vt trees ih =>
    obtain ⟨v, t⟩ := vt
    simp only [filesOf, bind_eq_ok_iff] at h
    obtain ⟨first, hfirst, rest, hrest, h⟩ := h
    cases h
    intro f hf
    rcases FileTexts.mem_update hf with hf | hf
    · exact (isPrinted_of_files hfirst f hf).left _
    · exact (ih hrest f hf).right _

/-- Nothing of the directives reaches a generated file. Reading leaves modules, tags and plain comments; converting
keeps that, whatever it fills in, and takes away the tags for variants and what was erased; the blocking form keeps
that; and what is printed into the files has ordinary statements without tags and plain comments only. -/
theorem printed_without_artefacts :
    (∀ file source body, readSource file source = .ok body → stmtsObey .attached true body) ∧
    (∀ (c : Conversion) (lib : Option Library) (origin : Option FilePath) (t t' : Tree),
      stmtsObey .attached true t.body → (c.convert lib origin t).result = .ok t' → t'.Obeys .converted) ∧
    (∀ t : Tree, t.Obeys .converted → t.blocking.Obeys .converted) ∧
    (∀ (store : Store) (o : Options) (source : FilePath) (shown : String) (texts : FileTexts),
      (render store o source shown).result = .ok texts →
      ∃ trees, (generate store o source).result = .ok trees ∧
        (∀ sheet ∈ sheetsOf trees, stmtsObey printable true sheet.2) ∧
        ∀ f ∈ texts, IsPrinted shown (sheetsOf trees) f) := by
  refine ⟨fun file source body h => readSource_obeys h, fun c lib origin t t' ht h => Conversion.obeys_of_convert ht h,
    fun t h => Tree.obeys_blocking h, fun store o source shown texts h => ?_⟩
  have hy := Traced.yields_of_result h
  simp only [render, Traced.bind_yields_iff, Traced.ofExcept_yields_iff] at hy
  obtain ⟨ms, trees, htrees, ks, ⟨-, hfiles⟩, -⟩ := hy
  refine ⟨trees, htrees.result, fun sheet hs => ?_, isPrinted_of_filesOf hfiles⟩
  obtain ⟨vt, hvt, hs⟩ := List.mem_flatMap.1 hs
  exact printable_sheets (obeys_of_generate htrees.result vt hvt) sheet hs

/-- A directory with one file, whose only statement is for one variant. -/
def onlyBlocking : Store := ⟨[(["a.py"], .file "# amphi: blocking\npass\n".toUTF8)]⟩

def onlyBlockingRoot : RootModule :=
  ⟨"a", ⟨.slash, ["a.py"]⟩, [.simple ⟨⟨some 2, some 0, some 2, some 4⟩, [⟨"amphi", "blocking", 1⟩]⟩ .pass]⟩

def onlyBlockingTrees : List (Variant × Tree) :=
  [(.asynchronous, RootModule.tree [.pass ⟨some 1, some 0, none, none⟩] "asynchronous"),
   (.blocking, RootModule.tree [.pass ⟨some 2, some 0, some 2, some 4⟩] "blocking")]

def onlyBlockingFiles : FileTexts :=
  [(⟨.relative, ["asynchronous.py"]⟩, "# AUTO-GENERATED by python-amphi from a.py. DO NOT EDIT.\npass\n"),
   (⟨.relative, ["blocking.py"]⟩, "# AUTO-GENERATED by python-amphi from a.py. DO NOT EDIT.\npass\n")]

def bothVariants : Options := ⟨.both, none, none, none, ⟨.slash, []⟩⟩

set_option maxRecDepth 4096 in
theorem loadRoot_onlyBlocking : loadRoot onlyBlocking onlyBlockingRoot.origin = .ok onlyBlockingRoot := by
  have hlook : onlyBlocking.look onlyBlockingRoot.origin =
      .ok (["a.py"], .file "# amphi: blocking\npass\n".toUTF8) := by
    simp [Store.look, Store.locate, Store.walk, onlyBlocking, onlyBlockingRoot, Store.find?]
    rfl
  have horigin : originOf onlyBlocking onlyBlockingRoot.origin = .ok onlyBlockingRoot.origin := by
    have hsuffix : onlyBlockingRoot.origin.suffix = Library.sourceSuffix := by decide +kernel
    simp [originOf, ask, Store.isDirectory, Store.isFile, Store.holds, hlook, hsuffix]
    rfl
  have hstem : onlyBlockingRoot.origin.stem = "a" := by decide +kernel
  have hname : Text.isIdentifier ['a'] = true := by decide +kernel
  have hbody : Library.load onlyBlocking onlyBlockingRoot.origin "a" = .ok onlyBlockingRoot.body := by cbv
  simp [loadRoot, horigin, hstem, hname, hbody, bind_eq_ok_iff]
  rfl

set_option maxRecDepth 4096 in
theorem printed_without_artefacts_onlyBlocking :
    (render onlyBlocking bothVariants ⟨.slash, ["a.py"]⟩ "a.py").result = .ok onlyBlockingFiles ∧
    ∃ trees, (generate onlyBlocking bothVariants ⟨.slash, ["a.py"]⟩).result = .ok trees ∧
      (∀ sheet ∈ sheetsOf trees, stmtsObey printable true sheet.2) ∧
      ∀ f ∈ onlyBlockingFiles, IsPrinted "a.py" (sheetsOf trees) f := by
  have htrees : (variantTrees bothVariants ⟨onlyBlocking, ⟨.slash, []⟩⟩ onlyBlockingRoot
      [.asynchronous, .blocking]).result = .ok onlyBlockingTrees := by cbv
  have hfiles : (filesOf "a.py" onlyBlockingTrees).toOption = some onlyBlockingFiles := by decide +kernel
  have hgenerate : (generate onlyBlocking bothVariants ⟨.slash, ["a.py"]⟩).result = .ok onlyBlockingTrees := by
    have hload : loadRoot onlyBlocking (bothVariants.cwd.join ⟨.slash, ["a.py"]⟩) = .ok onlyBlockingRoot :=
      loadRoot_onlyBlocking
    simp only [generate, hload, Traced.bind_result]
    exact htrees
  have hrender : (render onlyBlocking bothVariants ⟨.slash, ["a.py"]⟩ "a.py").result = .ok onlyBlockingFiles := by
    simp only [render, Traced.bind_result, hgenerate]
    cases hf : filesOf "a.py" onlyBlockingTrees with
    | error f => simp [hf, Except.toOption] at hfiles
    | ok files =>
      rw [hf] at hfiles
      cases hfiles
      exact congrArg Traced.result (congrArg Traced.ofExcept hf)
  exact ⟨hrender, printed_without_artefacts.2.2.2 _ _ _ _ _ hrender⟩

end TwinModule.Project
