import Mathlib
import TwinModule.Proofs.Conversion.Tailor
import TwinModule.Proofs.Files.Grow
import TwinModule.Project
/-!
The steps of a generation: reading the root module, converting it to each variant, laying out the files and writing
them.
-/
set_option autoImplicit false

namespace TwinModule.Project
open Traced

variable {store : Store} {o : Options} {source : FilePath} {shown : String}

theorem ask_eq_ok_iff {p : FilePath} {r : Except PathProblem Bool} {b : Bool} : ask p r = .ok b ↔ r = .ok b := by
  cases r with
  | error problem => exact ⟨nofun, nofun⟩
  | ok answer => exact ⟨fun h => congrArg _ (Except.ok.inj h), fun h => congrArg _ (Except.ok.inj h)⟩

theorem originOf_of_inside (hdirectory : store.isDirectory source = .ok true)
    (hfile : store.isFile (source.child Library.packageFile) = .ok true) :
    originOf store source = .ok (source.child Library.packageFile) := by
  simp only [originOf, ask_eq_ok_iff.2 hdirectory, ask_eq_ok_iff.2 hfile]
  rfl

theorem originOf_of_isFile (hfile : store.isFile source = .ok true) (hsuffix : source.suffix = Library.sourceSuffix) :
    originOf store source = .ok source := by
  simp only [originOf, ask_eq_ok_iff.2 (Store.isDirectory_of_isFile hfile), ask_eq_ok_iff.2 hfile, hsuffix]
  rfl

theorem originOf_cases {origin : FilePath} (h : originOf store source = .ok origin) :
    (store.isDirectory source = .ok true ∧ store.isFile origin = .ok true ∧
        origin = source.child Library.packageFile) ∨
      (store.isFile origin = .ok true ∧ source.suffix = Library.sourceSuffix ∧ origin = source) := by
  have hplain : ∀ f : Failure, (ask source (store.isFile source) >>= fun isFile =>
      if (isFile && source.suffix == Library.sourceSuffix) = true then pure source else throw f) = .ok origin →
      store.isFile origin = .ok true ∧ source.suffix = Library.sourceSuffix ∧ origin = source := by
    intro f h
    obtain ⟨isFile, hfile, h⟩ := bind_eq_ok_iff.1 h
    split at h
    · rename_i hboth
      obtain ⟨rfl, hsuffix⟩ : isFile = true ∧ source.suffix = Library.sourceSuffix := by simpa using hboth
      cases h
      exact ⟨ask_eq_ok_iff.1 hfile, hsuffix, rfl⟩
    · cases h
  obtain ⟨isDirectory, hdirectory, h⟩ := bind_eq_ok_iff.1 h
  split at h
  · rename_i htrue
    obtain ⟨isFile, hfile, h⟩ := bind_eq_ok_iff.1 h
    split at h
    · rename_i hinside
      cases h
      exact .inl ⟨htrue ▸ ask_eq_ok_iff.1 hdirectory, hinside ▸ ask_eq_ok_iff.1 hfile, rfl⟩
    · exact .inr (hplain _ h)
  · exact .inr (hplain _ h)

theorem loadRoot_eq_ok_iff {root : RootModule} :
    loadRoot store source = .ok root ↔
      ∃ origin body, originOf store source = .ok origin ∧ Text.isIdentifier source.stem.toList = true ∧
        Library.load store origin source.stem = .ok body ∧ root = ⟨source.stem, origin, body⟩ := by
  simp only [loadRoot, bind_eq_ok_iff]
  constructor
  · rintro ⟨origin, horigin, h⟩
    split at h
    · obtain ⟨_, h, -⟩ := bind_eq_ok_iff.1 h
      cases h
    · rename_i hname
      obtain ⟨body, hload, h⟩ := bind_eq_ok_iff.1 h
      cases h
      exact ⟨origin, body, horigin, by simpa using hname, hload, rfl⟩
  · rintro ⟨origin, body, horigin, hname, hload, rfl⟩
    refine ⟨origin, horigin, ?_⟩
    simp only [hname, hload]
    rfl

/-- Where modules are looked for if nothing else is said: next to the root module. -/
def libraryRoot (o : Options) (source : FilePath) : FilePath := o.sourceRoot.getD (o.cwd.join source).parent

theorem generate_yields_iff {ns : List Note} {trees : List (Variant × Tree)} :
    (generate store o source).Yields ns trees ↔
      ∃ root ks, loadRoot store (o.cwd.join source) = .ok root ∧
        (variantTrees o ⟨store, libraryRoot o source⟩ root o.mode.variants).Yields ks trees ∧
        ns = .generating o.mode.variants root.origin (libraryRoot o source) :: ks := by
  simp only [generate, libraryRoot, bind_ofExcept_yields_iff, bind_note_yields_iff]
  constructor
  · rintro ⟨root, hroot, ks, htrees, hns⟩
    exact ⟨root, ks, hroot, htrees, hns⟩
  · rintro ⟨root, ks, hroot, htrees, hns⟩
    exact ⟨root, hroot, ks, htrees, hns⟩

/-- What follows once the root module has been read. -/
theorem generate_of_loadRoot {root : RootModule} (h : loadRoot store (o.cwd.join source) = .ok root) :
    generate store o source = Traced.note (.generating o.mode.variants root.origin (libraryRoot o source)) >>= fun _ =>
      variantTrees o ⟨store, libraryRoot o source⟩ root o.mode.variants := by
  simp only [generate, h]
  rfl

theorem render_yields_iff {ns : List Note} {files : FileTexts} :
    (render store o source shown).Yields ns files ↔
      ∃ trees, (generate store o source).Yields ns trees ∧ filesOf shown trees = .ok files := by
  simp only [render, bind_yields_iff, ofExcept_yields_iff]
  constructor
  · rintro ⟨ms, trees, htrees, ks, ⟨rfl, hfiles⟩, rfl⟩
    exact ⟨trees, by rwa [List.append_nil], hfiles⟩
  · rintro ⟨trees, htrees, hfiles⟩
    exact ⟨ns, trees, htrees, [], ⟨rfl, hfiles⟩, (List.append_nil ns).symm⟩

theorem generateFiles_of_render {files : FileTexts} (h : (render store o source shown).result = .ok files) :
    generateFiles store o source shown =
      ((Layout.write store (outputDirectory o source) files).1,
        ⟨(render store o source shown).notes ++ (Layout.write store (outputDirectory o source) files).2.notes,
          (Layout.write store (outputDirectory o source) files).2.result⟩) := by
  unfold generateFiles
  cases hrender : render store o source shown with
  | mk ns r =>
    rw [hrender] at h
    cases h
    rfl

theorem generateFiles_of_yields {ns ms : List Note} {files : FileTexts} {after : Store}
    {r : Except Failure (List FilePath)} (hrender : (render store o source shown).Yields ns files)
    (hwrite : Layout.write store (outputDirectory o source) files = (after, ⟨ms, r⟩)) :
    generateFiles store o source shown = (after, ⟨ns ++ ms, r⟩) := by
  rw [generateFiles_of_render hrender.result, hrender.notes, hwrite]

theorem generateFiles_of_render_error {failure : Failure}
    (h : (render store o source shown).result = .error failure) :
    generateFiles store o source shown = (store, ⟨(render store o source shown).notes, .error failure⟩) := by
  unfold generateFiles
  cases hrender : render store o source shown with
  | mk ns r =>
    rw [hrender] at h
    cases h
    rfl

/-- Text that is written reads as it is, but for carriage returns. -/
theorem load_of_read {p : FilePath} {text : String} (name : String) (h : store.read p = .ok text.toUTF8)
    (hfold : Text.foldNewlines text.toList = text.toList) : Library.load store p name = readSource p.text text := by
  have hutf8 : String.fromUTF8? text.toUTF8 = some text := by
    simp only [String.fromUTF8?]
    exact dif_pos text.isValidUTF8
  simp only [Library.load, h, Library.readText, hutf8, hfold, String.ofList_toList]

theorem eq_ok_of_toOption {ε α : Type} {r : Except ε α} {a : α} (h : r.toOption = some a) : r = .ok a := by
  cases r with
  | error e => cases h
  | ok b =>
    cases h
    rfl

section

variable {name text : String} {body : List Stmt} {ks : List Note} {trees : List (Variant × Tree)}

/-- A root module in a plain file. -/
theorem loadRoot_of_file {path : FilePath} (hread : store.read path = .ok text.toUTF8)
    (hsuffix : path.suffix = Library.sourceSuffix) (hstem : path.stem = name)
    (hname : Text.isIdentifier name.toList = true) (hfold : Text.foldNewlines text.toList = text.toList)
    (hbody : readSource path.text text = .ok body) : loadRoot store path = .ok ⟨name, path, body⟩ := by
  subst hstem
  obtain ⟨l, hl, hfile⟩ := Store.read_eq_ok_iff.1 hread
  have horigin := originOf_of_isFile (Store.isFile_eq_true_iff.2 ⟨l, _, hl, hfile⟩) hsuffix
  exact loadRoot_eq_ok_iff.2 ⟨_, _, horigin, hname, (load_of_read _ hread hfold).trans hbody, rfl⟩

/-- The run for a root module in a plain file, step by step. -/
theorem generate_of_file (hread : store.read (o.cwd.join source) = .ok text.toUTF8)
    (hsuffix : (o.cwd.join source).suffix = Library.sourceSuffix) (hstem : (o.cwd.join source).stem = name)
    (hname : Text.isIdentifier name.toList = true) (hfold : Text.foldNewlines text.toList = text.toList)
    (hbody : readSource (o.cwd.join source).text text = .ok body)
    (htrees : variantTrees o ⟨store, libraryRoot o source⟩ ⟨name, o.cwd.join source, body⟩ o.mode.variants =
      ⟨ks, .ok trees⟩) :
    (generate store o source).Yields (.generating o.mode.variants (o.cwd.join source) (libraryRoot o source) :: ks)
      trees :=
  generate_yields_iff.2 ⟨_, ks, loadRoot_of_file hread hsuffix hstem hname hfold hbody, htrees, rfl⟩

end

/-- One statement, the same in both variants. -/
def passAt : Stmt := .pass ⟨some 1, some 0, some 1, some 4⟩

theorem readSource_pass (file : String) : readSource file "pass\n" = .ok [passAt] :=
  readSource_of_ok "" file (by decide +kernel)

theorem variantTrees_pass {lib : Library} {name : String} {origin real : FilePath}
    (hreal : lib.store.realPath origin = .ok real) (vs : List Variant) :
    variantTrees o lib ⟨name, origin, [passAt]⟩ vs =
      ⟨[], .ok (vs.map fun v => (v, RootModule.tree [passAt] v.name))⟩ := by
  induction vs with
  | nil => rfl
  | cons v vs ih =>
    have hfirst : Library.enter lib.store [] origin name = .ok [(real, name)] := by
      simp only [Library.enter, hreal, List.lookup, List.nil_append]
    have hconvert : ((⟨v, name, o.package⟩ : Conversion).convert (some lib) (some origin)
        (RootModule.tree [passAt] v.name)).Yields [] (RootModule.tree [passAt] v.name) :=
      Conversion.convert_yields_iff.2 ⟨_, [passAt], hfirst, rfl, rfl⟩
    have htree : (variantTree o lib ⟨name, origin, [passAt]⟩ v).Yields [] (RootModule.tree [passAt] v.name) := by
      refine bind_pure_yields_iff.2 ⟨_, hconvert, ?_⟩
      cases v <;> rfl
    exact bind_bind_pure_yields_iff.2 ⟨[], _, [], _, htree, ih, rfl, rfl⟩

def bothNextToSource : Options := ⟨.both, none, none, none, ⟨.slash, []⟩⟩

def passFiles (text : String) : FileTexts :=
  [(⟨.relative, ["asynchronous.py"]⟩, text), (⟨.relative, ["blocking.py"]⟩, text)]

def passText : String := "# AUTO-GENERATED by python-amphi from a.py. DO NOT EDIT.\npass\n"

set_option maxRecDepth 4096 in
theorem render_pass {store : Store} {real : FilePath} (hread : store.read ⟨.slash, ["a.py"]⟩ = .ok "pass\n".toUTF8)
    (hreal : store.realPath ⟨.slash, ["a.py"]⟩ = .ok real) :
    (render store bothNextToSource ⟨.slash, ["a.py"]⟩ "a.py").Yields
      [.generating [.asynchronous, .blocking] ⟨.slash, ["a.py"]⟩ ⟨.slash, []⟩] (passFiles passText) := by
  have hname : Text.isIdentifier "a".toList = true := by decide +kernel
  have hsuffix : (FilePath.mk .slash ["a.py"]).suffix = Library.sourceSuffix := by decide +kernel
  have hstem : (FilePath.mk .slash ["a.py"]).stem = "a" := by decide +kernel
  have hfiles : filesOf "a.py" ([.asynchronous, .blocking].map fun v => (v, RootModule.tree [passAt] v.name)) =
      .ok (passFiles passText) := eq_ok_of_toOption (by decide +kernel)
  exact render_yields_iff.2 ⟨_, generate_of_file hread hsuffix hstem hname (by decide) (readSource_pass _)
    (variantTrees_pass hreal _), hfiles⟩

end TwinModule.Project
