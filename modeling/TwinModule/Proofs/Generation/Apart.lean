import TwinModule.Proofs.Generation.Again
import TwinModule.Proofs.Layout.Complete
import TwinModule.Proofs.Project
/-!
Whether every module of a generated tree has a file of its own. It has one if the modules in a module are told apart by
their names; nothing in a source makes sure of that.
-/
set_option autoImplicit false

namespace TwinModule.Project
open Traced

variable {store : Store} {o : Options} {lib : Library} {root : RootModule} {source : FilePath}

/-- A tree that is generated is a module that is called like its variant. -/
theorem exists_module_of_variantTree {v : Variant} {t : Tree} {ns : List Note}
    (hr : stmtsModules IsNamed root.body) (h : (variantTree o lib root v).Yields ns t) :
    ∃ info body, t = .module_ info v.name body ∧ stmtsModules IsNamed body := by
  obtain ⟨converted, hconvert, rfl⟩ := bind_pure_yields_iff.1 h
  have hnamed : stmtsModules IsNamed converted.body :=
    Conversion.modules_of_convert (t := RootModule.tree root.body v.name) hr hconvert
  obtain ⟨_, _, -, -, rfl⟩ := Conversion.convert_yields_iff.1 hconvert
  split
  · exact ⟨_, _, rfl, modules_blockingStmts _ hnamed⟩
  · exact ⟨_, _, rfl, hnamed⟩

theorem exists_module_of_variantTrees {vs : List Variant} {trees : List (Variant × Tree)} {ns : List Note}
    (hr : stmtsModules IsNamed root.body) (h : (variantTrees o lib root vs).Yields ns trees) :
    ∀ v t, (v, t) ∈ trees → ∃ info body, t = .module_ info v.name body ∧ stmtsModules IsNamed body := by
  induction vs generalizing trees ns with
  | nil =>
    obtain ⟨-, rfl⟩ := pure_yields_iff.1 h
    simp
  | cons w vs ih =>
    obtain ⟨_, first, _, rest, hfirst, hrest, -, rfl⟩ := bind_bind_pure_yields_iff.1 h
    intro v t ht
    rcases List.mem_cons.1 ht with e | ht
    · cases e
      exact exists_module_of_variantTree hr hfirst
    · exact ih hrest v t ht

theorem exists_module_of_generate {trees : List (Variant × Tree)} (h : (generate store o source).result = .ok trees)
    {v : Variant} {t : Tree} (ht : (v, t) ∈ trees) :
    ∃ info body, t = .module_ info v.name body ∧ stmtsModules IsNamed body := by
  obtain ⟨root, ks, hroot, htrees, -⟩ := generate_yields_iff.1 (yields_of_result h)
  obtain ⟨origin, body, -, -, hload, rfl⟩ := loadRoot_eq_ok_iff.1 hroot
  exact exists_module_of_variantTrees (Library.load_modules hload) htrees v t ht

theorem isIdentifier_variantName (v : Variant) : IsIdentifier v.name := by
  unfold IsIdentifier
  cases v <;> decide +kernel

/-- Of a tree that is generated no module is lost exactly if everything in it can be printed and, in each of its
modules, no two modules without modules in them are of one name, no two with modules in them are, and none without modules in it
is called `__init__`. Then each module is printed, with imports for the modules in it, to a file of its own. -/
theorem layout_complete_iff (store : Store) (o : Options) (source : FilePath) (shown : String)
    (trees : List (Variant × Tree)) (v : Variant) (t : Tree) (h : (generate store o source).result = .ok trees)
    (ht : (v, t) ∈ trees) :
    (∃ texts, Layout.files shown ⟨.relative, []⟩ v.name t.body = .ok texts ∧ Layout.Complete shown v.name t texts) ↔
      Layout.AllPrint shown (Layout.sheets v.name t) ∧
        (plainNames t.body).Nodup ∧ (packageNames t.body).Nodup ∧ packageStem ∉ plainNames t.body ∧
          stmtsApart t.body := by
  have hobeys := obeys_of_generate h _ ht
  obtain ⟨info, body, rfl, hnamed⟩ := exists_module_of_generate h ht
  exact Layout.exists_complete_iff (isIdentifier_variantName v) hnamed hobeys

/-- The tree of a source that declares a module with one statement in a file of its own. -/
def passMTrees : List (Variant × Tree) := [(.blocking, RootModule.tree [declaredM [passAt]] "blocking")]

theorem layout_complete_iff_passM :
    ((generate (packageAfter "pass\n" "") blockingNextToSource namesake).result = .ok passMTrees ∧
      (.blocking, RootModule.tree [declaredM [passAt]] "blocking") ∈ passMTrees) ∧
    ((∃ texts, Layout.files "blocking.py" ⟨.relative, []⟩ "blocking" [declaredM [passAt]] = .ok texts ∧
        Layout.Complete "blocking.py" "blocking" (RootModule.tree [declaredM [passAt]] "blocking") texts) ↔
      Layout.AllPrint "blocking.py" (Layout.sheets "blocking" (RootModule.tree [declaredM [passAt]] "blocking")) ∧
        (plainNames [declaredM [passAt]]).Nodup ∧ (packageNames [declaredM [passAt]]).Nodup ∧
          packageStem ∉ plainNames [declaredM [passAt]] ∧ stmtsApart [declaredM [passAt]]) := by
  have hload : Library.load (packageAfter "pass\n" "") plainPath "m" = .ok [passAt] :=
    (load_of_read "m" (read_plainPath ..) (by decide)).trans (readSource_pass _)
  have htrees := variantTrees_package (realPath_namesake ..) (realPath_plainPath ..) (by decide)
    (locate_packageAfter ..) hload fun _ _ => rfl
  have hgenerate : (generate (packageAfter "pass\n" "") blockingNextToSource namesake).result = .ok passMTrees :=
    (generate_namesake (read_namesake ..) (by decide) (readSource_declaredM _) htrees).result
  have hmem : (.blocking, RootModule.tree [declaredM [passAt]] "blocking") ∈ passMTrees := List.mem_singleton_self _
  exact ⟨⟨hgenerate, hmem⟩, layout_complete_iff _ _ _ "blocking.py" _ _ _ hgenerate hmem⟩

/-- A module with one name for its body, and where these are. -/
def namedM (line : Nat) (what : String) : Stmt :=
  .block ⟨⟨some line, some 0, some (line + 2), some 14⟩, []⟩ (.module_ "m")
    [.simple ⟨⟨some (line + 1), some 0, some (line + 1), some 1⟩, []⟩ (.expr (.name what .load))]

/-- Two modules of one name, one after the other. -/
def twiceM : String := "# amphi-begin: m\nx\n# amphi-end: m\n# amphi-begin: m\ny\n# amphi-end: m\n"

def twiceMRemarks : List Comment :=
  [⟨"# amphi-begin: m", false, ⟨some 1, some 0, some 1, some 16⟩⟩,
   ⟨"# amphi-end: m", false, ⟨some 3, some 0, some 3, some 14⟩⟩,
   ⟨"# amphi-begin: m", false, ⟨some 4, some 0, some 4, some 16⟩⟩,
   ⟨"# amphi-end: m", false, ⟨some 6, some 0, some 6, some 14⟩⟩]

/-- The names in the modules. -/
def twiceMParsed : List Stmt :=
  [.simple ⟨⟨some 2, some 0, some 2, some 1⟩, []⟩ (.expr (.name "x" .load)),
   .simple ⟨⟨some 5, some 0, some 5, some 1⟩, []⟩ (.expr (.name "y" .load))]

/-- The text before its directives take effect. -/
def twiceMRead : List Stmt :=
  (twiceMRemarks.take 1).map .comment ++ twiceMParsed.take 1 ++ ((twiceMRemarks.drop 1).take 2).map .comment ++
    twiceMParsed.drop 1 ++ (twiceMRemarks.drop 3).map .comment

set_option maxRecDepth 4096 in
theorem readSource_twiceM (file : String) : readSource file twiceM = .ok [namedM 1 "x", namedM 4 "y"] := by
  have hparse : Grammar.parse twiceM.toList = some twiceMParsed := by decide +kernel
  have hscan : Comments.scan twiceM.toList = .ok twiceMRemarks := by decide +kernel
  have hattach : Comments.attach twiceM.toList twiceMRemarks twiceMParsed = .ok twiceMRead := by cbv
  exact readSource_of_readAnnotated (readAnnotated_of_parse _ (by decide) hparse hscan hattach) (by decide +kernel)

def twiceMTree : Tree := RootModule.tree [namedM 1 "x", namedM 4 "y"] "blocking"

theorem generate_twiceM :
    (generate (namesakeStore twiceM) blockingNextToSource namesake).result = .ok [(.blocking, twiceMTree)] := by
  have htrees : variantTrees blockingNextToSource ⟨namesakeStore twiceM, ⟨.slash, []⟩⟩
      ⟨"blocking", namesake, [namedM 1 "x", namedM 4 "y"]⟩ [.blocking] = ⟨[], .ok [(.blocking, twiceMTree)]⟩ := by
    cbv
  exact (generate_namesake (read_namesakeStore _) (by decide) (readSource_twiceM _) htrees).result

/-- The texts of both modules are put in one place, and only the second one stays there. -/
theorem not_layout_complete : ¬ ∀ (store : Store) (o : Options) (source : FilePath) (shown : String)
    (trees : List (Variant × Tree)) (v : Variant) (t : Tree), (generate store o source).result = .ok trees →
      (v, t) ∈ trees → Layout.AllPrint shown (Layout.sheets v.name t) →
        ∃ texts, Layout.files shown ⟨.relative, []⟩ v.name t.body = .ok texts ∧
          Layout.Complete shown v.name t texts := by
  intro h
  have hfiles : Layout.files "blocking.py" ⟨.relative, []⟩ "blocking" twiceMTree.body =
      .ok [(⟨.relative, ["blocking", "m.py"]⟩, namesakeHeader ++ "y\n"),
        (⟨.relative, ["blocking", "__init__.py"]⟩, namesakeHeader ++ "from . import m\nfrom . import m\n")] :=
    eq_ok_of_toOption (by decide +kernel)
  have hprint : Layout.AllPrint "blocking.py" (Layout.sheets "blocking" twiceMTree) :=
    (Layout.exists_stmtFiles_iff _).1 ⟨_, Layout.files_eq_ok_iff.1 hfiles⟩
  obtain ⟨texts, -, hcomplete⟩ := h _ _ _ "blocking.py" _ _ _ generate_twiceM (List.mem_singleton_self _) hprint
  exact absurd hcomplete.distinct (by decide +kernel)

end TwinModule.Project
