import TwinModule.Proofs.Files.Located
import TwinModule.Proofs.Files.Written
import TwinModule.Proofs.Generation.Run
/-!
A generation after another one: what was read is read again, unless it was written over.
-/
set_option autoImplicit false

namespace TwinModule.Project
open Layout Traced

variable {store after : Store} {o : Options} {source : FilePath} {shown : String}

/-- A file was read, for the root module or for a module in it, in a run with these notes. -/
def IsRead (notes : List Note) (p : FilePath) : Prop := ∃ n ∈ notes, n.file? = some p

theorem notes_of_variantTrees {lib : Library} {root : RootModule} {vs : List Variant} {ns : List Note}
    {trees : List (Variant × Tree)} (h : (variantTrees o lib root vs).Yields ns trees) :
    ∀ n ∈ ns, Conversion.FoundIn lib.store n := by
  induction vs generalizing ns trees with
  | nil =>
    obtain ⟨rfl, -⟩ := pure_yields_iff.1 h
    simp
  | cons v vs ih =>
    obtain ⟨ms, t, ks, ts, ht, hts, rfl, -⟩ := bind_bind_pure_yields_iff.1 h
    obtain ⟨converted, hconvert, -⟩ := bind_pure_yields_iff.1 ht
    exact List.forall_mem_append.2 ⟨Conversion.notes_of_convert hconvert, ih hts⟩

/-- What a generation says it read can be read. -/
theorem notes_of_generate {ns : List Note} {trees : List (Variant × Tree)}
    (h : (generate store o source).Yields ns trees) : ∀ n ∈ ns, Conversion.FoundIn store n := by
  obtain ⟨root, ks, hroot, htrees, rfl⟩ := generate_yields_iff.1 h
  obtain ⟨origin, body, -, -, hload, rfl⟩ := loadRoot_eq_ok_iff.1 hroot
  refine List.forall_mem_cons.2 ⟨?_, notes_of_variantTrees htrees⟩
  rintro _ ⟨⟩
  exact Conversion.exists_read_of_load hload

theorem loadRoot_of_grows {root : RootModule} (hgrows : store.Grows after)
    (hread : after.read root.origin = store.read root.origin) (h : loadRoot store source = .ok root) :
    loadRoot after source = .ok root := by
  obtain ⟨origin, body, horigin, hname, hload, rfl⟩ := loadRoot_eq_ok_iff.1 h
  refine loadRoot_eq_ok_iff.2 ⟨origin, body, ?_, hname, (Library.load_congr _ hread).trans hload, rfl⟩
  rcases originOf_cases horigin with ⟨hdirectory, hfile, rfl⟩ | ⟨hfile, hsuffix, rfl⟩
  · exact originOf_of_inside (hgrows.isDirectory hdirectory) (hgrows.isFile hfile)
  · exact originOf_of_isFile (hgrows.isFile hfile) hsuffix

theorem variantTrees_of_keeps {p : Note → Prop} {lib lib' : Library} (hkeeps : lib.Keeps p lib')
    (hgrows : lib.store.Grows lib'.store) {root : RootModule} {vs : List Variant} {ns : List Note}
    {trees : List (Variant × Tree)} (hp : ∀ n ∈ ns, p n) (h : (variantTrees o lib root vs).Yields ns trees) :
    (variantTrees o lib' root vs).result = .ok trees := by
  induction vs generalizing ns trees with
  | nil =>
    rw [← h.result]
    rfl
  | cons v vs ih =>
    obtain ⟨ms, t, ks, ts, ht, hts, rfl, rfl⟩ := bind_bind_pure_yields_iff.1 h
    obtain ⟨hms, hks⟩ := List.forall_mem_append.1 hp
    obtain ⟨converted, hconvert, rfl⟩ := bind_pure_yields_iff.1 ht
    have hagain := Conversion.convert_result_of_keeps hkeeps hgrows.size (fun _ => hgrows.realPath) hms hconvert
    simp only [variantTrees, variantTree, bind_result, hagain, ih hks hts]
    rfl

/-- The variants are generated again as they were, if what was read has not changed and is found again. -/
theorem generate_of_grows {ns : List Note} {trees : List (Variant × Tree)} (hgrows : store.Grows after)
    (hread : ∀ p, IsRead ns p → after.read p = store.read p)
    (hshadow : Library.NoneShadowed ns (libraryRoot o source) store after)
    (h : (generate store o source).Yields ns trees) : (generate after o source).result = .ok trees := by
  obtain ⟨root, ks, hroot, htrees, rfl⟩ := generate_yields_iff.1 h
  have hkeeps := Library.keeps_of_grows hgrows (fun n hn p hp => hread p ⟨n, hn, hp⟩) hshadow
  have horigin : after.read root.origin = store.read root.origin := hread _ ⟨_, List.mem_cons_self .., rfl⟩
  have hagain := variantTrees_of_keeps hkeeps hgrows (fun n hn => List.mem_cons_of_mem _ hn) htrees
  exact (generate_yields_iff.2 ⟨root, _, loadRoot_of_grows hgrows horigin hroot, yields_of_result hagain, rfl⟩).result

theorem isRead_of_append {ns : List Note} {files : FileTexts} {directory : FilePath} {p : FilePath}
    (h : IsRead (ns ++ (write store directory files).2.notes) p) : IsRead ns p := by
  obtain ⟨n, hn, hp⟩ := h
  rcases List.mem_append.1 hn with hn | hn
  · exact ⟨n, hn, hp⟩
  · obtain ⟨q, rfl⟩ := notes_write store directory files n hn
    cases hp

/-- What a file that was read holds after the generation is the text that was written last in its place, if there is
one. If all files that were read are unchanged, and found again, a second generation does the same to no effect. -/
theorem generateFiles_again (store after : Store) (o : Options) (source : FilePath) (shown : String)
    (notes : List Note) (paths : List FilePath)
    (h : generateFiles store o source shown = (after, ⟨notes, .ok paths⟩)) :
    ∃ files, (render store o source shown).result = .ok files ∧
      (∀ p, IsRead notes p → ∃ l bytes, after.locate p = .ok l ∧ store.read p = .ok bytes ∧
        (after.read p = .ok bytes ↔
          ∀ e, lastWritten after (outputDirectory o source) files l = some e → e = .file bytes)) ∧
      ((∀ p, IsRead notes p → after.read p = store.read p) →
        Library.NoneShadowed notes (libraryRoot o source) store after →
        (render after o source shown).result = .ok files ∧ (generateFiles after o source shown).1 = after ∧
          (generateFiles after o source shown).2.result = .ok paths) := by
  cases hrender : (render store o source shown).result with
  | error failure =>
    rw [generateFiles_of_render_error hrender] at h
    cases h
  | ok files =>
    rw [generateFiles_of_render hrender, Prod.mk.injEq, Traced.mk.injEq] at h
    obtain ⟨rfl, rfl, hwrite⟩ := h
    have hwritten := isWritten_of_write hwrite
    obtain rfl := result_of_write hwrite
    obtain ⟨trees, htrees, hfiles⟩ := render_yields_iff.1 (yields_of_result hrender)
    refine ⟨files, rfl, fun p hp => ?_, fun hread hshadow => ?_⟩
    · obtain ⟨n, hn, hp⟩ := isRead_of_append hp
      obtain ⟨bytes, hbytes⟩ := notes_of_generate htrees n hn p hp
      obtain ⟨l, hl, hfile⟩ := Store.read_eq_ok_iff.1 hbytes
      have hl' := hwritten.grows.locate hl
      exact ⟨l, bytes, hl', hbytes, hwritten.read_iff hl' hfile⟩
    · have hread' : ∀ p, IsRead (render store o source shown).notes p → _ := fun p ⟨n, hn, hp⟩ =>
        hread p ⟨n, List.mem_append_left _ hn, hp⟩
      have hshadow' : Library.NoneShadowed (render store o source shown).notes (libraryRoot o source) store
          (write store (outputDirectory o source) files).1 := fun names path earlier later hn =>
        hshadow names path earlier later (List.mem_append_left _ hn)
      have hagain := generate_of_grows hwritten.grows hread' hshadow' htrees
      have hrendered : (render (write store (outputDirectory o source) files).1 o source shown).result = .ok files :=
        (render_yields_iff.2 ⟨trees, yields_of_result hagain, hfiles⟩).result
      rw [generateFiles_of_render hrendered]
      exact ⟨hrendered, write_of_isWritten hwritten⟩

/-- A directory with one file, which is for both variants. -/
def passStore : Store := ⟨[(["a.py"], .file "pass\n".toUTF8)]⟩

/-- The files of both variants next to it. -/
def passAfter (text : String) : Store :=
  ⟨passStore.entries ++ [(["asynchronous.py"], .file text.toUTF8), (["blocking.py"], .file text.toUTF8)]⟩

def passPaths : List FilePath := [⟨.slash, ["asynchronous.py"]⟩, ⟨.slash, ["blocking.py"]⟩]

def passNotes : List Note :=
  .generating [.asynchronous, .blocking] ⟨.slash, ["a.py"]⟩ ⟨.slash, []⟩ :: passPaths.map .wrote

theorem write_passStore (text : String) : write passStore ⟨.slash, []⟩ (passFiles text) =
    (passAfter text, ⟨passPaths.map .wrote, .ok passPaths⟩) := by cbv

theorem read_passAfter (text : String) {p : FilePath} (hp : IsRead passNotes p) :
    (passAfter text).read p = passStore.read p := by
  obtain rfl : p = ⟨.slash, ["a.py"]⟩ := by simpa [IsRead, passNotes, passPaths, Note.file?, eq_comm] using hp
  cbv

theorem generateFiles_passStore : generateFiles passStore bothNextToSource ⟨.slash, ["a.py"]⟩ "a.py" =
    (passAfter passText, ⟨passNotes, .ok passPaths⟩) := by
  have hread : passStore.read ⟨.slash, ["a.py"]⟩ = .ok "pass\n".toUTF8 := by cbv
  have hreal : passStore.realPath ⟨.slash, ["a.py"]⟩ = .ok ⟨.slash, ["a.py"]⟩ := by cbv
  exact generateFiles_of_yields (render_pass hread hreal) (write_passStore passText)

theorem generateFiles_again_passStore : generateFiles passStore bothNextToSource ⟨.slash, ["a.py"]⟩ "a.py" =
      (passAfter passText, ⟨passNotes, .ok passPaths⟩) ∧
    (∀ p, IsRead passNotes p → (passAfter passText).read p = passStore.read p) ∧
    (generateFiles (passAfter passText) bothNextToSource ⟨.slash, ["a.py"]⟩ "a.py").1 = passAfter passText ∧
    (generateFiles (passAfter passText) bothNextToSource ⟨.slash, ["a.py"]⟩ "a.py").2.result = .ok passPaths := by
  have hshadow : Library.NoneShadowed passNotes (libraryRoot bothNextToSource ⟨.slash, ["a.py"]⟩) passStore
      (passAfter passText) := by
    intro names path earlier later hn
    simp [passNotes, passPaths] at hn
  obtain ⟨files, -, -, hagain⟩ := generateFiles_again passStore (passAfter passText) bothNextToSource
    ⟨.slash, ["a.py"]⟩ "a.py" passNotes passPaths generateFiles_passStore
  have hread : ∀ p, IsRead passNotes p → (passAfter passText).read p = passStore.read p := fun _ => read_passAfter _
  exact ⟨generateFiles_passStore, hread, (hagain hread hshadow).2⟩

def blockingNextToSource : Options := ⟨.blockingOnly, none, none, none, ⟨.slash, []⟩⟩

/-- The source is called like the variant that is generated from it. -/
def namesake : FilePath := ⟨.slash, ["blocking.py"]⟩

set_option maxRecDepth 4096 in
theorem loadRoot_namesake {store : Store} {text : String} {body : List Stmt}
    (hread : store.read namesake = .ok text.toUTF8) (hfold : Text.foldNewlines text.toList = text.toList)
    (hbody : readSource "/blocking.py" text = .ok body) :
    loadRoot store namesake = .ok ⟨"blocking", namesake, body⟩ := by
  have hname : Text.isIdentifier "blocking".toList = true := by decide +kernel
  have hsuffix : namesake.suffix = Library.sourceSuffix := by decide +kernel
  have hstem : namesake.stem = "blocking" := by decide +kernel
  exact loadRoot_of_file hread hsuffix hstem hname hfold hbody

theorem generate_namesake {store : Store} {text : String} {body : List Stmt} {ks : List Note}
    {trees : List (Variant × Tree)} (hread : store.read namesake = .ok text.toUTF8)
    (hfold : Text.foldNewlines text.toList = text.toList) (hbody : readSource "/blocking.py" text = .ok body)
    (htrees : variantTrees blockingNextToSource ⟨store, ⟨.slash, []⟩⟩ ⟨"blocking", namesake, body⟩ [.blocking] =
      ⟨ks, .ok trees⟩) :
    (generate store blockingNextToSource namesake).Yields (.generating [.blocking] namesake ⟨.slash, []⟩ :: ks)
      trees :=
  generate_yields_iff.2 ⟨_, ks, loadRoot_namesake hread hfold hbody, htrees, rfl⟩

theorem render_namesake {store : Store} {text : String} {body : List Stmt} {ks : List Note}
    {trees : List (Variant × Tree)} {files : FileTexts} (hread : store.read namesake = .ok text.toUTF8)
    (hfold : Text.foldNewlines text.toList = text.toList) (hbody : readSource "/blocking.py" text = .ok body)
    (htrees : variantTrees blockingNextToSource ⟨store, ⟨.slash, []⟩⟩ ⟨"blocking", namesake, body⟩ [.blocking] =
      ⟨ks, .ok trees⟩) (hfiles : filesOf "blocking.py" trees = .ok files) :
    (render store blockingNextToSource namesake "blocking.py").Yields
      (.generating [.blocking] namesake ⟨.slash, []⟩ :: ks) files :=
  render_yields_iff.2 ⟨trees, generate_namesake hread hfold hbody htrees, hfiles⟩

def namesakeHeader : String := "# AUTO-GENERATED by python-amphi from blocking.py. DO NOT EDIT.\n"

def namesakeStore (text : String) : Store := ⟨[(["blocking.py"], .file text.toUTF8)]⟩

theorem write_namesakeStore (text text' : String) :
    write (namesakeStore text) ⟨.slash, []⟩ [(⟨.relative, ["blocking.py"]⟩, text')] =
      (namesakeStore text', ⟨[.wrote namesake], .ok [namesake]⟩) := by cbv

theorem read_namesakeStore (text : String) : (namesakeStore text).read namesake = .ok text.toUTF8 := by cbv

def namesakeNotes : List Note := [.generating [.blocking] namesake ⟨.slash, []⟩, .wrote namesake]

set_option maxRecDepth 4096 in
theorem generateFiles_namesakeStore :
    generateFiles (namesakeStore "pass\n") blockingNextToSource namesake "blocking.py" =
      (namesakeStore (namesakeHeader ++ "pass\n"), ⟨namesakeNotes, .ok [namesake]⟩) := by
  have hreal : (namesakeStore "pass\n").realPath namesake = .ok namesake := by cbv
  have hfiles : filesOf "blocking.py" [(.blocking, RootModule.tree [passAt] "blocking")] =
      .ok [(⟨.relative, ["blocking.py"]⟩, namesakeHeader ++ "pass\n")] := eq_ok_of_toOption (by decide +kernel)
  exact generateFiles_of_yields (render_namesake (read_namesakeStore _) (by decide) (readSource_pass _)
    (variantTrees_pass hreal _) hfiles) (write_namesakeStore ..)

/-- A module in a package file, for which a plain file is generated that is found first from then on. -/
def packageStore : Store :=
  ⟨[(["blocking.py"], .file "# amphi-mod: m\n".toUTF8), (["blocking"], .directory), (["blocking", "m"], .directory),
    (["blocking", "m", "__init__.py"], .file "pass\n".toUTF8)]⟩

/-- The files of the package, given their texts. -/
def packageFiles (module init : String) : FileTexts :=
  [(⟨.relative, ["blocking", "m.py"]⟩, module), (⟨.relative, ["blocking", "__init__.py"]⟩, init)]

def packageAfter (module init : String) : Store :=
  ⟨packageStore.entries ++ [(["blocking", "m.py"], .file module.toUTF8),
    (["blocking", "__init__.py"], .file init.toUTF8)]⟩

def packagePath : FilePath := ⟨.slash, ["blocking", "m", "__init__.py"]⟩

def plainPath : FilePath := ⟨.slash, ["blocking", "m.py"]⟩

def packagePaths : List FilePath := [plainPath, ⟨.slash, ["blocking", "__init__.py"]⟩]

def packageNotes : List Note :=
  [.generating [.blocking] namesake ⟨.slash, []⟩, .resolved ["blocking", "m"] packagePath] ++ packagePaths.map .wrote

section

variable (module init module' init' : String)

theorem write_packageStore : write packageStore ⟨.slash, []⟩ (packageFiles module init) =
    (packageAfter module init, ⟨packagePaths.map .wrote, .ok packagePaths⟩) := by cbv

theorem write_packageAfter : write (packageAfter module init) ⟨.slash, []⟩ (packageFiles module' init') =
    (packageAfter module' init', ⟨packagePaths.map .wrote, .ok packagePaths⟩) := by cbv

theorem read_namesake : (packageAfter module init).read namesake = .ok "# amphi-mod: m\n".toUTF8 := by cbv

theorem read_plainPath : (packageAfter module init).read plainPath = .ok module.toUTF8 := by cbv

theorem realPath_namesake : (packageAfter module init).realPath namesake = .ok namesake := by cbv

theorem realPath_plainPath : (packageAfter module init).realPath plainPath = .ok plainPath := by cbv

theorem locate_packageAfter :
    Library.locate ⟨packageAfter module init, ⟨.slash, []⟩⟩ ["blocking", "m"] none = .ok plainPath := by cbv

theorem read_packageAfter {p : FilePath} (hp : IsRead packageNotes p) :
    (packageAfter module init).read p = packageStore.read p := by
  have hcases : p = namesake ∨ p = packagePath := by
    simpa [IsRead, packageNotes, packagePaths, Note.file?, eq_comm] using hp
  rcases hcases with rfl | rfl <;> cbv

end

theorem packageAfter_inj {module module' init : String} (h : packageAfter module init = packageAfter module' init) :
    module.toUTF8 = module'.toUTF8 := by
  simpa [packageAfter] using h

/-- The module that is declared, with a body. -/
def declaredM (body : List Stmt) : Stmt := .block ⟨⟨some 1, some 0, some 1, some 14⟩, []⟩ (.module_ "m") body

theorem readSource_declaredM (file : String) : readSource file "# amphi-mod: m\n" = .ok [declaredM []] := by
  have hparse : Grammar.parse "# amphi-mod: m\n".toList = some [] := by decide +kernel
  have hscan : Comments.scan "# amphi-mod: m\n".toList =
      .ok [⟨"# amphi-mod: m", false, ⟨some 1, some 0, some 1, some 14⟩⟩] := by decide +kernel
  have hattach : Comments.attach "# amphi-mod: m\n".toList
      [⟨"# amphi-mod: m", false, ⟨some 1, some 0, some 1, some 14⟩⟩] [] =
        .ok [.comment ⟨"# amphi-mod: m", false, ⟨some 1, some 0, some 1, some 14⟩⟩] := by cbv
  exact readSource_of_readAnnotated (readAnnotated_of_parse _ (by decide) hparse hscan hattach) (by decide +kernel)

def blockingConversion : Conversion := ⟨.blocking, "blocking", none⟩

/-- The tree with the module filled in from the file that it is found in. -/
theorem variantTrees_package {store : Store} {path : FilePath} {loaded : List Stmt}
    (hroot : store.realPath namesake = .ok namesake) (hpath : store.realPath path = .ok path) (hne : path ≠ namesake)
    (hlocate : Library.locate ⟨store, ⟨.slash, []⟩⟩ ["blocking", "m"] none = .ok path)
    (hload : Library.load store path "m" = .ok loaded)
    (hplain : ∀ load around, blockingConversion.tailorStmts load around loaded = ⟨[], .ok loaded⟩) :
    variantTrees blockingNextToSource ⟨store, ⟨.slash, []⟩⟩ ⟨"blocking", namesake, [declaredM []]⟩ [.blocking] =
      ⟨[.resolved ["blocking", "m"] path],
        .ok [(.blocking, (RootModule.tree [declaredM loaded] "blocking").finalize.blocking)]⟩ := by
  have hfirst : Library.enter store [] namesake "blocking" = .ok [(namesake, "blocking")] := by
    simp only [Library.enter, hroot, List.lookup, List.nil_append]
  have henter : Library.enter store [(namesake, "blocking")] path "m" = .ok [(namesake, "blocking"), (path, "m")] := by
    simp only [Library.enter, hpath, List.lookup, beq_eq_false_iff_ne.2 hne]
    rfl
  have hmodule : (blockingConversion.loader (some ⟨store, ⟨.slash, []⟩⟩)
      ⟨["blocking", "m"], some namesake.text, [(namesake, "blocking")]⟩ "m" none (some 1)).Yields
        [.resolved ["blocking", "m"] path] loaded :=
    Conversion.fromLibrary_yields_iff.2 ⟨path, _, loaded, [], hlocate, henter, hload, hplain _ _, rfl⟩
  have hbody : (blockingConversion.tailorStmts (blockingConversion.loader (some ⟨store, ⟨.slash, []⟩⟩))
      ⟨["blocking"], some namesake.text, [(namesake, "blocking")]⟩ [declaredM []]).Yields
        [.resolved ["blocking", "m"] path] [declaredM loaded] :=
    bind_bind_pure_yields_iff.2 ⟨_, [declaredM loaded], [], [], bind_pure_yields_iff.2 ⟨loaded, hmodule, rfl⟩,
      rfl, (List.append_nil _).symm, rfl⟩
  have hconvert : (blockingConversion.convert (some ⟨store, ⟨.slash, []⟩⟩) (some namesake)
      (RootModule.tree [declaredM []] "blocking")).Yields [.resolved ["blocking", "m"] path]
        (RootModule.tree [declaredM loaded] "blocking").finalize :=
    Conversion.convert_yields_iff.2 ⟨_, _, hfirst, hbody, rfl⟩
  exact bind_bind_pure_yields_iff.2 ⟨_, _, [], [], bind_pure_yields_iff.2 ⟨_, hconvert, rfl⟩, rfl,
    (List.append_nil _).symm, rfl⟩

set_option maxRecDepth 4096 in
theorem generateFiles_packageStore : generateFiles packageStore blockingNextToSource namesake "blocking.py" =
    (packageAfter (namesakeHeader ++ "pass\n") (namesakeHeader ++ "from . import m\n"),
      ⟨packageNotes, .ok packagePaths⟩) := by
  have hread : packageStore.read namesake = .ok "# amphi-mod: m\n".toUTF8 := by cbv
  have hpackage : packageStore.read packagePath = .ok "pass\n".toUTF8 := by cbv
  have hroot : packageStore.realPath namesake = .ok namesake := by cbv
  have hpath : packageStore.realPath packagePath = .ok packagePath := by cbv
  have hlocate : Library.locate ⟨packageStore, ⟨.slash, []⟩⟩ ["blocking", "m"] none = .ok packagePath := by cbv
  have hload : Library.load packageStore packagePath "m" = .ok [passAt] :=
    (load_of_read "m" hpackage (by decide)).trans (readSource_pass _)
  have htrees := variantTrees_package hroot hpath (by decide) hlocate hload fun _ _ => rfl
  have hfiles : filesOf "blocking.py" [(.blocking, RootModule.tree [declaredM [passAt]] "blocking")] =
      .ok (packageFiles (namesakeHeader ++ "pass\n") (namesakeHeader ++ "from . import m\n")) :=
    eq_ok_of_toOption (by decide +kernel)
  exact generateFiles_of_yields (render_namesake hread (by decide) (readSource_declaredM _) htrees hfiles)
    (write_packageStore ..)

def headerRemark : Comment :=
  ⟨"# AUTO-GENERATED by python-amphi from blocking.py. DO NOT EDIT.", false, ⟨some 1, some 0, some 1, some 63⟩⟩

/-- What is read from the file that was generated: the header is a comment like any other. -/
def generatedM : List Stmt := [.comment headerRemark, .pass ⟨some 2, some 0, some 2, some 4⟩]

set_option maxRecDepth 4096 in
theorem readSource_generatedM (file : String) : readSource file (namesakeHeader ++ "pass\n") = .ok generatedM := by
  have hparse : Grammar.parse (namesakeHeader ++ "pass\n").toList = some [.pass ⟨some 2, some 0, some 2, some 4⟩] := by
    decide +kernel
  have hscan : Comments.scan (namesakeHeader ++ "pass\n").toList = .ok [headerRemark] := by decide +kernel
  have hattach : Comments.attach (namesakeHeader ++ "pass\n").toList [headerRemark]
      [.pass ⟨some 2, some 0, some 2, some 4⟩] = .ok generatedM := by cbv
  exact readSource_of_readAnnotated (readAnnotated_of_parse _ (by decide) hparse hscan hattach) (by decide +kernel)

set_option maxRecDepth 4096 in
theorem generateFiles_packageAfter (init : String) :
    (generateFiles (packageAfter (namesakeHeader ++ "pass\n") init) blockingNextToSource namesake "blocking.py").1 =
      packageAfter (namesakeHeader ++ namesakeHeader ++ "pass\n") (namesakeHeader ++ "from . import m\n") := by
  have hload : Library.load (packageAfter (namesakeHeader ++ "pass\n") init) plainPath "m" = .ok generatedM :=
    (load_of_read "m" (read_plainPath ..) (by decide +kernel)).trans (readSource_generatedM _)
  have htrees := variantTrees_package (realPath_namesake ..) (realPath_plainPath ..) (by decide)
    (locate_packageAfter ..) hload fun _ _ => rfl
  have hfiles : filesOf "blocking.py" [(.blocking, RootModule.tree [declaredM generatedM] "blocking")] =
      .ok (packageFiles (namesakeHeader ++ namesakeHeader ++ "pass\n") (namesakeHeader ++ "from . import m\n")) :=
    eq_ok_of_toOption (by decide +kernel)
  exact congrArg Prod.fst (generateFiles_of_yields
    (render_namesake (read_namesake ..) (by decide) (readSource_declaredM _) htrees hfiles) (write_packageAfter ..))

/-- A file that was read can be written over; and even if none is, a second generation can find other files. -/
theorem not_generateFiles_again :
    (¬ ∀ (store after : Store) (o : Options) (source : FilePath) (shown : String) (notes : List Note)
      (paths : List FilePath), generateFiles store o source shown = (after, ⟨notes, .ok paths⟩) →
        ∀ p, IsRead notes p → after.read p = store.read p) ∧
    ¬ ∀ (store after : Store) (o : Options) (source : FilePath) (shown : String) (notes : List Note)
      (paths : List FilePath), generateFiles store o source shown = (after, ⟨notes, .ok paths⟩) →
        (∀ p, IsRead notes p → after.read p = store.read p) → (generateFiles after o source shown).1 = after := by
  constructor
  · intro h
    have hsame := h _ _ _ _ _ _ _ generateFiles_namesakeStore namesake ⟨_, List.mem_cons_self .., rfl⟩
    rw [read_namesakeStore, read_namesakeStore] at hsame
    exact absurd (congrArg ByteArray.size (Except.ok.inj hsame)) (by decide +kernel)
  · intro h
    have hsame := h _ _ _ _ _ _ _ generateFiles_packageStore fun p hp => read_packageAfter _ _ hp
    rw [generateFiles_packageAfter] at hsame
    exact absurd (congrArg ByteArray.size (packageAfter_inj hsame)) (by decide +kernel)

end TwinModule.Project
