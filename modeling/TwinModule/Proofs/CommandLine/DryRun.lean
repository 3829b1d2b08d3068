import Mathlib
import TwinModule.CommandLine.Run
import TwinModule.Proofs.CommandLine.Arguments
import TwinModule.Proofs.Generation.Apart
import TwinModule.Proofs.Layout.Change
/-!
A dry run tells what the run itself will do. Every complaint comes before the first file is written, and what is written
are the files that the dry run prints.
-/
set_option autoImplicit false

namespace TwinModule

namespace Project

variable {store : Store} {o : Options} {source : FilePath} {shown : String}

theorem plain_of_filesOf {trees : List (Variant × Tree)} {texts : FileTexts}
    (htrees : ∀ v t, (v, t) ∈ trees → ∃ info body, t = .module_ info v.name body ∧ stmtsModules IsNamed body)
    (h : filesOf shown trees = .ok texts) : texts.Plain := by
  induction trees generalizing texts with
  | nil =>
    cases h
    exact ⟨List.nodup_nil, by simp, by simp⟩
  | cons vt trees ih =>
    obtain ⟨v, t⟩ := vt
    simp only [filesOf, bind_eq_ok_iff] at h
    obtain ⟨first, hfirst, rest, hrest, h⟩ := h
    cases h
    obtain ⟨info, body, rfl, hnamed⟩ := htrees v t (List.mem_cons_self ..)
    have hothers := ih (fun v t ht => htrees v t (List.mem_cons_of_mem _ ht)) hrest
    exact Layout.plain_update (Layout.plain_of_files (isIdentifier_variantName v) hnamed hfirst) hothers

theorem plain_of_render {texts : FileTexts} (h : (render store o source shown).result = .ok texts) : texts.Plain := by
  obtain ⟨trees, htrees, hfiles⟩ := render_yields_iff.1 (Traced.yields_of_result h)
  exact plain_of_filesOf (fun v t ht => exists_module_of_generate htrees.result ht) hfiles

end Project

namespace CommandLine

open Layout

variable {store : Store} {cwd source : FilePath} {a : Arguments} {o : Options} {verbose : Bool} {work : Traced String}

theorem store_conclude (verbose : Bool) (store : Store) (work : Traced String) :
    (conclude verbose store work).store = store := by
  unfold conclude
  split <;> rfl

theorem exit_eq_zero_iff : (conclude verbose store work).exit = .ok 0 ↔ ∃ output, work.result = .ok output := by
  unfold conclude
  split <;> simp_all

theorem exit_eq_one_iff :
    (conclude verbose store work).exit = .ok 1 ↔ ∃ what file line, work.result = .error (.complaint what file line) := by
  unfold conclude
  split <;> simp_all

/-- A complaint is the last line of what is logged. -/
theorem diagnostics_of_exit_one (h : (conclude verbose store work).exit = .ok 1) :
    ∃ log message, (conclude verbose store work).diagnostics = log ++ "error: " ++ message ++ "\n" := by
  obtain ⟨what, file, line, hwork⟩ := exit_eq_one_iff.1 h
  simp only [conclude, hwork]
  exact ⟨_, _, rfl⟩

theorem bind_of_error {α β : Type} {x : Traced α} {f : Failure} (h : x.result = .error f) (g : α → Traced β) :
    x >>= g = ⟨x.notes, .error f⟩ := by
  obtain ⟨ns, r⟩ := x
  obtain rfl : r = .error f := h
  rfl

/-- Where the files go that the arguments ask for. -/
def Arguments.directory (a : Arguments) (cwd : FilePath) : FilePath :=
  match a.output with
  | some directory => cwd.join (FilePath.read directory)
  | .none => (cwd.join (FilePath.read (a.source.getD ""))).parent

theorem options_of_make {mode : Mode} {root directory : Option FilePath} {package : Option String}
    (h : Options.make store cwd mode root directory package = .ok o) : o.outputDir = directory ∧ o.cwd = cwd := by
  unfold Options.make at h
  cases root
  all_goals
    obtain ⟨sourceRoot, -, h⟩ := bind_eq_ok_iff.1 h
    cases package with
    | none =>
      cases h
      exact ⟨rfl, rfl⟩
    | some package =>
      obtain ⟨_, -, h⟩ := bind_eq_ok_iff.1 h
      cases h
      exact ⟨rfl, rfl⟩

theorem outputDirectory_of_options (h : optionsOfArguments store cwd a = .ok o) :
    Project.outputDirectory o (FilePath.read (a.source.getD "")) = a.directory cwd := by
  obtain ⟨mode, -, h⟩ := bind_eq_ok_iff.1 h
  obtain ⟨houtput, rfl⟩ := options_of_make h
  unfold Project.outputDirectory Arguments.directory
  rw [houtput]
  cases a.output <;> rfl

/-- The files that are laid out for the arguments. -/
def rendered (store : Store) (cwd : FilePath) (a : Arguments) : Except Failure FileTexts := do
  let o ← optionsOfArguments store cwd a
  let source := FilePath.read (a.source.getD "")
  (Project.render store o source source.text).result

/-- What a dry run has to do with the run itself, given what is laid out for both: it changes nothing and prints what is
laid out, the two complain alike, and it is by the files laid out that the store differs in the end. -/
structure Predicts (store : Store) (directory : FilePath) (laidOut : Except Failure FileTexts) (real dry : Outcome) :
    Prop where
  untouched : dry.store = store
  printed : ∀ files, laidOut = .ok files → dry.exit = .ok 0 ∧ dry.output = filesText files
  complains : real.exit = .ok 1 ↔ dry.exit = .ok 1
  alike : real.exit = .ok 1 → real = dry ∧ ∃ log message, dry.diagnostics = log ++ "error: " ++ message ++ "\n"
  writes : real.exit = .ok 0 → ∃ files, laidOut = .ok files ∧ DiffersBy store directory files real.store

section

variable {directory : FilePath} {laidOut : Except Failure FileTexts}

/-- What is refused is refused in the same way. -/
theorem predicts_of_error {f : Failure} (hlaid : laidOut = .error f) (h : work.result = .error f) :
    Predicts store directory laidOut (conclude verbose store work) (conclude verbose store work) where
  untouched := store_conclude ..
  printed files hfiles := by
    rw [hlaid] at hfiles
    cases hfiles
  complains := Iff.rfl
  alike hone := ⟨rfl, diagnostics_of_exit_one hone⟩
  writes hzero := by
    obtain ⟨output, hwork⟩ := exit_eq_zero_iff.1 hzero
    rw [h] at hwork
    cases hwork

theorem predicts_of_files {real dry : Outcome} {files : FileTexts} (hlaid : laidOut = .ok files)
    (hstore : dry.store = store) (hreal : real.exit ≠ .ok 1) (hdry : dry.exit = .ok 0)
    (hprinted : dry.output = filesText files)
    (hwrites : real.exit = .ok 0 → DiffersBy store directory files real.store) :
    Predicts store directory laidOut real dry where
  untouched := hstore
  printed files' hfiles := by
    rw [hlaid] at hfiles
    cases hfiles
    exact ⟨hdry, hprinted⟩
  complains := by simp [hreal, hdry]
  alike hone := absurd hone hreal
  writes hzero := ⟨files, hlaid, hwrites hzero⟩

/-- Once everything is laid out there is nothing to complain about any more. -/
theorem predicts_of_render {render : Traced FileTexts} {files : FileTexts} {ns : List Note}
    (hlaid : laidOut = .ok files) (hrender : render.result = .ok files) (hplain : files.Plain)
    (hfree : store.LinkFreeBelow directory) :
    Predicts store directory laidOut
      (conclude verbose (write store directory files).1 do
        let paths ← (⟨ns, (write store directory files).2.result⟩ : Traced (List FilePath))
        Traced.note (.generated paths.length source)
        return "")
      (conclude verbose store do return filesText (← render)) := by
  obtain ⟨ms, r⟩ := render
  obtain rfl : r = .ok files := hrender
  cases hwrite : (write store directory files).2.result with
  | error failure =>
    -- the failure is that of a path and no complaint
    obtain ⟨fault, rfl⟩ := exists_fault_of_write hwrite
    rw [bind_of_error rfl]
    refine predicts_of_files hlaid (store_conclude ..) ?_ rfl rfl fun hzero => ?_
    · simp [exit_eq_one_iff]
    · simp [exit_eq_zero_iff] at hzero
  | ok paths =>
    refine predicts_of_files hlaid (store_conclude ..) ?_ rfl rfl fun _ => ?_
    · simp [exit_eq_one_iff, Traced.note]
    · rw [store_conclude]
      exact differsBy_of_write hplain hfree hwrite

end

theorem predicts_perform (hreal : a.dryRun = false) (hfree : store.LinkFreeBelow (a.directory cwd)) :
    Predicts store (a.directory cwd) (rendered store cwd a) (perform store cwd a (FilePath.read (a.source.getD "")))
      (perform store cwd a.dry (FilePath.read (a.source.getD ""))) := by
  have hoptions : optionsOfArguments store cwd a.dry = optionsOfArguments store cwd a := rfl
  unfold perform rendered
  rw [hoptions]
  cases h : optionsOfArguments store cwd a with
  | error f => exact predicts_of_error rfl rfl
  | ok o =>
    have hdirectory := outputDirectory_of_options h
    generalize FilePath.read (a.source.getD "") = source at hdirectory ⊢
    simp only [hreal, Arguments.dry, Bool.false_eq_true, if_false, if_true]
    cases hrender : (Project.render store o source source.text).result with
    | error f =>
      rw [Project.generateFiles_of_render_error hrender, bind_of_error hrender, bind_of_error rfl]
      exact predicts_of_error hrender rfl
    | ok files =>
      rw [Project.generateFiles_of_render hrender, hdirectory]
      exact predicts_of_render hrender hrender (Project.plain_of_render hrender) hfree

/-- The dry run predicts the run. It is asked for with one argument more, and nothing else about the arguments changes;
if there are no links below the directory that the files go to, it changes nothing, complains exactly if the run
does, which then does nothing else, and prints the files by which the store differs after a run without a failure. -/
theorem dryRun_predicts (store : Store) (cwd : FilePath) (arguments dryArguments : List String) (a : Arguments)
    (harguments : read arguments = .ok (.run a)) (hreal : a.dryRun = false)
    (hdry : read dryArguments = .ok (.run { a with dryRun := true })) (hfree : store.LinkFreeBelow (a.directory cwd)) :
    read ("--dry-run" :: arguments) = .ok (.run { a with dryRun := true }) ∧
      Predicts store (a.directory cwd) (rendered store cwd a) (run store cwd arguments) (run store cwd dryArguments) := by
  constructor
  · rw [read_dryRun, harguments]
    rfl
  · unfold run
    rw [harguments, hdry]
    exact predicts_perform hreal hfree

/-- The arguments for both variants of a module next to it. -/
def bothOfA : Arguments := ⟨some "a.py", false, false, none, none, none, false, false⟩

theorem linkFreeBelow_passStore (directory : FilePath) : Project.passStore.LinkFreeBelow directory := by
  intro here _ below target hbelow hlink
  have hne : here ++ below ≠ [] := fun h => hbelow (List.append_eq_nil_iff.1 h).2
  rw [Store.find?_of_ne_nil hne] at hlink
  have hentry := Store.mem_of_lookup hlink
  simp [Project.passStore] at hentry

theorem exit_passStore : (run Project.passStore ⟨.slash, []⟩ ["a.py"]).exit = .ok 0 := by
  have harguments : read ["a.py"] = .ok (.run bothOfA) := by decide +kernel
  have hsource : FilePath.read (bothOfA.source.getD "") = ⟨.relative, ["a.py"]⟩ := by decide +kernel
  have hshown : (FilePath.mk .relative ["a.py"]).text = "a.py" := by decide +kernel
  have hoptions : optionsOfArguments Project.passStore ⟨.slash, []⟩ bothOfA = .ok Project.bothNextToSource := rfl
  have hgenerate : Project.generateFiles Project.passStore Project.bothNextToSource ⟨.relative, ["a.py"]⟩ "a.py" =
      (Project.passAfter Project.passText, ⟨Project.passNotes, .ok Project.passPaths⟩) :=
    Project.generateFiles_passStore
  have hreal : bothOfA.dryRun = false := rfl
  unfold run
  simp only [harguments, hsource, perform, hoptions, hreal, hshown, hgenerate, Bool.false_eq_true, if_false]
  rfl

theorem dryRun_predicts_passStore :
    (read ["a.py"] = .ok (.run bothOfA) ∧ bothOfA.dryRun = false ∧
      read ["a.py", "--dry-run"] = .ok (.run { bothOfA with dryRun := true }) ∧
      Project.passStore.LinkFreeBelow (bothOfA.directory ⟨.slash, []⟩)) ∧
    (run Project.passStore ⟨.slash, []⟩ ["a.py"]).exit = .ok 0 ∧
    Predicts Project.passStore (bothOfA.directory ⟨.slash, []⟩) (rendered Project.passStore ⟨.slash, []⟩ bothOfA)
      (run Project.passStore ⟨.slash, []⟩ ["a.py"]) (run Project.passStore ⟨.slash, []⟩ ["a.py", "--dry-run"]) := by
  have harguments : read ["a.py"] = .ok (.run bothOfA) := by decide +kernel
  have hdry : read ["a.py", "--dry-run"] = .ok (.run { bothOfA with dryRun := true }) := by decide +kernel
  have hfree := linkFreeBelow_passStore (bothOfA.directory ⟨.slash, []⟩)
  exact ⟨⟨harguments, rfl, hdry, hfree⟩, exit_passStore,
    (dryRun_predicts _ ⟨.slash, []⟩ _ _ _ harguments rfl hdry hfree).2⟩

end CommandLine

end TwinModule
