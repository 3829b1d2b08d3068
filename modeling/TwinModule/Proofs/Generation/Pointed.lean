import TwinModule.Proofs.Conversion.Failing
import TwinModule.Proofs.Generation.Again
/-!
Where the complaints of a generation point to. A complaint that names a line names the file in which the line holds
the directive or the module that it is about, but for modules that have a body and a path at once: over those the file of the
root module is named, wherever they are declared.
-/
set_option autoImplicit false

namespace TwinModule.Project
open Traced Conversion

variable {store : Store} {o : Options} {lib : Library} {root : RootModule} {source : FilePath}

theorem ask_ne_complaint {p : FilePath} {r : Except PathProblem Bool} {what : Complaint} {file : Option String}
    {line : Option Nat} : ask p r ≠ .error (.complaint what file line) := by
  intro h
  obtain ⟨problem, -, h⟩ := mapError_eq_error_iff.1 h
  cases h

theorem line_of_originOf {what : Complaint} {file : Option String} {line : Option Nat}
    (h : originOf store source = .error (.complaint what file line)) : line = none := by
  have hplain : (ask source (store.isFile source) >>= fun isFile =>
      if (isFile && source.suffix == Library.sourceSuffix) = true then pure source
      else throw (.complaint (.notAModule source.text) (some source.text) none)) =
        (.error (.complaint what file line) : Except Failure FilePath) → line = none := by
    intro h
    rcases bind_eq_error_iff.1 h with h | ⟨isFile, -, h⟩
    · exact absurd h ask_ne_complaint
    · split at h
      · cases h
      · cases h
        rfl
  rcases bind_eq_error_iff.1 h with h | ⟨isDirectory, -, h⟩
  · exact absurd h ask_ne_complaint
  · split at h
    · rcases bind_eq_error_iff.1 h with h | ⟨isFile, -, h⟩
      · exact absurd h ask_ne_complaint
      · split at h
        · cases h
        · exact hplain h
    · exact hplain h

/-- A complaint over the root module that names a line points into its file. -/
theorem points_of_loadRoot {what : Complaint} {file : Option String} {line : Nat}
    (h : loadRoot store source = .error (.complaint what file (some line))) :
    ∃ origin text, originOf store source = .ok origin ∧ Library.Holds store origin text ∧ what.PointsInto text line ∧
      what.isBodyAndPath = false ∧ file = some origin.text := by
  rcases bind_eq_error_iff.1 h with horigin | ⟨origin, horigin, h⟩
  · cases line_of_originOf horigin
  · dsimp only at h
    split at h
    · rcases bind_eq_error_iff.1 h with h | ⟨_, h, -⟩ <;> cases h
    · rcases bind_eq_error_iff.1 h with hload | ⟨body, -, h⟩
      · obtain ⟨text, hholds, hpoints, hwhat, hfile⟩ := points_of_load hload
        exact ⟨origin, text, horigin, hholds, hpoints, hwhat, hfile⟩
      · cases h

theorem ignoresEarlier_pointsFrom {lib : Option Library} {origin : FilePath} {text : String} :
    IgnoresEarlier (PointsFrom lib origin text) := by
  intro ms ks f h what file line hf
  obtain ⟨path, text', hseen, hpoints, hfile⟩ := h what file line hf
  refine ⟨path, text', hseen.imp_right fun ⟨⟨names, hn⟩, hholds⟩ => ⟨⟨names, ?_⟩, hholds⟩, hpoints, hfile⟩
  exact List.mem_append_right ms hn

theorem failsAs_variantTrees {text : String} (hread : readSource root.origin.text text = .ok root.body)
    (vs : List Variant) : FailsAs (PointsFrom (some lib) root.origin text) (variantTrees o lib root vs) := by
  induction vs with
  | nil => nofun
  | cons v vs ih =>
    have hconvert : FailsAs (PointsFrom (some lib) root.origin text) ((⟨v, root.name, o.package⟩ : Conversion).convert
        (some lib) (some root.origin) (RootModule.tree root.body v.name)) := failsAs_convert hread
    have hfirst : FailsAs (PointsFrom (some lib) root.origin text) (variantTree o lib root v) :=
      hconvert.seq ignoresEarlier_pointsFrom fun _ => nofun
    exact hfirst.seq ignoresEarlier_pointsFrom fun _ => ih.seq ignoresEarlier_pointsFrom fun _ => nofun

theorem exists_seen_of_generate {what : Complaint} {file : Option String} {line : Nat}
    (h : (generate store o source).result = .error (.complaint what file (some line))) :
    ∃ origin text path text', originOf store (o.cwd.join source) = .ok origin ∧ Library.Holds store origin text ∧
      SeenFrom (some ⟨store, libraryRoot o source⟩) origin text (generate store o source).notes path text' ∧
      what.PointsInto text' line ∧ file = some (if what.isBodyAndPath then origin.text else path.text) := by
  cases hroot : loadRoot store (o.cwd.join source) with
  | error f =>
    have hfail : (generate store o source).result = .error f := by simp only [generate, hroot, bind_result]; rfl
    obtain rfl : f = .complaint what file (some line) := Except.error.inj (hfail.symm.trans h)
    obtain ⟨origin, text, horigin, hholds, hpoints, hwhat, hfile⟩ := points_of_loadRoot hroot
    exact ⟨origin, text, origin, text, horigin, hholds, .inl ⟨rfl, rfl⟩, hpoints, by rw [hfile, ite_self]⟩
  | ok root =>
    obtain ⟨origin, body, horigin, -, hload, rfl⟩ := loadRoot_eq_ok_iff.1 hroot
    obtain ⟨text, hholds, hread⟩ := exists_readSource_of_load hload
    have hfails : FailsAs (PointsFrom (some ⟨store, libraryRoot o source⟩) origin text) (generate store o source) := by
      rw [generate_of_loadRoot hroot]
      exact (failsAs_note _).seq ignoresEarlier_pointsFrom fun _ => failsAs_variantTrees hread _
    obtain ⟨path, text', hseen, hpoints, hfile⟩ := hfails _ h what file line rfl
    exact ⟨origin, text, path, text', horigin, hholds, hseen, hpoints, hfile⟩

/-- A complaint of a conversion or of a generation that names a line points into the file of the root module or into one
that was found for a module in it, at whatever depth: the line holds the directive, or the declaration of the module,
that the complaint is about. The file it names is that file, except for a module that has a body and a path: there it is
always the file of the root module. -/
theorem complaint_points (what : Complaint) (file : Option String) (line : Nat) :
    (∀ (c : Conversion) (lib : Option Library) (origin : FilePath) (text : String) (t : Tree),
      readSource origin.text text = .ok t.body →
      (c.convert lib (some origin) t).result = .error (.complaint what file (some line)) →
      ∃ path text', SeenFrom lib origin text (c.convert lib (some origin) t).notes path text' ∧
        what.PointsInto text' line ∧ file = some (if what.isBodyAndPath then origin.text else path.text)) ∧
    ∀ (store : Store) (o : Options) (source : FilePath),
      (generate store o source).result = .error (.complaint what file (some line)) →
      ∃ origin text path text', originOf store (o.cwd.join source) = .ok origin ∧ Library.Holds store origin text ∧
        SeenFrom (some ⟨store, libraryRoot o source⟩) origin text (generate store o source).notes path text' ∧
        what.PointsInto text' line ∧ file = some (if what.isBodyAndPath then origin.text else path.text) :=
  ⟨fun _ _ _ _ _ hread h => failsAs_convert hread _ h what file line rfl,
    fun _ _ _ h => exists_seen_of_generate h⟩

theorem originOf_namesake (text : String) : originOf (packageAfter text "") namesake = .ok namesake := by
  have hroot := loadRoot_namesake (read_namesake text "") (by decide) (readSource_declaredM _)
  obtain ⟨origin, body, horigin, -, -, he⟩ := loadRoot_eq_ok_iff.1 hroot
  cases he
  exact horigin

/-- A run that fails over a module that is declared in the root module and found next to it. -/
theorem generate_declaredM {text : String} {f : Failure}
    (htrees : variantTrees blockingNextToSource ⟨packageAfter text "", ⟨.slash, []⟩⟩
      ⟨"blocking", namesake, [declaredM []]⟩ [.blocking] = ⟨[.resolved ["blocking", "m"] plainPath], .error f⟩) :
    generate (packageAfter text "") blockingNextToSource namesake =
      ⟨[.generating [.blocking] namesake ⟨.slash, []⟩, .resolved ["blocking", "m"] plainPath], .error f⟩ := by
  have hroot : loadRoot (packageAfter text "") (blockingNextToSource.cwd.join namesake) =
      .ok ⟨"blocking", namesake, [declaredM []]⟩ :=
    loadRoot_namesake (read_namesake ..) (by decide) (readSource_declaredM _)
  have hrest : variantTrees blockingNextToSource ⟨packageAfter text "", libraryRoot blockingNextToSource namesake⟩
      ⟨"blocking", namesake, [declaredM []]⟩ blockingNextToSource.mode.variants = _ := htrees
  rw [generate_of_loadRoot hroot, hrest]
  rfl

/-- A file with a directive for a variant that there is not. -/
def syncText : String := "# amphi: sync\npass\n"

set_option maxRecDepth 4096 in
theorem variantTrees_syncText : variantTrees blockingNextToSource ⟨packageAfter syncText "", ⟨.slash, []⟩⟩
    ⟨"blocking", namesake, [declaredM []]⟩ [.blocking] =
      ⟨[.resolved ["blocking", "m"] plainPath],
        .error (.complaint (.unknownVariant "sync") (some "/blocking/m.py") (some 1))⟩ := by cbv

theorem complaint_points_syncText :
    ((blockingConversion.convert none (some namesake) (RootModule.tree [declaredM []] "blocking")).result =
        .error (.complaint (.noSourceRoot "m") (some "/blocking.py") (some 1)) ∧
      ∃ path text', SeenFrom none namesake "# amphi-mod: m\n"
          (blockingConversion.convert none (some namesake) (RootModule.tree [declaredM []] "blocking")).notes path text' ∧
        (Complaint.noSourceRoot "m").PointsInto text' 1 ∧ some "/blocking.py" = some path.text) ∧
    ((generate (packageAfter syncText "") blockingNextToSource namesake).result =
        .error (.complaint (.unknownVariant "sync") (some "/blocking/m.py") (some 1)) ∧
      ∃ origin text path text', originOf (packageAfter syncText "") namesake = .ok origin ∧
        Library.Holds (packageAfter syncText "") origin text ∧
        SeenFrom (some ⟨packageAfter syncText "", libraryRoot blockingNextToSource namesake⟩) origin text
          (generate (packageAfter syncText "") blockingNextToSource namesake).notes path text' ∧
        (Complaint.unknownVariant "sync").PointsInto text' 1 ∧ some "/blocking/m.py" = some path.text) := by
  have hconvert : (blockingConversion.convert none (some namesake) (RootModule.tree [declaredM []] "blocking")).result =
      .error (.complaint (.noSourceRoot "m") (some "/blocking.py") (some 1)) := by cbv
  have hgenerate : (generate (packageAfter syncText "") blockingNextToSource namesake).result =
      .error (.complaint (.unknownVariant "sync") (some "/blocking/m.py") (some 1)) := by
    rw [generate_declaredM variantTrees_syncText]
  exact ⟨⟨hconvert, (complaint_points ..).1 _ _ _ _ _ (readSource_declaredM _) hconvert⟩,
    hgenerate, (complaint_points ..).2 _ _ _ hgenerate⟩

/-- A file in which a module has a body and a path. -/
def bodyAndPathText : String := "\n\n# amphi-path: 'x'\n# amphi-begin: n\ny\n# amphi-end: n\n"

set_option maxRecDepth 4096 in
theorem variantTrees_bodyAndPath : variantTrees blockingNextToSource ⟨packageAfter bodyAndPathText "", ⟨.slash, []⟩⟩
    ⟨"blocking", namesake, [declaredM []]⟩ [.blocking] =
      ⟨[.resolved ["blocking", "m"] plainPath],
        .error (.complaint (.bodyAndPath "n" "x") (some "/blocking.py") (some 4))⟩ := by cbv

theorem eq_of_holds_namesake {text module : String} (h : Library.Holds (packageAfter module "") namesake text) :
    text = "# amphi-mod: m\n" := by
  obtain ⟨bytes, hbytes, htext⟩ := h
  obtain rfl := Except.ok.inj ((read_namesake module "").symm.trans hbytes)
  have hread : Library.readText "# amphi-mod: m\n".toUTF8 = .ok "# amphi-mod: m\n" := by cbv
  exact Except.ok.inj (htext.symm.trans hread)

/-- Over a module that has a body and a path and is declared in another file than the root module, the file of the root
module is named, which does not even have the line. -/
theorem not_complaint_points : ¬ ∀ (store : Store) (o : Options) (source : FilePath) (what : Complaint)
    (file : Option String) (line : Nat),
      (generate store o source).result = .error (.complaint what file (some line)) →
      ∃ origin text path text', originOf store (o.cwd.join source) = .ok origin ∧ Library.Holds store origin text ∧
        SeenFrom (some ⟨store, libraryRoot o source⟩) origin text (generate store o source).notes path text' ∧
        what.PointsInto text' line ∧ file = some path.text := by
  intro h
  have hgenerate := generate_declaredM variantTrees_bodyAndPath
  obtain ⟨origin, text, path, text', horigin, hholds, hseen, hpoints, hfile⟩ :=
    h _ _ _ _ _ _ (congrArg Traced.result hgenerate)
  rw [hgenerate] at hseen
  rcases hseen with ⟨rfl, rfl⟩ | ⟨⟨names, hn⟩, -⟩
  · obtain rfl : path = namesake := Except.ok.inj (horigin.symm.trans (originOf_namesake _))
    obtain rfl := eq_of_holds_namesake hholds
    obtain ⟨c, l, -, hl, -⟩ := hpoints
    have hnone : (Text.allLines "# amphi-mod: m\n".toList)[4 - 1]? = none := by cbv
    rw [hnone] at hl
    cases hl
  · obtain ⟨-, rfl⟩ : names = ["blocking", "m"] ∧ path = plainPath := by simpa using hn
    exact absurd hfile (by decide +kernel)

end TwinModule.Project
