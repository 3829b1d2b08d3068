import Mathlib
import TwinModule.CommandLine.Arguments
/-!
The wish for a dry run among the arguments. Nothing else that is read from them depends on it.
-/
set_option autoImplicit false

namespace TwinModule.CommandLine

/-- The same arguments, but for a dry run. -/
def Arguments.dry (a : Arguments) : Arguments := { a with dryRun := true }

def Progress.dry (p : Progress) : Progress := { p with arguments := p.arguments.dry }

def Wish.dry : Wish → Wish
  | help => help
  | run a => run a.dry

/-- What is read is the same, but for a dry run. -/
def dryRead (r : Except UsageError Wish) : Except UsageError Wish := r.map Wish.dry

theorem act_dry (p : Progress) (o : Opt) (value : String) :
    act p.dry o value = (act p o value).map (Option.map Progress.dry) := by
  obtain ⟨a, extras⟩ := p
  cases o with
  | blockingOnly =>
    by_cases h : a.asyncOnly = true
    · simp [act, Progress.dry, Arguments.dry, h, Except.map]
    · simp [act, Progress.dry, Arguments.dry, h, Except.map]
  | asyncOnly =>
    by_cases h : a.blockingOnly = true
    · simp [act, Progress.dry, Arguments.dry, h, Except.map]
    · simp [act, Progress.dry, Arguments.dry, h, Except.map]
  | help | path | output | package | dryRun | verbose => rfl

theorem actAll_dry (p : Progress) (done : List (Opt × String)) :
    actAll p.dry done = (actAll p done).map (Option.map Progress.dry) := by
  induction done generalizing p with
  | nil => rfl
  | cons d done ih =>
    obtain ⟨o, value⟩ := d
    rw [actAll, actAll, act_dry]
    rcases act p o value with e | _ | p
    · rfl
    · rfl
    · exact ih p

theorem proceed_dry (p : Progress) (done : List (Opt × String)) {next : Progress → Except UsageError Wish}
    (h : ∀ p, next p.dry = dryRead (next p)) : proceed p.dry done next = dryRead (proceed p done next) := by
  rw [proceed, proceed, actAll_dry]
  rcases actAll p done with e | _ | p
  · rfl
  · rfl
  · exact h p

theorem takeSource_dry (p : Progress) (run : List Item) : takeSource p.dry run = (takeSource p run).dry := by
  obtain ⟨⟨source, blockingOnly, asyncOnly, path, output, package, dryRun, verbose⟩, extras⟩ := p
  simp only [takeSource, Progress.dry, Arguments.dry]
  cases source with
  | some source => rfl
  | none =>
    rcases skipDashes run with _ | ⟨_ | _ | _ | _, rest⟩
    all_goals rfl

theorem finish_dry (p : Progress) : finish p.dry = dryRead (finish p) := by
  obtain ⟨a, extras⟩ := p
  unfold finish
  by_cases hsource : a.source.isNone = true
  · simp [Progress.dry, Arguments.dry, hsource, dryRead, Except.map]
  · by_cases hextras : extras.isEmpty = true
    · simp [Progress.dry, Arguments.dry, hsource, hextras, dryRead, Except.map, Wish.dry]
    · simp [Progress.dry, Arguments.dry, hsource, hextras, dryRead, Except.map]

theorem readItems_dry (p : Progress) (run items : List Item) :
    readItems p.dry run items = dryRead (readItems p run items) := by
  fun_induction readItems p run items with
  | case1 p run => simp only [readItems, takeSource_dry, finish_dry]
  | case2 p run text rest p' ih =>
    simp only [readItems, takeSource_dry]
    exact ih
  | case3 p run text o name value rest e hoptions =>
    rw [readItems.eq_3 _ _ _ _ _ _ _ _ hoptions]
    rfl
  | case4 p run text o name value p' done rest hoptions ih =>
    rw [readItems.eq_4 _ _ _ _ _ _ _ _ hoptions, takeSource_dry]
    exact proceed_dry p' done ih
  | case5 p run text o name value p' done last word rest hoptions ih =>
    rw [readItems.eq_5 _ _ _ _ _ _ _ _ _ _ hoptions, takeSource_dry]
    exact proceed_dry p' _ ih
  | case6 p run text o name value rest done last hoptions hword =>
    rw [readItems.eq_6 _ _ _ _ _ _ _ _ _ hoptions hword]
    rfl
  | case7 p run item rest hunknown hoption ih =>
    rw [readItems.eq_7 _ _ _ _ hunknown hoption]
    exact ih

/-- With the option for a dry run before them, the same is read from the arguments, but for a dry run. -/
theorem read_dryRun (arguments : List String) : read ("--dry-run" :: arguments) = dryRead (read arguments) := by
  have hclassify : classify "--dry-run" = .ok (.option "--dry-run" .dryRun "--dry-run" none) := by decide +kernel
  have hoptions : optionsOf .dryRun "--dry-run" none = .ok ([(.dryRun, "")], none) := rfl
  have hfirst : ∀ items, readItems ⟨Arguments.none, []⟩ [] (.option "--dry-run" .dryRun "--dry-run" none :: items) =
      dryRead (readItems ⟨Arguments.none, []⟩ [] items) := by
    intro items
    rw [← readItems_dry, readItems.eq_4 _ _ _ _ _ _ _ _ hoptions]
    rfl
  unfold read
  rw [classifyAll]
  · rw [hclassify]
    cases classifyAll arguments with
    | error e => rfl
    | ok items => exact hfirst items
  · decide

end TwinModule.CommandLine
