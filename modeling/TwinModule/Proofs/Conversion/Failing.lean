import Mathlib
import TwinModule.Proofs.Conversion.Noted
import TwinModule.Proofs.Directive.Complaints
import TwinModule.Proofs.Tree.Modules
/-!
How a conversion fails: only over a module, which has a body and is to be read from a file, or which cannot be filled in
from one. The complaint then points into the file that the module is declared in, or into the one that it is read from.
-/
set_option autoImplicit false

namespace TwinModule

namespace Traced

variable {α β : Type} {x : Traced α} {q : List Note → Failure → Prop}

/-- If a computation fails, the notes until then and the failure are of a kind. -/
def FailsAs (q : List Note → Failure → Prop) (x : Traced α) : Prop := ∀ f, x.result = .error f → q x.notes f

theorem failsAs_fail {f : Failure} (h : q [] f) : FailsAs q (fail f : Traced α) := by
  rintro _ ⟨⟩
  exact h

theorem failsAs_pure (a : α) : FailsAs q (pure a) := by
  rintro f h
  cases h

theorem failsAs_note (n : Note) : FailsAs q (note n) := by
  rintro f h
  cases h

theorem failsAs_ofExcept {r : Except Failure α} (h : ∀ f, r = .error f → q [] f) : FailsAs q (ofExcept r) := h

/-- A sequence fails in its first part, or in the rest with the notes of the first part before those of the rest. -/
theorem FailsAs.bind {g : α → Traced β} (hx : FailsAs q x)
    (hg : ∀ ms a, x.Yields ms a → FailsAs (fun ks f => q (ms ++ ks) f) (g a)) : FailsAs q (x >>= g) := by
  obtain ⟨ms, r⟩ := x
  cases r with
  | error e =>
    rintro _ ⟨⟩
    exact hx e rfl
  | ok a => exact fun f hf => hg ms a rfl f hf

/-- A kind of failures that stays the same with more notes before it. -/
def IgnoresEarlier (q : List Note → Failure → Prop) : Prop := ∀ ms ks f, q ks f → q (ms ++ ks) f

theorem FailsAs.before (hq : IgnoresEarlier q) (hx : FailsAs q x) (ms : List Note) :
    FailsAs (fun ks f => q (ms ++ ks) f) x := fun f hf => hq ms _ f (hx f hf)

theorem FailsAs.imp {q' : List Note → Failure → Prop} (hx : FailsAs q x) (h : ∀ ns f, q ns f → q' ns f) :
    FailsAs q' x := fun f hf => h _ f (hx f hf)

theorem FailsAs.mapFailure {q' : List Note → Failure → Prop} {g : Failure → Failure} (hx : FailsAs q x)
    (h : ∀ ns f, q ns f → q' ns (g f)) : FailsAs q' (x.mapFailure g) := by
  obtain ⟨ns, r⟩ := x
  cases r with
  | error f =>
    rintro _ ⟨⟩
    exact h ns f (hx f rfl)
  | ok a =>
    rintro f hf
    cases hf

theorem FailsAs.seq (hq : IgnoresEarlier q) {g : α → Traced β} (hx : FailsAs q x) (hg : ∀ a, FailsAs q (g a)) :
    FailsAs q (x >>= g) := hx.bind fun ms a _ => (hg a).before hq ms

end Traced

open Traced

/-- A sequence fails if its first part does, or if that gives a result and then the rest fails. -/
theorem bind_eq_error_iff {ε α β : Type} {x : Except ε α} {f : α → Except ε β} {e : ε} :
    x >>= f = .error e ↔ x = .error e ∨ ∃ a, x = .ok a ∧ f a = .error e := by
  cases x with
  | error e' => simp [Bind.bind, Except.bind]
  | ok a => simp [Bind.bind, Except.bind]

/-- Nothing is a module in what stands in other statements. -/
theorem stmtsModules_of_attached {p : String → Option Nat → Prop} {ss : List Stmt}
    (h : stmtsObey .attached false ss) : stmtsModules p ss := by
  refine stmtsModules_iff.2 fun s hs => Stmt.modules_of_role fun hr => ?_
  have hreal : s.isReal = true := by
    cases s with
    | comment c => cases hr
    | _ => rfl
  exact absurd (((stmtsObey_iff.1 h s hs).stmt hreal).2.1 hr) (by simp)

namespace Conversion

variable {c : Conversion} {load : Loader} {q : List Note → Failure → Prop} {p : String → Option Nat → Prop}

/-- What is left of a statement for the other variant is left without fail. -/
theorem failsAs_of_own {around : Surroundings} {s : Stmt}
    (hown : s.tags.any (Tag.names c.variant.other) = false → FailsAs q (c.tailor load around s)) :
    FailsAs q (c.tailor load around s) := by
  cases hf : s.tags.any (Tag.names c.variant.other) with
  | false => exact hown hf
  | true =>
    rw [tailor_of_other hf]
    rintro f h
    cases h

/-- How the modules declared in a file fail: those that have a body and a path at once, and those that are loaded. -/
structure ModulesFailAs (p : String → Option Nat → Prop) (q : List Note → Failure → Prop) (load : Loader)
    (file : Option String) : Prop where
  ignoresEarlier : IgnoresEarlier q
  bodyAndPath : ∀ name path line, p name line → q [] (.complaint (.bodyAndPath name path) none line)
  load : ∀ around name explicit line, around.file = file → around.modulePath.getLast? = some name → p name line →
    FailsAs q (load around name explicit line)

theorem failsAs_tailor_module {around : Surroundings} (hq : ModulesFailAs p q load around.file) {info : Info}
    {name : String} {body : List Stmt} (hf : info.tags.any (Tag.names c.variant.other) = false)
    (hp : p name info.span.line)
    (hbody : FailsAs q (c.tailorStmts load { around with modulePath := around.modulePath ++ [name] } body)) :
    FailsAs q (c.tailor load around (.block info (.module_ name) body)) := by
  simp only [tailor, keptTags_of_own hf]
  split
  · split
    · exact failsAs_fail (hq.bodyAndPath _ _ _ hp)
    · exact hbody.seq hq.ignoresEarlier fun _ => failsAs_pure _
  · refine FailsAs.seq hq.ignoresEarlier ?_ fun _ => failsAs_pure _
    exact hq.load _ _ _ _ rfl (List.getLast?_concat ..) hp

mutual

/-- Only modules can fail to be converted. -/
theorem failsAs_tailor (around : Surroundings) (hq : ModulesFailAs p q load around.file) {outer : Bool} :
    (s : Stmt) → s.Obeys .attached outer → s.Modules p → FailsAs q (c.tailor load around s)
  | .comment _, _, _ => failsAs_pure _
  | .simple info what, _, _ => failsAs_of_own fun hf => by
    rw [tailor_simple hf]
    exact failsAs_pure _
  | .block info head body, ⟨hs, _, hb⟩, hm => failsAs_of_own fun hf => by
    by_cases hrole : head.role = .ordinary
    · rw [tailor_block hf hrole]
      rw [BlockHead.isModule_of_ordinary hrole] at hb
      exact (failsAs_tailorStmts around hq body hb (stmtsModules_of_attached hb)).seq hq.ignoresEarlier fun _ => failsAs_pure _
    · cases head with
      | module_ name =>
        let inside := { around with modulePath := around.modulePath ++ [name] }
        exact failsAs_tailor_module hq hf hm.1 (failsAs_tailorStmts inside hq body hb hm.2)
      | _ => exact absurd rfl hrole
  | .branch info head body orelse, ⟨_, ⟨_, hb⟩, _, ho⟩, _ => failsAs_of_own fun hf => by
    rw [tailor_branch hf]
    exact (failsAs_tailorStmts around hq body hb (stmtsModules_of_attached hb)).seq hq.ignoresEarlier fun _ =>
      (failsAs_tailorStmts around hq orelse ho (stmtsModules_of_attached ho)).seq hq.ignoresEarlier fun _ => failsAs_pure _
  | .attempt info isGroup body handlers orelse finalbody, ⟨_, ⟨_, hb⟩, hh, ⟨_, ho⟩, _, hfb⟩, _ =>
    failsAs_of_own fun hf => by
      rw [tailor_attempt hf]
      exact (failsAs_tailorStmts around hq body hb (stmtsModules_of_attached hb)).seq hq.ignoresEarlier fun _ =>
        (failsAs_tailorHandlers around hq handlers hh).seq hq.ignoresEarlier fun _ =>
          (failsAs_tailorStmts around hq orelse ho (stmtsModules_of_attached ho)).seq hq.ignoresEarlier fun _ =>
            (failsAs_tailorStmts around hq finalbody hfb (stmtsModules_of_attached hfb)).seq hq.ignoresEarlier fun _ =>
              failsAs_pure _
  | .select info subject cases, ⟨_, hc⟩, _ => failsAs_of_own fun hf => by
    rw [tailor_select hf]
    exact (failsAs_tailorCases around hq cases hc).seq hq.ignoresEarlier fun _ => failsAs_pure _
termination_by structural s => s

theorem failsAs_tailorStmts (around : Surroundings) (hq : ModulesFailAs p q load around.file) {outer : Bool} :
    (ss : List Stmt) → stmtsObey .attached outer ss → stmtsModules p ss → FailsAs q (c.tailorStmts load around ss)
  | [], _, _ => failsAs_pure _
  | s :: ss, ⟨hs, hss⟩, ⟨hm, hms⟩ =>
    (failsAs_tailor around hq s hs hm).seq hq.ignoresEarlier fun _ =>
      (failsAs_tailorStmts around hq ss hss hms).seq hq.ignoresEarlier fun _ => failsAs_pure _
termination_by structural ss => ss

theorem failsAs_tailorHandlers (around : Surroundings) (hq : ModulesFailAs p q load around.file) :
    (hs : List Handler) → handlersObey .attached hs → FailsAs q (c.tailorHandlers load around hs)
  | [], _ => failsAs_pure _
  | .comment _ :: hs, ⟨_, hhs⟩ => (failsAs_tailorHandlers around hq hs hhs).seq hq.ignoresEarlier fun _ => failsAs_pure _
  | .handler _ _ _ body :: hs, ⟨⟨_, hb⟩, hhs⟩ =>
    (failsAs_tailorStmts around hq body hb (stmtsModules_of_attached hb)).seq hq.ignoresEarlier fun _ =>
      (failsAs_tailorHandlers around hq hs hhs).seq hq.ignoresEarlier fun _ => failsAs_pure _
termination_by structural hs => hs

theorem failsAs_tailorCases (around : Surroundings) (hq : ModulesFailAs p q load around.file) :
    (cs : List Case) → casesObey .attached cs → FailsAs q (c.tailorCases load around cs)
  | [], _ => failsAs_pure _
  | .comment _ :: cs, ⟨_, hcs⟩ => (failsAs_tailorCases around hq cs hcs).seq hq.ignoresEarlier fun _ => failsAs_pure _
  | .case _ _ _ body :: cs, ⟨⟨_, hb⟩, hcs⟩ =>
    (failsAs_tailorStmts around hq body hb (stmtsModules_of_attached hb)).seq hq.ignoresEarlier fun _ =>
      (failsAs_tailorCases around hq cs hcs).seq hq.ignoresEarlier fun _ => failsAs_pure _
termination_by structural cs => cs

end

/-- A text that a conversion has seen: the one it started with, or that of a file which it says it found. -/
def Seen (lib : Library) (path : FilePath) (source : String) (ns : List Note) (path' : FilePath) (source' : String) :
    Prop :=
  (path' = path ∧ source' = source) ∨ ((∃ names, .resolved names path' ∈ ns) ∧ Library.Holds lib.store path' source')

/-- A complaint that names a line points into a text that was seen, and names the file of that text unless it is about a
module that has a body and a path, and names no file then. -/
def Points (seen : List Note → FilePath → String → Prop) (ns : List Note) (f : Failure) : Prop :=
  ∀ what file line, f = .complaint what file (some line) →
    ∃ path source, seen ns path source ∧ what.PointsInto source line ∧
      file = if what.isBodyAndPath then none else some path.text

theorem Seen.after {lib : Library} {path path' : FilePath} {source source' : String} {ks : List Note}
    (h : Seen lib path source ks path' source') (ms : List Note) : Seen lib path source (ms ++ ks) path' source' := by
  rcases h with h | ⟨⟨names, h⟩, hholds⟩
  · exact .inl h
  · exact .inr ⟨⟨names, List.mem_append_right ms h⟩, hholds⟩

/-- What is seen from a file that is found is seen from where it is looked for. -/
theorem Points.of_found {lib : Library} {path path' : FilePath} {source source' : String} {names : List String}
    {ns : List Note} {f : Failure} (hholds : Library.Holds lib.store path' source')
    (h : Points (Seen lib path' source') ns f) :
    Points (Seen lib path source) (.resolved names path' :: ns) f := by
  intro what file line hf
  obtain ⟨p, text, hseen, hpoints, hfile⟩ := h what file line hf
  refine ⟨p, text, .inr ?_, hpoints, hfile⟩
  rcases hseen with ⟨rfl, rfl⟩ | ⟨⟨names', hn⟩, hp⟩
  · exact ⟨⟨names, List.mem_cons_self ..⟩, hholds⟩
  · exact ⟨⟨names', List.mem_cons_of_mem _ hn⟩, hp⟩

theorem ignoresEarlier_points {lib : Library} {path : FilePath} {source : String} :
    IgnoresEarlier (Points (Seen lib path source)) := by
  intro ms ks f h what file line hf
  obtain ⟨path', source', hseen, hpoints, hfile⟩ := h what file line hf
  exact ⟨path', source', hseen.after ms, hpoints, hfile⟩

/-- A complaint over a module points to where it is declared. -/
theorem pointsInto_of_declaredIn (what : Complaint) {source name : String} {line : Option Nat}
    (h : Directive.DeclaredIn source name line)
    (hwhat : ∀ d : Directive, d.request = .declare name ∨ d.request = .begin_ name → what.Regards d) :
    ∃ n, line = some n ∧ what.PointsInto source n := by
  obtain ⟨c, d, hc, rfl, hd, hrequest⟩ := h
  obtain ⟨number, -, -, hline, -⟩ := hc.isOn
  refine ⟨_, ?_, Complaint.pointsInto_of_scanned hc (.inr ⟨d, hd, hwhat d hrequest⟩)⟩
  rw [hline, Option.getD_some]

/-- Only a path that cannot be looked up keeps from going through paths. -/
theorem fault_of_firstFile {store : Store} {ps : List FilePath} {f : Failure}
    (h : Library.firstFile store ps = .error f) :
    ∃ problem p, store.isFile p = .error problem ∧ f = .files ⟨problem, p⟩ := by
  induction ps with
  | nil => cases h
  | cons p ps ih =>
    rw [Library.firstFile] at h
    split at h
    · rename_i problem hfile
      cases h
      exact ⟨problem, p, hfile, rfl⟩
    · cases h
    · exact ih h

/-- A search fails over a path that cannot be looked up, or with a complaint over a module that is not found. -/
theorem error_of_locate {lib : Library} {names : List String} {explicit : Option String} {name : String} {f : Failure}
    (hlast : names.getLast? = some name) (h : lib.locate names explicit = .error f) :
    (∃ problem p, lib.store.isFile p = .error problem ∧ f = .files ⟨problem, p⟩) ∨
      ∃ tried, f = .complaint (.notFound name tried) none none := by
  simp only [Library.locate, hlast] at h
  -- the paths that are tried differ, what is done with them does not
  cases explicit
  all_goals
    rcases bind_eq_error_iff.1 h with htried | ⟨tried, -, h⟩
    · first | cases htried | simp [Library.candidates, hlast] at htried
    · rcases bind_eq_error_iff.1 h with hfirst | ⟨found, -, h⟩
      · exact .inl (fault_of_firstFile hfirst)
      · split at h
        · cases h
        · cases h
          exact .inr ⟨_, rfl⟩

/-- The only complaint of a file that is read in files around it is a cycle, which has no line. -/
theorem line_of_enter {store : Store} {chain : Chain} {path : FilePath} {name : String} {what : Complaint}
    {file : Option String} {line : Option Nat}
    (h : Library.enter store chain path name = .error (.complaint what file line)) : line = none := by
  unfold Library.enter at h
  split at h
  · cases h
  · split at h
    · cases h
      rfl
    · cases h

/-- A file that cannot be read is complained about without a line; otherwise a complaint points into its text. -/
theorem points_of_load {store : Store} {path : FilePath} {name : String} {what : Complaint} {file : Option String}
    {line : Nat} (h : Library.load store path name = .error (.complaint what file (some line))) :
    ∃ source, Library.Holds store path source ∧ what.PointsInto source line ∧ what.isBodyAndPath = false ∧
      file = some path.text := by
  unfold Library.load at h
  split at h
  · cases h
  · rename_i bytes hbytes
    split at h
    · rename_i f hf
      unfold Library.readText at hf
      split at hf <;> cases hf
      cases h
    · rename_i source hsource
      obtain ⟨rfl, hwhat, n, hn, hpoints⟩ := pointsInto_of_readSource h
      cases hn
      exact ⟨source, ⟨bytes, hbytes, hsource⟩, hpoints, Complaint.isBodyAndPath_eq_false hwhat, rfl⟩

theorem mapError_eq_error_iff {ε ε' α : Type} {x : Except ε α} {g : ε → ε'} {e : ε'} :
    x.mapError g = .error e ↔ ∃ e', x = .error e' ∧ g e' = e := by
  cases x with
  | error e' => simp [Except.mapError]
  | ok a => simp [Except.mapError]

/-- How the modules fail that are declared in a text, once it is known how loading them does. -/
theorem modulesFailAs_points {lib : Library} {path : FilePath} {source : String}
    (hload : ∀ around name explicit line, around.file = some path.text → around.modulePath.getLast? = some name →
      Directive.DeclaredIn source name line →
        FailsAs (Points (Seen lib path source)) (load around name explicit line)) :
    ModulesFailAs (Directive.DeclaredIn source) (Points (Seen lib path source)) load (some path.text) where
  ignoresEarlier := ignoresEarlier_points
  bodyAndPath name given line hdeclared := by
    rintro _ _ _ ⟨⟩
    obtain ⟨n, hn, hpoints⟩ := pointsInto_of_declaredIn (.bodyAndPath name given) hdeclared fun _ h => h
    cases hn
    exact ⟨path, source, .inl ⟨rfl, rfl⟩, hpoints, rfl⟩
  load := hload

theorem points_of_missed {lib : Library} {path : FilePath} {source name : String} {line : Option Nat}
    {around : Surroundings} {explicit : Option String} {f : Failure} (hfile : around.file = some path.text)
    (hlast : around.modulePath.getLast? = some name) (hdeclared : Directive.DeclaredIn source name line)
    (h : (lib.locate around.modulePath explicit).mapError (missedAt around line) = .error f) :
    Points (Seen lib path source) [] f := by
  obtain ⟨f, hlocate, rfl⟩ := mapError_eq_error_iff.1 h
  intro what file n hf
  rcases error_of_locate hlast hlocate with ⟨problem, p, -, rfl⟩ | ⟨tried, rfl⟩
  · cases hf
  · cases hf
    obtain ⟨n', hn, hpoints⟩ := pointsInto_of_declaredIn (.notFound name tried) hdeclared fun _ h => h
    cases hn
    exact ⟨path, source, .inl ⟨rfl, rfl⟩, hpoints, hfile⟩

/-- What goes wrong in a library points to where the module is declared, or into the file that it is read from. -/
theorem failsAs_fromLibrary (lib : Library) (depth : Nat) (path : FilePath) (source : String) (around : Surroundings)
    (name : String) (explicit : Option String) (line : Option Nat)
    (hfile : around.file = some path.text) (hlast : around.modulePath.getLast? = some name)
    (hdeclared : Directive.DeclaredIn source name line) :
    FailsAs (Points (Seen lib path source)) (c.fromLibrary lib depth around name explicit line) := by
  induction depth generalizing around name explicit line path source with
  | zero =>
    refine failsAs_fail ?_
    rintro _ _ _ ⟨⟩
    obtain ⟨n, hn, hpoints⟩ := pointsInto_of_declaredIn (.cycle name _) hdeclared fun _ h => h
    cases hn
    exact ⟨path, source, .inl ⟨rfl, rfl⟩, hpoints, hfile⟩
  | succ depth ih =>
    have hlocate : FailsAs (Points (Seen lib path source))
        (ofExcept ((lib.locate around.modulePath explicit).mapError (missedAt around line))) :=
      failsAs_ofExcept fun _ => points_of_missed hfile hlast hdeclared
    refine hlocate.bind fun _ found hfound => (failsAs_note _).bind fun _ _ hnote => ?_
    obtain ⟨rfl, -⟩ := ofExcept_yields_iff.1 hfound
    obtain rfl := note_yields_iff.1 hnote
    refine FailsAs.bind (failsAs_ofExcept ?_) fun _ chain hchain => ?_
    · rintro _ hf _ _ _ rfl
      cases line_of_enter hf
    obtain ⟨rfl, -⟩ := ofExcept_yields_iff.1 hchain
    refine FailsAs.bind (failsAs_ofExcept ?_) fun _ loaded hloaded => ?_
    · rintro _ hf what file n rfl
      obtain ⟨text, hholds, hpoints, hwhat, rfl⟩ := points_of_load hf
      exact ⟨found, text, .inr ⟨⟨_, List.mem_cons_self ..⟩, hholds⟩, hpoints, by rw [hwhat]; rfl⟩
    obtain ⟨rfl, hload⟩ := ofExcept_yields_iff.1 hloaded
    obtain ⟨text, hholds, hread⟩ := exists_readSource_of_load hload
    have hmodules := modulesFailAs_points (ih found text)
    have hinner := failsAs_tailorStmts (c := c) ⟨around.modulePath, some found.text, chain⟩ hmodules loaded
      (readSource_obeys hread) (readSource_modules hread)
    exact hinner.imp fun ns f h => Points.of_found hholds h

/-- A complaint that names a line points into a text, and names no file yet. -/
def PointsHere (source : String) (_ : List Note) (f : Failure) : Prop :=
  ∀ what file line, f = .complaint what file (some line) → what.PointsInto source line ∧ file = none

/-- Without a library, what goes wrong over a module points to where it is declared. -/
theorem modulesFailAs_noLibrary {source : String} {file : Option String} :
    ModulesFailAs (Directive.DeclaredIn source) (PointsHere source) noLibrary file where
  ignoresEarlier _ _ _ h := h
  bodyAndPath name given line hdeclared := by
    rintro _ _ _ ⟨⟩
    obtain ⟨n, hn, hpoints⟩ := pointsInto_of_declaredIn (.bodyAndPath name given) hdeclared fun _ h => h
    cases hn
    exact ⟨hpoints, rfl⟩
  load around name explicit line _ _ hdeclared := by
    refine failsAs_fail ?_
    rintro _ _ _ ⟨⟩
    obtain ⟨n, hn, hpoints⟩ := pointsInto_of_declaredIn (.noSourceRoot name) hdeclared fun _ h => h
    cases hn
    exact ⟨hpoints, rfl⟩

/-- The files that a conversion has seen: the one that the tree comes from, and those that it found. -/
def SeenFrom (lib : Option Library) (origin : FilePath) (source : String) (ns : List Note) (path : FilePath)
    (source' : String) : Prop :=
  (path = origin ∧ source' = source) ∨
    ((∃ names, .resolved names path ∈ ns) ∧ ∃ l, lib = some l ∧ Library.Holds l.store path source')

/-- A complaint that names a line points into a text that a conversion has seen, and names the file of that text, or the
one that the tree comes from if it is about a module that has a body and a path. -/
def PointsFrom (lib : Option Library) (origin : FilePath) (source : String) (ns : List Note) (f : Failure) : Prop :=
  ∀ what file line, f = .complaint what file (some line) →
    ∃ path source', SeenFrom lib origin source ns path source' ∧ what.PointsInto source' line ∧
      file = some (if what.isBodyAndPath then origin.text else path.text)

theorem line_of_firstChain {lib : Option Library} {origin : Option FilePath} {t : Tree} {what : Complaint}
    {file : Option String} {line : Option Nat}
    (h : c.firstChain lib origin t = .error (.complaint what file line)) : line = none := by
  unfold firstChain at h
  split at h
  · cases h
  · split at h
    · exact line_of_enter h
    · cases h

theorem pointsFrom_of_points {lib : Library} {origin : FilePath} {source : String} {ns : List Note} {f : Failure}
    (h : Points (Seen lib origin source) ns f) :
    PointsFrom (some lib) origin source ns (f.inFile (some origin.text)) := by
  intro what file line hf
  cases f with
  | complaint what' file' line' =>
    cases file' with
    | none =>
      cases hf
      obtain ⟨path, source', hseen, hpoints, hfile⟩ := h _ _ _ rfl
      refine ⟨path, source', hseen.imp_right fun hseen => ⟨hseen.1, lib, rfl, hseen.2⟩, hpoints, ?_⟩
      cases hwhat : what.isBodyAndPath with
      | false => simp [hwhat] at hfile
      | true => rfl
    | some file' =>
      cases hf
      obtain ⟨path, source', hseen, hpoints, hfile⟩ := h _ _ _ rfl
      refine ⟨path, source', hseen.imp_right fun hseen => ⟨hseen.1, lib, rfl, hseen.2⟩, hpoints, ?_⟩
      cases hwhat : what.isBodyAndPath with
      | false => simpa [hwhat] using hfile
      | true => simp [hwhat] at hfile
  | _ => cases hf

theorem pointsFrom_of_pointsHere {origin : FilePath} {source : String} {ns : List Note} {f : Failure}
    (h : PointsHere source ns f) : PointsFrom none origin source ns (f.inFile (some origin.text)) := by
  intro what file line hf
  cases f with
  | complaint what' file' line' =>
    cases file' with
    | none =>
      cases hf
      exact ⟨origin, source, .inl ⟨rfl, rfl⟩, (h _ _ _ rfl).1, by rw [ite_self]⟩
    | some file' =>
      cases hf
      cases (h _ _ _ rfl).2
  | _ => cases hf

theorem failsAs_firstChain {lib : Option Library} {origin : Option FilePath} {t : Tree}
    {q : List Note → Failure → Prop} (hq : ∀ f, (∀ what file line, f ≠ .complaint what file (some line)) → q [] f) :
    FailsAs q (Traced.ofExcept (c.firstChain lib origin t)) := by
  refine failsAs_ofExcept fun f hf => hq f ?_
  rintro what file line rfl
  cases line_of_firstChain hf

/-- What goes wrong when a tree is converted that was read from a text. -/
theorem failsAs_convert {lib : Option Library} {origin : FilePath} {source : String} {t : Tree}
    (hread : readSource origin.text source = .ok t.body) :
    FailsAs (PointsFrom lib origin source) (c.convert lib (some origin) t) := by
  cases lib with
  | some lib =>
    have hmodules := modulesFailAs_points (c.failsAs_fromLibrary lib (maxDepth lib) origin source)
    refine FailsAs.mapFailure (FailsAs.seq ignoresEarlier_points (failsAs_firstChain ?_) fun chain => ?_)
      fun _ _ => pointsFrom_of_points
    · exact fun f hf what file line e => absurd e (hf what file line)
    · exact (failsAs_tailorStmts _ hmodules t.body (readSource_obeys hread) (readSource_modules hread)).seq
        ignoresEarlier_points fun _ => failsAs_pure _
  | none =>
    refine FailsAs.mapFailure (FailsAs.seq (fun _ _ _ h => h) (failsAs_firstChain ?_) fun chain => ?_)
      fun _ _ => pointsFrom_of_pointsHere
    · exact fun f hf what file line e => absurd e (hf what file line)
    · exact (failsAs_tailorStmts _ modulesFailAs_noLibrary t.body (readSource_obeys hread)
        (readSource_modules hread)).seq (fun _ _ _ h => h) fun _ => failsAs_pure _

end Conversion

end TwinModule
