import TwinModule.Proofs.Conversion.Sharing
/-!
Conversions one after the other, with all that is left of one in place when the next begins. Whatever comes of a
conversion, it leaves the files being read as it found them, so what comes of it is the same wherever it stands in a row.
-/
set_option autoImplicit false

namespace TwinModule

namespace Conversion

open Shared

/-- A conversion with a state, but without a library: no module can be in another file. -/
def convertAlone (c : Conversion) (origin : Option FilePath) (t : Tree) : Shared Tree := fun state =>
  let load (name : String) (_ : Option String) (line : Option Nat) : Shared (List Stmt) :=
    lift (Traced.fail (.complaint (.noSourceRoot name) none line))
  let converted : Shared Tree := do
    let body ← c.visitStmts (c.sharer load) t.body
    return (t.withBody body).finalize
  let (result, after) := converted { state with modulePath := [c.rootName], file := origin.map FilePath.text }
  (result.mapFailure (Failure.inFile after.file), after)

theorem convertAlone_eq (c : Conversion) (origin : Option FilePath) (t : Tree) :
    ∃ x : Chain → Traced Tree, x [] = c.convert none origin t ∧ ∀ state, c.convertAlone origin t state =
      (x state.chain, ⟨[c.rootName], origin.map FilePath.text, state.chain⟩) := by
  have hload (name : String) (_ : Option String) (line : Option Nat) :=
    restores_lift (@Traced.fail (List Stmt) (.complaint (.noSourceRoot name) none line))
  have hbody : Restores (fun around => c.tailorStmts noLibrary around t.body) _ := c.restores_tailorStmts hload t.body
  have hconverted := restores_bind hbody fun body => restores_lift (pure (t.withBody body).finalize)
  let start (chain : Chain) : Surroundings := ⟨[c.rootName], origin.map FilePath.text, chain⟩
  let inFile (r : Traced Tree × Surroundings) := (r.1.mapFailure (Failure.inFile r.2.file), r.2)
  let converted (around : Surroundings) : Traced Tree :=
    c.tailorStmts noLibrary around t.body >>= fun body => pure (t.withBody body).finalize
  refine ⟨fun chain => (inFile (converted (start chain), start chain)).1, ?_, fun state =>
    congrArg inFile (hconverted (start state.chain))⟩
  rw [convert, firstChain_none]
  rfl

/-- A tree to be converted, and what it is converted with. -/
structure Job where
  conversion : Conversion
  library : Option Library
  origin : Option FilePath
  tree : Tree

namespace Job

def run (job : Job) : Shared Tree :=
  match job.library with
  | none => job.conversion.convertAlone job.origin job.tree
  | some lib => job.conversion.convertShared lib job.origin job.tree

/-- What comes of a conversion that begins with nothing being read. -/
def outcome (job : Job) : Traced Tree := job.conversion.convert job.library job.origin job.tree

/-- Where a conversion starts: at the root module, in the file of the tree. -/
def start (job : Job) (chain : Chain) : Surroundings :=
  ⟨[job.conversion.rootName], job.origin.map FilePath.text, chain⟩

/-- Where conversions one after the other leave the state, those that fail among them. -/
def after (jobs : List Job) (state : Surroundings) : Surroundings := jobs.foldl (fun s job => (job.run s).2) state

theorem run_eq (job : Job) :
    ∃ x : Chain → Traced Tree, x [] = job.outcome ∧ ∀ state, job.run state = (x state.chain, job.start state.chain) := by
  obtain ⟨c, lib, origin, t⟩ := job
  cases lib with
  | none => exact c.convertAlone_eq origin t
  | some lib => exact c.convertShared_eq lib origin t

theorem chain_run (job : Job) (state : Surroundings) : (job.run state).2.chain = state.chain := by
  obtain ⟨x, -, hrun⟩ := job.run_eq
  rw [hrun, start]

theorem chain_after (jobs : List Job) (state : Surroundings) : (after jobs state).chain = state.chain := by
  induction jobs generalizing state with
  | nil => rfl
  | cons job jobs ih => exact (ih (job.run state).2).trans (job.chain_run state)

end Job

/-- A conversion leaves what it is done with as it was, also when it fails: the files being read are those that were being
read before, and it is at the root module again, in the file of the tree. So what comes of it is the same whatever was
converted before it, and with nothing being read it is what `convert` gives. -/
theorem restored (job : Job) (earlier : List Job) (state : Surroundings) :
    (job.run state).2 = ⟨[job.conversion.rootName], job.origin.map FilePath.text, state.chain⟩ ∧
      (job.run (Job.after earlier state)).1 = (job.run state).1 ∧
      (job.run { state with chain := [] }).1 = job.conversion.convert job.library job.origin job.tree := by
  obtain ⟨x, hx, hrun⟩ := job.run_eq
  refine ⟨?_, ?_, ?_⟩
  · rw [hrun, Job.start]
  · rw [hrun, hrun, Job.chain_after]
  · rw [hrun, hx, Job.outcome]

/-- A module that is not found, inside another one: the conversion fails there, and is at the root module after it. -/
example :
    let inner : Stmt := .block ⟨Span.unset, []⟩ (.module_ "b") []
    let outer : Stmt := .block ⟨Span.unset, []⟩ (.module_ "a") [inner, .pass Span.unset]
    let job : Job := ⟨⟨.blocking, "root", none⟩, some ⟨⟨[]⟩, ⟨.slash, []⟩⟩, none, .file [outer]⟩
    job.run ⟨["x", "y"], some "old.py", []⟩ =
      (Traced.fail (.complaint (.notFound "b" ["/root/a/b.py", "/root/a/b/__init__.py"]) none none),
        ⟨["root"], none, []⟩) := by
  cbv

end Conversion

end TwinModule
