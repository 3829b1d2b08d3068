import TwinModule.Proofs.Conversion.Ending
import TwinModule.Proofs.Conversion.Failing
/-!
Conversions that are watched. The chain of the files being read is part of a state: a file is put on it where its text
begins to be converted, and taken off where that ends, also when it fails. Beside the state goes what it is to list, the
files that are being read at the time, and all moments of a conversion are seen, so the two can be compared at each.
-/
set_option autoImplicit false

namespace TwinModule

/-- A file that is read, and the name of the module that it is read for. -/
structure Frame where
  path : FilePath
  name : String
  deriving DecidableEq, Repr

/-- What a frame is on the chain: the real path of the file, with the name. -/
def Frame.entry (store : Store) (f : Frame) : Except FilePath (FilePath × String) :=
  (store.realPath f.path).map (·, f.name)

/-- What is seen of a conversion at a time: the files being read, the outermost first, the chain as it is in the state,
and the file that is about to be read, if there is one. -/
structure Moment where
  frames : List Frame
  chain : Chain
  entering : Option Frame
  deriving DecidableEq, Repr

/-- The moments of a computation, what comes of it, and where it leaves the conversion. -/
structure Run (α : Type) where
  moments : List Moment
  outcome : Traced α
  after : Surroundings

/-- A computation that changes where a conversion is, inside the files that are being read. -/
def Watched (α : Type) : Type := List Frame → Surroundings → Run α

namespace Watched

variable {α β : Type}

protected def pure (a : α) : Watched α := fun _ state => ⟨[], pure a, state⟩

/-- What a computation that fails has changed stays changed. -/
protected def bind (x : Watched α) (f : α → Watched β) : Watched β := fun frames state =>
  let first := x frames state
  match first.outcome.result with
  | .ok a =>
    let rest := f a frames first.after
    ⟨first.moments ++ rest.moments, ⟨first.outcome.notes ++ rest.outcome.notes, rest.outcome.result⟩, rest.after⟩
  | .error e => ⟨first.moments, ⟨first.outcome.notes, .error e⟩, first.after⟩

instance : Monad Watched where
  pure := Watched.pure
  bind := Watched.bind

def lift (x : Traced α) : Watched α := fun frames state => ⟨[⟨frames, state.chain, none⟩], x, state⟩

/-- Changes the state before a computation and back after it, whether it fails or not. -/
def during (enter leave : Surroundings → Surroundings) (x : Watched α) : Watched α := fun frames state =>
  let run := x frames (enter state)
  { run with after := leave run.after }

def insideModule (name : String) (x : Watched α) : Watched α :=
  x.during (fun s => { s with modulePath := s.modulePath ++ [name] })
    (fun s => { s with modulePath := s.modulePath.dropLast })

def insideFile (path : FilePath) (x : Watched α) : Watched α := fun frames state =>
  x.during (fun s => { s with file := some path.text }) (fun s => { s with file := state.file }) frames state

/-- Puts a file on the chain for a computation, and takes it off by its real path. It is seen when the file is about to
be read, when it has begun to be and when it no longer is. -/
def reading (store : Store) (path : FilePath) (name : String) (x : Watched α) : Watched α := fun frames state =>
  let entering : Moment := ⟨frames, state.chain, some ⟨path, name⟩⟩
  match store.realPath path with
  | .error stuck => ⟨[entering], Traced.fail (.linkCircle stuck), state⟩
  | .ok real =>
    match Library.enter store state.chain path name with
    | .error f => ⟨[entering], Traced.fail f, state⟩
    | .ok longer =>
      let inner := frames ++ [⟨path, name⟩]
      let run := x inner { state with chain := longer }
      let after := { run.after with chain := run.after.chain.filter (·.1 ≠ real) }
      ⟨entering :: ⟨inner, longer, none⟩ :: run.moments ++ [⟨frames, after.chain, none⟩], run.outcome, after⟩

end Watched

namespace Conversion

open Watched

/-- A conversion as a walk that is watched. -/
def watcher (c : Conversion) (load : String → Option String → Option Nat → Watched (List Stmt)) : Visitor Watched where
  leave s := lift (c.leave s)
  refuse name path line := lift (Traced.fail (.complaint (.bodyAndPath name path) none line))
  inside name x := x.insideModule name
  load := load

/-- Modules from a library, the file they are in and the chain being kept in the state. -/
def loadWatched (c : Conversion) (lib : Library) :
    (depth : Nat) → String → Option String → Option Nat → Watched (List Stmt)
  | 0, name, _, line => fun _ state =>
    ⟨[], Traced.fail (.complaint (.cycle name (state.chain.map fun e => e.1.text)) state.file line), state⟩
  | depth + 1, name, explicit, line => fun frames state =>
    let filled : Watched (List Stmt) := do
      let path ← lift (Traced.ofExcept ((lib.locate state.modulePath explicit).mapError (missedAt state line)))
      lift (Traced.note (.resolved state.modulePath path))
      insideFile path (reading lib.store path name do
        let body ← lift (Traced.ofExcept (Library.load lib.store path name))
        c.visitStmts (c.watcher (loadWatched c lib depth)) body)
    filled frames state

/-- A conversion that is watched. What was left of another conversion is overwritten, the chain is not. -/
def convertWatched (c : Conversion) (lib : Library) (origin : Option FilePath) (t : Tree) : Watched Tree :=
  fun frames state =>
    let file := origin.map FilePath.text
    let converted : Watched Tree := do
      let body ← c.visitStmts (c.watcher (c.loadWatched lib (maxDepth lib))) t.body
      return (t.withBody body).finalize
    let started : Watched Tree :=
      match t, origin with
      | .module_ .., some path => reading lib.store path c.rootName converted
      | _, _ => converted
    let run := started frames { state with modulePath := [c.rootName], file }
    { run with outcome := run.outcome.mapFailure (Failure.inFile run.after.file) }

end Conversion

/-- A chain lists the files that are being read: their real paths with their names, in their order, each file once. -/
structure Chain.Lists (store : Store) (frames : List Frame) (chain : Chain) : Prop where
  entries : frames.map (Frame.entry store) = chain.map .ok
  nodup : (chain.map Prod.fst).Nodup

/-- The complaint about a cycle, and no other failure. -/
def Failure.isCycle : Failure → Bool
  | .complaint what .. => what.kind == .cycle
  | _ => false

/-- A cycle is complained about at a moment: the file to be read is on the chain already, and the complaint names the
module that it was entered for. -/
def Moment.Refuses (store : Store) (m : Moment) (f : Failure) : Prop :=
  ∃ entering real owner, m.entering = some entering ∧ store.realPath entering.path = .ok real ∧
    (real, owner) ∈ m.chain ∧
    f = .complaint (.cycle owner (m.chain.map (·.1.text) ++ [real.text])) (some entering.path.text) none

/-- At a moment some files are being read, and inside them only files of a kind, as the one about to be read is. -/
def Moment.Within (p : Frame → Prop) (frames : List Frame) (m : Moment) : Prop :=
  ∃ inner, m.frames = frames ++ inner ∧ ∀ f ∈ inner ++ m.entering.toList, p f

/-- A file to be read that is not on the chain is read next, inside the files that are being read already. -/
def Opens (store : Store) : List Moment → Prop
  | [] => True
  | m :: ms =>
    (∀ entering real, m.entering = some entering → store.realPath entering.path = .ok real →
      (∀ owner, (real, owner) ∉ m.chain) →
      ms.head? = some ⟨m.frames ++ [entering], m.chain ++ [(real, entering.name)], none⟩) ∧ Opens store ms

/-- A watched computation inside some files comes out as one that is not watched, and restores the state. At all its
moments the chain lists the files being read, and it complains about a cycle exactly if there is one. -/
structure Run.Shows {α : Type} (store : Store) (p : Frame → Prop) (frames : List Frame) (around : Surroundings)
    (x : Traced α) (r : Run α) : Prop where
  outcome : r.outcome = x
  after : r.after = around
  lists : ∀ m ∈ r.moments, m.chain.Lists store m.frames
  within : ∀ m ∈ r.moments, m.Within p frames
  opens : Opens store r.moments
  cycle : ∀ f, (r.outcome.result = .error f ∧ f.isCycle = true) ↔ ∃ m ∈ r.moments, m.Refuses store f

section

variable {α β : Type} {store : Store} {p : Frame → Prop} {frames : List Frame} {around : Surroundings} {chain : Chain}

theorem Opens.append {ms ns : List Moment} (hms : Opens store ms) (hns : Opens store ns) : Opens store (ms ++ ns) := by
  induction ms with
  | nil => exact hns
  | cons m ms ih =>
    refine ⟨fun entering real hentering hreal hnew => ?_, ih hms.2⟩
    have hnext := hms.1 entering real hentering hreal hnew
    cases ms with
    | nil => cases hnext
    | cons next rest => exact hnext

/-- Where no file is to be read, none has to be read next. -/
theorem opens_cons {m : Moment} {ms : List Moment} (h : m.entering = none) (hms : Opens store ms) :
    Opens store (m :: ms) :=
  ⟨fun _ _ hentering => (nomatch h.symm.trans hentering), hms⟩

theorem Moment.not_refuses {m : Moment} (h : m.entering = none) (f : Failure) : ¬m.Refuses store f := by
  rintro ⟨_, _, _, hentering, -⟩
  cases h.symm.trans hentering

/-- What happens inside one more file happens inside the files around it. -/
theorem Moment.Within.outward {m : Moment} {f : Frame} (h : m.Within p (frames ++ [f])) (hf : p f) :
    m.Within p frames := by
  obtain ⟨inner, hframes, hinner⟩ := h
  exact ⟨f :: inner, by simp [hframes], by simpa [hf] using hinner⟩

theorem Moment.Within.isPrefix {m : Moment} (h : m.Within p frames) : frames <+: m.frames := by
  obtain ⟨inner, hframes, -⟩ := h
  exact ⟨inner, hframes.symm⟩

theorem Moment.Refuses.isCycle {m : Moment} {f : Failure} (h : m.Refuses store f) : f.isCycle = true := by
  obtain ⟨_, _, _, -, -, -, rfl⟩ := h
  rfl

theorem Moment.Refuses.inFile {m : Moment} {f : Failure} (h : m.Refuses store f) (file : Option String) :
    f.inFile file = f := by
  obtain ⟨_, _, _, -, -, -, rfl⟩ := h
  rfl

theorem Failure.isCycle_inFile (f : Failure) (file : Option String) : (f.inFile file).isCycle = f.isCycle := by
  unfold Failure.inFile
  split <;> rfl

namespace Chain

theorem lists_nil : Lists store [] [] := ⟨rfl, List.nodup_nil⟩

/-- What a path is looked up as on a chain is what it is listed with. -/
theorem Lists.lookup_eq_some_iff {real : FilePath} {owner : String} (h : chain.Lists store frames) :
    chain.lookup real = some owner ↔ (real, owner) ∈ chain := by
  refine ⟨fun hlookup => ?_, fun hmem => ?_⟩
  · obtain ⟨before, rest, rfl, -⟩ := List.lookup_eq_some_iff.1 hlookup
    simp
  · obtain ⟨before, rest, rfl⟩ := List.append_of_mem hmem
    refine List.lookup_eq_some_iff.2 ⟨before, rest, rfl, fun e he => ?_⟩
    have hnodup := h.nodup
    rw [List.map_append, List.nodup_append] at hnodup
    have hne := hnodup.2.2 e.1 (List.mem_map_of_mem he) real (by simp)
    simpa using hne.symm

theorem Lists.enter {longer : Chain} {path : FilePath} {name : String} (h : chain.Lists store frames)
    (henter : Library.enter store chain path name = .ok longer) : longer.Lists store (frames ++ [⟨path, name⟩]) := by
  refine ⟨?_, Conversion.nodup_of_enter h.nodup henter⟩
  obtain ⟨real, hreal, -, rfl⟩ := Library.enter_eq_ok henter
  simp [h.entries, Frame.entry, hreal, Except.map]

/-- A file is refused exactly if putting it on the chain fails over a cycle. -/
theorem Lists.refuses_iff {path : FilePath} {name : String} {f : Failure} (h : chain.Lists store frames) :
    Moment.Refuses store ⟨frames, chain, some ⟨path, name⟩⟩ f ↔
      Library.enter store chain path name = .error f ∧ f.isCycle = true := by
  constructor
  · rintro ⟨_, real, owner, ⟨⟩, hreal, hmem, rfl⟩
    simp [Library.enter, hreal, h.lookup_eq_some_iff.2 hmem, Failure.isCycle, Complaint.kind]
  · rintro ⟨henter, hcycle⟩
    unfold Library.enter at henter
    split at henter
    · cases henter
      cases hcycle
    · rename_i real hreal
      split at henter
      · rename_i owner hlookup
        cases henter
        exact ⟨⟨path, name⟩, real, owner, rfl, hreal, h.lookup_eq_some_iff.1 hlookup, rfl⟩
      · cases henter

/-- A file that is not on a chain can be put on it. -/
theorem enter_of_new {path real : FilePath} (name : String) (hreal : store.realPath path = .ok real)
    (hnew : ∀ owner, (real, owner) ∉ chain) : Library.enter store chain path name = .ok (chain ++ [(real, name)]) := by
  have hlookup : chain.lookup real = none := by
    refine List.lookup_eq_none_iff.2 fun e he => ?_
    have hne : real ≠ e.1 := by
      rintro rfl
      exact hnew e.2 he
    simpa using hne
  simp [Library.enter, hreal, hlookup]

end Chain

namespace Watched

variable {y : Watched α} {path : FilePath} {name : String}

theorem reading_barred {f : Failure} (h : Library.enter store around.chain path name = .error f) :
    y.reading store path name frames around =
      ⟨[⟨frames, around.chain, some ⟨path, name⟩⟩], Traced.fail f, around⟩ := by
  cases hreal : store.realPath path with
  | error stuck =>
    have hf : .linkCircle stuck = f := by simpa [Library.enter, hreal] using h
    simp [reading, hreal, hf]
  | ok real => simp [reading, hreal, h]

theorem reading_entered {longer : Chain} {r : Run α} (h : Library.enter store around.chain path name = .ok longer)
    (hr : y (frames ++ [⟨path, name⟩]) { around with chain := longer } = r)
    (hafter : r.after = { around with chain := longer }) :
    y.reading store path name frames around =
      ⟨⟨frames, around.chain, some ⟨path, name⟩⟩ :: ⟨frames ++ [⟨path, name⟩], longer, none⟩ :: r.moments ++
        [⟨frames, around.chain, none⟩], r.outcome, around⟩ := by
  obtain ⟨real, hreal, hlookup, rfl⟩ := Library.enter_eq_ok h
  simp only [reading, hreal, h, hr, hafter, Library.filter_enter name hlookup]

end Watched

namespace Run

/-- A computation at one moment is right if it complains about a cycle exactly if a file is to be read that may not. -/
theorem shows_of_moment {x : Traced α} {entering : Option Frame} (h : around.chain.Lists store frames)
    (hentering : ∀ f ∈ entering.toList, p f) (hopens : Opens store [⟨frames, around.chain, entering⟩])
    (hcycle : ∀ f, (x.result = .error f ∧ f.isCycle = true) ↔ Moment.Refuses store ⟨frames, around.chain, entering⟩ f) :
    Shows store p frames around x ⟨[⟨frames, around.chain, entering⟩], x, around⟩ where
  outcome := rfl
  after := rfl
  lists := by simpa using h
  within := by simpa using ⟨[], by simp, hentering⟩
  opens := hopens
  cycle f := by simpa using hcycle f

theorem shows_pure (a : α) : Shows store p frames around (pure a) ((pure a : Watched α) frames around) where
  outcome := rfl
  after := rfl
  lists := nofun
  within := nofun
  opens := trivial
  cycle f := ⟨by rintro ⟨⟨⟩, -⟩, by rintro ⟨_, ⟨⟩, -⟩⟩

theorem shows_lift {x : Traced α} (h : around.chain.Lists store frames)
    (hx : ∀ f, x.result = .error f → f.isCycle = false) :
    ((Watched.lift x) frames around).Shows store p frames around x := by
  refine shows_of_moment h nofun (opens_cons rfl trivial) fun f => ⟨fun ⟨hf, hcycle⟩ => ?_, fun hm => ?_⟩
  · rw [hx f hf] at hcycle
    cases hcycle
  · exact absurd hm (Moment.not_refuses rfl f)

/-- The moments of a sequence are those of its parts. Only the last part that is come to can have refused a file. -/
theorem shows_bind {x : Traced α} {y : Watched α} {f : α → Traced β} {g : α → Watched β}
    (h : (y frames around).Shows store p frames around x)
    (hf : ∀ a, x.result = .ok a → (g a frames around).Shows store p frames around (f a)) :
    ((y >>= g) frames around).Shows store p frames around (x >>= f) := by
  show (Watched.bind y g frames around).Shows store p frames around (x >>= f)
  generalize hy : y frames around = first at h
  obtain ⟨ms, ⟨ns, r⟩, after⟩ := first
  obtain rfl : ⟨ns, r⟩ = x := h.outcome
  obtain rfl : after = around := h.after
  cases r with
  | error e =>
    simp only [Watched.bind, hy]
    exact ⟨rfl, rfl, h.lists, h.within, h.opens, fun f => by simpa using h.cycle f⟩
  | ok a =>
    have hrest := hf a rfl
    -- what came out well has refused no file
    have hnone : ∀ f, ¬∃ m ∈ ms, m.Refuses store f := fun f hm => nomatch ((h.cycle f).2 hm).1
    simp only [Watched.bind, hy]
    refine ⟨?_, hrest.after, ?_, ?_, h.opens.append hrest.opens, fun f => ?_⟩
    · simp only [hrest.outcome, Traced.bind_ok]
    · exact List.forall_mem_append.2 ⟨h.lists, hrest.lists⟩
    · exact List.forall_mem_append.2 ⟨h.within, hrest.within⟩
    · simpa [or_and_right, exists_or, hnone] using hrest.cycle f

theorem shows_during {x : Traced α} {y : Watched α} {enter leave : Surroundings → Surroundings}
    (hleave : leave (enter around) = around) (h : (y frames (enter around)).Shows store p frames (enter around) x) :
    (y.during enter leave frames around).Shows store p frames around x where
  outcome := h.outcome
  after := by rw [Watched.during, h.after, hleave]
  lists := h.lists
  within := h.within
  opens := h.opens
  cycle := h.cycle

theorem shows_insideModule {name : String} {x : Traced α} {y : Watched α}
    (h : (y frames { around with modulePath := around.modulePath ++ [name] }).Shows store p frames
      { around with modulePath := around.modulePath ++ [name] } x) :
    (y.insideModule name frames around).Shows store p frames around x :=
  shows_during (by simp only [List.dropLast_concat]) h

theorem shows_insideFile {path : FilePath} {x : Traced α} {y : Watched α}
    (h : (y frames { around with file := some path.text }).Shows store p frames
      { around with file := some path.text } x) :
    (y.insideFile path frames around).Shows store p frames around x := shows_during rfl h

/-- A file that is on the chain is refused, and any other file is read inside those that are being read already. -/
theorem shows_reading {path : FilePath} {name : String} {x : Chain → Traced α} {y : Watched α}
    (hchain : around.chain.Lists store frames) (hp : p ⟨path, name⟩)
    (h : ∀ longer, Library.enter store around.chain path name = .ok longer →
      (y (frames ++ [⟨path, name⟩]) { around with chain := longer }).Shows store p (frames ++ [⟨path, name⟩])
        { around with chain := longer } (x longer)) :
    (y.reading store path name frames around).Shows store p frames around
      (Traced.ofExcept (Library.enter store around.chain path name) >>= x) := by
  have hentering : ∀ f ∈ (some (⟨path, name⟩ : Frame)).toList, p f := by simpa using hp
  cases henter : Library.enter store around.chain path name with
  | error f =>
    rw [Watched.reading_barred henter]
    refine shows_of_moment hchain hentering ⟨?_, trivial⟩ fun f => ?_
    · rintro _ real ⟨⟩ hreal hnew
      cases henter.symm.trans (Chain.enter_of_new name hreal hnew)
    · rw [hchain.refuses_iff, henter]
      simp [Traced.ofExcept]
  | ok longer =>
    have hlonger := hchain.enter henter
    have hinner := h longer henter
    rw [Watched.reading_entered henter rfl hinner.after]
    refine ⟨hinner.outcome, rfl, ?_, ?_, ⟨?_, ?_⟩, fun f => ?_⟩
    · simpa [hchain, hlonger, or_imp, forall_and] using hinner.lists
    · have hopened : Moment.Within p frames ⟨frames ++ [⟨path, name⟩], longer, none⟩ :=
        ⟨[⟨path, name⟩], rfl, by simpa using hp⟩
      have hends (entering : Option Frame) (h : ∀ f ∈ entering.toList, p f) :
          Moment.Within p frames ⟨frames, around.chain, entering⟩ := ⟨[], by simp, h⟩
      have hwithin := fun m hm => (hinner.within m hm).outward hp
      simpa [hopened, hends _ hentering, hends none nofun, or_imp, forall_and] using hwithin
    · rintro _ real ⟨⟩ hreal hnew
      cases henter.symm.trans (Chain.enter_of_new name hreal hnew)
      rfl
    · exact opens_cons rfl (hinner.opens.append (opens_cons rfl trivial))
    · have hadmitted : ¬Moment.Refuses store ⟨frames, around.chain, some ⟨path, name⟩⟩ f := by
        rw [hchain.refuses_iff, henter]
        simp
      simpa [hadmitted, Moment.not_refuses] using hinner.cycle f

/-- A watched computation shows, whatever modules are around, what comes of one that is not watched. -/
def Follows (store : Store) (p : Frame → Prop) (frames : List Frame) (file : Option String) (chain : Chain) ⦃α : Type⦄
    (x : ReaderT Surroundings Traced α) (y : Watched α) : Prop :=
  ∀ names, (y frames ⟨names, file, chain⟩).Shows store p frames ⟨names, file, chain⟩ (x ⟨names, file, chain⟩)

end Run

end

namespace Conversion

open Watched Run

variable {c : Conversion} {store : Store} {p : Frame → Prop} {frames : List Frame} {file : Option String}
  {chain : Chain}

theorem isCycle_of_leave {s : Stmt} {f : Failure} (h : (c.leave s).result = .error f) : f.isCycle = false := by
  cases h

theorem related_follows {load : Loader} {loadWatched : String → Option String → Option Nat → Watched (List Stmt)}
    (hchain : chain.Lists store frames)
    (h : ∀ names name explicit line, Shows store p frames ⟨names ++ [name], file, chain⟩
      (load ⟨names ++ [name], file, chain⟩ name explicit line)
      (loadWatched name explicit line frames ⟨names ++ [name], file, chain⟩)) :
    Related (Follows store p frames file chain) (c.reader load) (c.watcher loadWatched) where
  pure a _ := shows_pure a
  bind hx hf names := shows_bind (hx names) fun a _ => hf a names
  leave s _ := shows_lift hchain fun _ => isCycle_of_leave
  refuse name path line _ := shows_lift hchain (by rintro _ ⟨⟩; rfl)
  inside name _ _ hx names := shows_insideModule (hx (names ++ [name]))
  load name explicit line names := shows_insideModule (h names name explicit line)

theorem shows_visitStmts {load : Loader} {loadWatched : String → Option String → Option Nat → Watched (List Stmt)}
    (hchain : chain.Lists store frames)
    (h : ∀ names name explicit line, Shows store p frames ⟨names ++ [name], file, chain⟩
      (load ⟨names ++ [name], file, chain⟩ name explicit line)
      (loadWatched name explicit line frames ⟨names ++ [name], file, chain⟩)) (names : List String) (ss : List Stmt) :
    Shows store p frames ⟨names, file, chain⟩ (c.tailorStmts load ⟨names, file, chain⟩ ss)
      (c.visitStmts (c.watcher loadWatched) ss frames ⟨names, file, chain⟩) := by
  rw [tailorStmts_eq_visitStmts]
  exact related_visitStmts c (related_follows hchain h) ss names

theorem mapError_eq_ok_iff {ε ε' α : Type} {x : Except ε α} {g : ε → ε'} {a : α} :
    x.mapError g = .ok a ↔ x = .ok a := by
  cases x <;> simp [Except.mapError]

theorem isCycle_of_locate {lib : Library} {around : Surroundings} {explicit : Option String} {name : String}
    {line : Option Nat} {f : Failure} (hlast : around.modulePath.getLast? = some name)
    (h : (lib.locate around.modulePath explicit).mapError (missedAt around line) = .error f) : f.isCycle = false := by
  obtain ⟨f, hlocate, rfl⟩ := mapError_eq_error_iff.1 h
  rcases error_of_locate hlast hlocate with ⟨problem, q, -, rfl⟩ | ⟨tried, rfl⟩ <;> rfl

/-- What goes wrong when a text is read is nothing about files being read in files. -/
theorem isCycle_of_load {path : FilePath} {name : String} {f : Failure}
    (h : Library.load store path name = .error f) : f.isCycle = false := by
  unfold Library.load at h
  split at h
  · cases h
    rfl
  · split at h
    · rename_i hread
      unfold Library.readText at hread
      split at hread <;> cases hread
      cases h
      rfl
    · cases f with
      | complaint what file line =>
        obtain ⟨-, hwhat, -⟩ := pointsInto_of_readSource h
        rcases Complaint.kind_of_isOfDirectives hwhat with hkind | hkind <;> simp [Failure.isCycle, hkind]
      | _ => rfl

/-- A file that is found for a module. -/
def Located (lib : Library) (f : Frame) : Prop :=
  ∃ names explicit, names.getLast? = some f.name ∧ lib.locate names explicit = .ok f.path

/-- Filling in a module shows what comes of it. The bound on how deep files are read in files is not reached, as each
file that is read is one less that could be. -/
theorem shows_loadWatched {lib : Library} {p : Frame → Prop} (hp : ∀ f, Located lib f → p f) {depth : Nat}
    {names : List String} {name : String} {explicit : Option String} {line : Option Nat}
    (hchain : chain.Lists lib.store frames) (hdepth : unread lib.store chain < depth) :
    Shows lib.store p frames ⟨names ++ [name], file, chain⟩
      (c.fromLibrary lib depth ⟨names ++ [name], file, chain⟩ name explicit line)
      (c.loadWatched lib depth name explicit line frames ⟨names ++ [name], file, chain⟩) := by
  induction depth generalizing frames names file chain name explicit line with
  | zero => exact absurd hdepth (Nat.not_lt_zero _)
  | succ depth ih =>
    have hlast : (names ++ [name]).getLast? = some name := List.getLast?_concat ..
    -- in turn: the file is found, noted and entered, its text is read, and what it declares is converted
    refine shows_bind (shows_lift hchain fun f => isCycle_of_locate hlast) fun path hpath => ?_
    have hlocate : lib.locate (names ++ [name]) explicit = .ok path := mapError_eq_ok_iff.1 hpath
    refine shows_bind (shows_lift hchain nofun) fun _ _ => shows_insideFile ?_
    refine shows_reading hchain (hp _ ⟨_, explicit, hlast, hlocate⟩) fun longer henter => ?_
    have hlonger := hchain.enter henter
    refine shows_bind (shows_lift hlonger fun f => isCycle_of_load) fun body _ => ?_
    have hless : unread lib.store longer < unread lib.store chain :=
      unread_lt_of_enter (isFile_of_locate hlocate) henter
    exact shows_visitStmts hlonger (fun names name explicit line => ih hlonger (by omega)) _ body

/-- The file that a conversion starts in, if it is put on the chain. -/
def firstFrames (c : Conversion) (origin : Option FilePath) : Tree → List Frame
  | .file _ => []
  | .module_ .. => (origin.map (⟨·, c.rootName⟩)).toList

/-- A file that is read: the conversion starts in it, or it is found for a module. -/
def IsRead (c : Conversion) (lib : Library) (origin : Option FilePath) (t : Tree) (f : Frame) : Prop :=
  f ∈ c.firstFrames origin t ∨ Located lib f

/-- What is seen of the conversion of a tree when it is watched. -/
structure ReportsCycles (c : Conversion) (lib : Library) (origin : Option FilePath) (t : Tree) (r : Run Tree) :
    Prop where
  /-- Watching changes nothing. -/
  outcome : r.outcome = c.convert (some lib) origin t
  after : r.after.chain = []
  /-- The chain lists the files that are being read, by their real paths and in their order, none of them twice. -/
  lists : ∀ m ∈ r.moments, m.chain.Lists lib.store m.frames
  files : ∀ m ∈ r.moments, ∀ f ∈ m.frames ++ m.entering.toList, c.IsRead lib origin t f
  /-- The file that the conversion starts in is the outermost one. -/
  first : ∀ m ∈ r.moments.tail.dropLast, c.firstFrames origin t <+: m.frames
  /-- A file that is not being read already is read when it comes to it, however often it was read before. -/
  opens : Opens lib.store r.moments
  /-- A conversion fails over a cycle exactly if it comes to a file that is being read, and names its module. -/
  cycle : ∀ f, (r.outcome.result = .error f ∧ f.isCycle = true) ↔ ∃ m ∈ r.moments, m.Refuses lib.store f

/-- A complaint over a cycle has a file, and so stays what it is. -/
theorem shows_inFile {around : Surroundings} {α : Type} {x : Traced α} {r : Run α}
    (h : r.Shows store p frames around x) :
    Shows store p frames around (x.mapFailure (Failure.inFile around.file))
      { r with outcome := r.outcome.mapFailure (Failure.inFile r.after.file) } where
  outcome := by rw [h.outcome, h.after]
  after := h.after
  lists := h.lists
  within := h.within
  opens := h.opens
  cycle f := by
    constructor
    · rintro ⟨hf, hcycle⟩
      obtain ⟨e, he, rfl⟩ := mapError_eq_error_iff.1 hf
      rw [Failure.isCycle_inFile] at hcycle
      obtain ⟨m, hm, hrefuses⟩ := (h.cycle e).1 ⟨he, hcycle⟩
      exact ⟨m, hm, (hrefuses.inFile _).symm ▸ hrefuses⟩
    · rintro ⟨m, hm, hrefuses⟩
      exact ⟨mapError_eq_error_iff.2 ⟨f, ((h.cycle f).2 ⟨m, hm, hrefuses⟩).1, hrefuses.inFile _⟩, hrefuses.isCycle⟩

/-- Between the moments where a file is about to be read and where it no longer is, it is the outermost one. -/
theorem prefix_of_reading {α : Type} {y : Watched α} {path : FilePath} {name : String} {around : Surroundings}
    {x : Chain → Traced α} (h : ∀ longer, Library.enter store around.chain path name = .ok longer →
      (y (frames ++ [⟨path, name⟩]) { around with chain := longer }).Shows store p (frames ++ [⟨path, name⟩])
        { around with chain := longer } (x longer)) :
    ∀ m ∈ (y.reading store path name frames around).moments.tail.dropLast, frames ++ [⟨path, name⟩] <+: m.frames := by
  cases henter : Library.enter store around.chain path name with
  | error f =>
    rw [Watched.reading_barred henter]
    nofun
  | ok longer =>
    have hinner := h longer henter
    rw [Watched.reading_entered henter rfl hinner.after, List.cons_append, List.tail_cons, List.dropLast_concat]
    exact List.forall_mem_cons.2 ⟨List.prefix_rfl, fun m hm => (hinner.within m hm).isPrefix⟩

/-- Whatever is around a computation, it does not fail over a cycle. -/
def NeverCycles ⦃α : Type⦄ (x : ReaderT Surroundings Traced α) : Prop :=
  ∀ around f, (x around).result = .error f → f.isCycle = false

theorem neverCycles_bind {α β : Type} {x : ReaderT Surroundings Traced α} {g : α → ReaderT Surroundings Traced β}
    (hx : NeverCycles x) (hg : ∀ a, NeverCycles (g a)) : NeverCycles (x >>= g) := by
  intro around f h
  have hsequence : (x around >>= fun a => g a around).result = .error f := h
  rw [Traced.bind_result, bind_eq_error_iff] at hsequence
  rcases hsequence with h | ⟨a, -, h⟩
  · exact hx around f h
  · exact hg a around f h

theorem throughout_neverCycles (c : Conversion) : Throughout NeverCycles (c.reader noLibrary) where
  pure _ _ _ h := nomatch h
  bind := neverCycles_bind
  leave _ _ _ := isCycle_of_leave
  refuse _ _ _ _ := by rintro _ ⟨⟩; rfl
  inside _ _ _ h _ := h _
  load _ _ _ _ := by rintro _ ⟨⟩; rfl

/-- Without a library no files are read, and there are no cycles. -/
theorem isCycle_of_convert_none {origin : Option FilePath} {t : Tree} {f : Failure}
    (h : (c.convert none origin t).result = .error f) : f.isCycle = false := by
  obtain ⟨e, he, rfl⟩ := mapError_eq_error_iff.1 h
  rw [Failure.isCycle_inFile]
  rw [firstChain_none, Traced.bind_result, bind_eq_error_iff] at he
  rcases he with ⟨⟨⟩⟩ | ⟨_, ⟨⟩, he⟩
  rw [Traced.bind_result, bind_eq_error_iff] at he
  rcases he with he | ⟨_, -, ⟨⟩⟩
  rw [tailorStmts_eq_visitStmts] at he
  exact related_visitStmts c c.throughout_neverCycles t.body _ e he

/-- The conversion of a tree, once the chain is right at its start. -/
theorem shows_converted (c : Conversion) (lib : Library) (t : Tree) (hp : ∀ f, Located lib f → p f)
    (hchain : chain.Lists lib.store frames) (names : List String) (file : Option String) :
    Shows lib.store p frames ⟨names, file, chain⟩
      (do
        let body ← c.tailorStmts (c.fromLibrary lib (maxDepth lib)) ⟨names, file, chain⟩ t.body
        return (t.withBody body).finalize)
      ((do
        let body ← c.visitStmts (c.watcher (c.loadWatched lib (maxDepth lib))) t.body
        return (t.withBody body).finalize : Watched Tree) frames ⟨names, file, chain⟩) := by
  have hdepth : unread lib.store chain < maxDepth lib := Nat.lt_succ_of_le (unread_le lib.store chain)
  exact shows_bind (shows_visitStmts hchain (fun _ _ _ _ => shows_loadWatched hp hchain hdepth) names t.body)
    fun _ _ => shows_pure _

theorem shows_convertWatched (c : Conversion) (lib : Library) (origin : Option FilePath) (t : Tree)
    (names : List String) (file : Option String) :
    Shows lib.store (c.IsRead lib origin t) [] ⟨[c.rootName], origin.map FilePath.text, []⟩
        (c.convert (some lib) origin t) (c.convertWatched lib origin t [] ⟨names, file, []⟩) ∧
      ∀ m ∈ (c.convertWatched lib origin t [] ⟨names, file, []⟩).moments.tail.dropLast,
        c.firstFrames origin t <+: m.frames := by
  have hlocated : ∀ f, Located lib f → c.IsRead lib origin t f := fun _ => .inr
  have hconverted (frames : List Frame) (chain : Chain) (hchain : chain.Lists lib.store frames) :=
    c.shows_converted lib t hlocated hchain [c.rootName] (origin.map FilePath.text)
  cases t with
  | file body => exact ⟨shows_inFile (hconverted [] [] Chain.lists_nil), fun _ _ => List.nil_prefix⟩
  | module_ info name body =>
    cases origin with
    | none => exact ⟨shows_inFile (hconverted [] [] Chain.lists_nil), fun _ _ => List.nil_prefix⟩
    | some path =>
      have hfirst : c.IsRead lib (some path) (.module_ info name body) ⟨path, c.rootName⟩ :=
        .inl (List.mem_singleton_self _)
      have hread (longer : Chain) (henter : Library.enter lib.store [] path c.rootName = .ok longer) :=
        hconverted [⟨path, c.rootName⟩] longer (Chain.lists_nil.enter henter)
      exact ⟨shows_inFile (shows_reading Chain.lists_nil hfirst hread), prefix_of_reading hread⟩

/-- Cycles are reported exactly. At each moment of a conversion the chain lists the real paths of the files being read,
and it fails over a cycle if and only if it comes to a file with one of those paths, by whatever spelling or links; any
other file is read, also if it was read before. -/
theorem reportsCycles (c : Conversion) (lib : Library) (origin : Option FilePath) (t : Tree) (names : List String)
    (file : Option String) :
    c.ReportsCycles lib origin t (c.convertWatched lib origin t [] ⟨names, file, []⟩) ∧
      ∀ f, (c.convert none origin t).result = .error f → f.isCycle = false := by
  obtain ⟨hshows, hfirst⟩ := c.shows_convertWatched lib origin t names file
  refine ⟨⟨hshows.outcome, ?_, hshows.lists, ?_, hfirst, hshows.opens, hshows.cycle⟩, fun f =>
    isCycle_of_convert_none⟩
  · rw [hshows.after]
  · intro m hm
    obtain ⟨inner, hframes, hread⟩ := hshows.within m hm
    rwa [hframes, List.nil_append]

/-- A module in a file that is a link to that of the root module is refused when it is about to be read. -/
example :
    let store : Store := ⟨[(["a.py"], .file ⟨#[]⟩), (["b.py"], .link ⟨.slash, ["a.py"]⟩)]⟩
    let declared : Stmt := .block ⟨Span.unset, [⟨"amphi-path", "b.py", 1⟩]⟩ (.module_ "m") []
    let run := convertWatched ⟨.blocking, "a", none⟩ ⟨store, ⟨.slash, []⟩⟩ (some ⟨.slash, ["a.py"]⟩)
      (.module_ ⟨Span.unset, []⟩ "a" [declared]) [] ⟨[], none, []⟩
    run.outcome.result = .error (.complaint (.cycle "a" ["/a.py", "/a.py"]) (some "/b.py") none) ∧
      run.moments.map (fun m => (m.chain.map Prod.snd, m.entering.map Frame.name)) =
        [([], some "a"), (["a"], none), (["a"], none), (["a"], none), (["a"], some "m"), ([], none)] := by
  constructor <;> cbv

end Conversion

end TwinModule
