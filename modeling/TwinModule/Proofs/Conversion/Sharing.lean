import TwinModule.Proofs.Conversion.Visitor
/-!
Conversions with a state: the modules around, the file, and the files being read, which are put down where they begin
and taken off where they end, also when what is between them fails. Each conversion leaves the files being read as it
found them, so conversions one after the other can share them.
-/
set_option autoImplicit false

namespace TwinModule

/-- A computation that changes where a conversion is. -/
def Shared (α : Type) : Type := Surroundings → Traced α × Surroundings

namespace Shared

variable {α β : Type}

protected def pure (a : α) : Shared α := fun state => (pure a, state)

/-- What a computation that fails has changed stays changed. -/
protected def bind (x : Shared α) (f : α → Shared β) : Shared β := fun state =>
  let (first, between) := x state
  match first.result with
  | .ok a =>
    let (rest, after) := f a between
    (⟨first.notes ++ rest.notes, rest.result⟩, after)
  | .error e => (⟨first.notes, .error e⟩, between)

instance : Monad Shared where
  pure := Shared.pure
  bind := Shared.bind

def lift (x : Traced α) : Shared α := fun state => (x, state)

/-- Changes the state before a computation and back after it, whether it fails or not. -/
def during (enter leave : Surroundings → Surroundings) (x : Shared α) : Shared α := fun state =>
  let (result, between) := x (enter state)
  (result, leave between)

def insideModule (name : String) (x : Shared α) : Shared α :=
  x.during (fun s => { s with modulePath := s.modulePath ++ [name] })
    (fun s => { s with modulePath := s.modulePath.dropLast })

def insideFile (path : FilePath) (x : Shared α) : Shared α := fun state =>
  x.during (fun s => { s with file := some path.text }) (fun s => { s with file := state.file }) state

/-- Puts a file on the chain of those being read for a computation, and takes it off by its real path. -/
def reading (store : Store) (path : FilePath) (name : String) (x : Shared α) : Shared α := fun state =>
  match store.realPath path with
  | .error stuck => (Traced.fail (.linkCircle stuck), state)
  | .ok real =>
    match Library.enter store state.chain path name with
    | .error f => (Traced.fail f, state)
    | .ok longer =>
      x.during (fun s => { s with chain := longer }) (fun s => { s with chain := s.chain.filter (·.1 ≠ real) }) state

/-- A computation with a state gives what one gives that is handed it down, and leaves it as it was. -/
def Restores ⦃α : Type⦄ (x : ReaderT Surroundings Traced α) (y : Shared α) : Prop :=
  ∀ around, y around = (x around, around)

variable {x : ReaderT Surroundings Traced α} {y : Shared α}

theorem restores_lift (x : Traced α) : Restores (fun _ => x) (lift x) := fun _ => rfl

theorem restores_bind {f : α → ReaderT Surroundings Traced β} {g : α → Shared β} (h : Restores x y)
    (hf : ∀ a, Restores (f a) (g a)) : Restores (x >>= f) (y >>= g) := by
  intro around
  show Shared.bind y g around = (x around >>= fun a => f a around, around)
  rw [Shared.bind, h around]
  cases hx : x around with
  | mk ns r =>
    cases r with
    | error e => rfl
    | ok a =>
      simp only [hf a around]
      rfl

theorem restores_insideModule (name : String) (h : Restores x y) :
    Restores (fun around => x { around with modulePath := around.modulePath ++ [name] }) (y.insideModule name) := by
  intro around
  simp only [insideModule, during, h _, List.dropLast_concat]

theorem restores_insideFile (path : FilePath) (h : Restores x y) :
    Restores (fun around => x { around with file := some path.text }) (y.insideFile path) := by
  intro around
  simp only [insideFile, during, h _]

theorem restores_reading (store : Store) (path : FilePath) (name : String) (h : Restores x y) :
    Restores (fun around => Traced.ofExcept (Library.enter store around.chain path name) >>= fun chain =>
      x { around with chain }) (y.reading store path name) := by
  intro around
  cases hreal : store.realPath path with
  | error stuck => simp [reading, Library.enter, hreal, Traced.ofExcept, Traced.fail]
  | ok real =>
    simp only [reading, hreal]
    cases henter : Library.enter store around.chain path name with
    | error f => rfl
    | ok longer =>
      obtain ⟨real', hreal', hnone, rfl⟩ := Library.enter_eq_ok henter
      obtain rfl : real = real' := Except.ok.inj (hreal.symm.trans hreal')
      simp only [during, h _, Library.filter_enter name hnone]
      rfl

/-- A computation comes out as without a state, and no files are being read after it if none were before. -/
def Frees (x : Traced α) (y : Shared α) : Prop :=
  ∀ state : Surroundings, state.chain = [] → (y state).1 = x ∧ (y state).2.chain = []

theorem frees_lift (x : Traced α) : Frees x (lift x) := fun _ h => ⟨rfl, h⟩

theorem frees_bind {x : Traced α} {y : Shared α} {f : α → Traced β} {g : α → Shared β} (h : Frees x y)
    (hf : ∀ a, Frees (f a) (g a)) : Frees (x >>= f) (y >>= g) := by
  intro state hstate
  obtain ⟨hx, hbetween⟩ := h state hstate
  show (Shared.bind y g state).1 = _ ∧ (Shared.bind y g state).2.chain = []
  cases hy : y state with
  | mk first between =>
    rw [hy] at hx hbetween
    subst hx
    obtain ⟨ns, r⟩ := first
    cases r with
    | error e => simpa only [Shared.bind, hy] using ⟨rfl, hbetween⟩
    | ok a =>
      obtain ⟨hrest, hafter⟩ := hf a between hbetween
      simp only [Shared.bind, hy, hafter, and_true]
      rw [Traced.bind_ok, ← hrest]

end Shared

namespace Conversion

open Shared

/-- A conversion as a walk with a state. -/
def sharer (c : Conversion) (load : String → Option String → Option Nat → Shared (List Stmt)) : Visitor Shared where
  leave s := lift (c.leave s)
  refuse name path line := lift (Traced.fail (.complaint (.bodyAndPath name path) none line))
  inside name x := x.insideModule name
  load := load

/-- Modules from a library, the file they are in and those being read being kept in the state. -/
def loadShared (c : Conversion) (lib : Library) :
    (depth : Nat) → String → Option String → Option Nat → Shared (List Stmt)
  | 0, name, _, line => fun state =>
    (Traced.fail (.complaint (.cycle name (state.chain.map fun e => e.1.text)) state.file line), state)
  | depth + 1, name, explicit, line => fun state =>
    let filled : Shared (List Stmt) := do
      let path ← lift (Traced.ofExcept ((lib.locate state.modulePath explicit).mapError (missedAt state line)))
      lift (Traced.note (.resolved state.modulePath path))
      insideFile path (reading lib.store path name do
        let body ← lift (Traced.ofExcept (Library.load lib.store path name))
        c.visitStmts (c.sharer (loadShared c lib depth)) body)
    filled state

theorem related_restores (c : Conversion) {load : Loader}
    {loadShared : String → Option String → Option Nat → Shared (List Stmt)}
    (h : ∀ name explicit line, Restores (fun around => load around name explicit line) (loadShared name explicit line)) :
    Related Restores (c.reader load) (c.sharer loadShared) where
  pure _ _ := rfl
  bind hx hf := restores_bind hx hf
  leave _ _ := rfl
  refuse _ _ _ _ := rfl
  inside name _ _ hx := restores_insideModule name hx
  load name explicit line := restores_insideModule name (h name explicit line)

theorem restores_tailorStmts (c : Conversion) {load : Loader}
    {loadShared : String → Option String → Option Nat → Shared (List Stmt)}
    (h : ∀ name explicit line, Restores (fun around => load around name explicit line) (loadShared name explicit line))
    (ss : List Stmt) : Restores (fun around => c.tailorStmts load around ss) (c.visitStmts (c.sharer loadShared) ss) := by
  simp only [tailorStmts_eq_visitStmts]
  exact related_visitStmts c (c.related_restores h) ss

/-- Filling in a module from a file leaves the modules around, the file and the files being read as they were. -/
theorem restores_fromLibrary (c : Conversion) (lib : Library) (depth : Nat) (name : String) (explicit : Option String)
    (line : Option Nat) :
    Restores (fun around => c.fromLibrary lib depth around name explicit line)
      (c.loadShared lib depth name explicit line) := by
  induction depth generalizing name explicit line with
  | zero => exact fun _ => rfl
  | succ depth ih =>
    intro around
    have hbody (path : FilePath) := restores_insideFile path (restores_reading lib.store path name (restores_bind
      (restores_lift (Traced.ofExcept (Library.load lib.store path name))) fun body => c.restores_tailorStmts ih body))
    have hall := restores_bind
      (restores_lift (Traced.ofExcept ((lib.locate around.modulePath explicit).mapError (missedAt around line))))
      fun path => restores_bind (restores_lift (Traced.note (.resolved around.modulePath path))) fun _ => hbody path
    exact hall around

/-- A conversion with a state. What was left of another conversion is overwritten, the files being read are not. -/
def convertShared (c : Conversion) (lib : Library) (origin : Option FilePath) (t : Tree) : Shared Tree := fun state =>
  let file := origin.map FilePath.text
  let converted : Shared Tree := do
    let body ← c.visitStmts (c.sharer (c.loadShared lib (maxDepth lib))) t.body
    return (t.withBody body).finalize
  let started : Shared Tree :=
    match t, origin with
    | .module_ .., some path => reading lib.store path c.rootName converted
    | _, _ => converted
  let (result, after) := started { state with modulePath := [c.rootName], file }
  (result.mapFailure (Failure.inFile after.file), after)

/-- A conversion with a state leaves it at the root module and in the file of the tree, with the files being read as it
found them. Nothing else in the state has a part in what comes of it. -/
theorem convertShared_eq (c : Conversion) (lib : Library) (origin : Option FilePath) (t : Tree) :
    ∃ x : Chain → Traced Tree, x [] = c.convert (some lib) origin t ∧ ∀ state, c.convertShared lib origin t state =
      (x state.chain, ⟨[c.rootName], origin.map FilePath.text, state.chain⟩) := by
  let converted : ReaderT Surroundings Traced Tree :=
    (fun around => c.tailorStmts (c.fromLibrary lib (maxDepth lib)) around t.body) >>= fun body =>
      pure (t.withBody body).finalize
  have hconverted := restores_bind (c.restores_tailorStmts (c.restores_fromLibrary lib (maxDepth lib)) t.body)
    fun body => restores_lift (pure (t.withBody body).finalize)
  let start (chain : Chain) : Surroundings := ⟨[c.rootName], origin.map FilePath.text, chain⟩
  let inFile (r : Traced Tree × Surroundings) := (r.1.mapFailure (Failure.inFile r.2.file), r.2)
  -- where nothing is put on the chain, the tree is converted at once
  have hatOnce (state : Surroundings) := congrArg inFile (hconverted (start state.chain))
  cases t with
  | file body => exact ⟨fun chain => (inFile (converted (start chain), start chain)).1, rfl, hatOnce⟩
  | module_ info name body =>
    cases origin with
    | none => exact ⟨fun chain => (inFile (converted (start chain), start chain)).1, rfl, hatOnce⟩
    | some path =>
      have hread := restores_reading lib.store path c.rootName hconverted
      let read : ReaderT Surroundings Traced Tree := fun around =>
        Traced.ofExcept (Library.enter lib.store around.chain path c.rootName) >>= fun chain =>
          converted { around with chain }
      exact ⟨fun chain => (inFile (read (start chain), start chain)).1, rfl,
        fun state => congrArg inFile (hread (start state.chain))⟩

/-- With no files being read before, a conversion with a state is a conversion, and no files are being read after it. -/
theorem frees_convertShared (c : Conversion) (lib : Library) (origin : Option FilePath) (t : Tree) :
    Frees (c.convert (some lib) origin t) (c.convertShared lib origin t) := by
  obtain ⟨x, hx, hshared⟩ := c.convertShared_eq lib origin t
  rintro ⟨names, file, chain⟩ ⟨⟩
  rw [hshared, hx]
  exact ⟨rfl, rfl⟩

end Conversion

end TwinModule
