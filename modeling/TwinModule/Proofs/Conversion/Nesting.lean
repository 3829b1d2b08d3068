import TwinModule.Proofs.Conversion.Declared
import TwinModule.Proofs.Conversion.Visitor
/-!
Where modules are looked for. A module in a file is looked for by the names of the modules around it, those in its own
text and those whose files are being read, whatever else was converted before it. The names are part of a state: each is
added where a module begins and taken off where it ends, also when it fails.
-/
set_option autoImplicit false

namespace TwinModule

/-- The lookups of a computation, what comes of it, and where it leaves the conversion. -/
structure Searched (α : Type) where
  lookups : List Lookup
  outcome : Traced α
  after : Surroundings

/-- A computation that changes where a conversion is and looks for files. -/
def Search (α : Type) : Type := Surroundings → Searched α

/-- What is done to the state before a computation, if that does not fail, and what is done to it after. -/
def Bracket : Type := Surroundings → Except Failure (Surroundings × (Surroundings → Surroundings))

namespace Bracket

def inModule (name : String) : Bracket := fun state =>
  .ok ({ state with modulePath := state.modulePath ++ [name] },
    fun s => { s with modulePath := s.modulePath.dropLast })

def inFile (path : FilePath) : Bracket := fun state =>
  .ok ({ state with file := some path.text }, fun s => { s with file := state.file })

/-- A file is put on the chain of those being read, and taken off by its real path. -/
def reading (store : Store) (path : FilePath) (name : String) : Bracket := fun state => do
  let real ← (store.realPath path).mapError .linkCircle
  let longer ← Library.enter store state.chain path name
  return ({ state with chain := longer }, fun s => { s with chain := s.chain.filter (·.1 ≠ real) })

variable {store : Store} {path : FilePath} {name : String} {state : Surroundings}

theorem reading_barred {f : Failure} (h : Library.enter store state.chain path name = .error f) :
    reading store path name state = .error f := by
  cases hreal : store.realPath path with
  | error stuck =>
    have hf : .linkCircle stuck = f := by simpa [Library.enter, hreal] using h
    rw [reading, hreal, ← hf]
    rfl
  | ok real =>
    rw [reading, hreal, h]
    rfl

theorem reading_entered {longer : Chain} (h : Library.enter store state.chain path name = .ok longer) :
    ∃ leave, reading store path name state = .ok ({ state with chain := longer }, leave) ∧
      leave { state with chain := longer } = state := by
  obtain ⟨real, hreal, hlookup, rfl⟩ := Library.enter_eq_ok h
  refine ⟨fun s => { s with chain := s.chain.filter (·.1 ≠ real) }, ?_, ?_⟩
  · rw [reading, hreal, h]
    rfl
  · simp only [Library.filter_enter name hlookup]

end Bracket

namespace Search

variable {α β : Type}

protected def pure (a : α) : Search α := fun state => ⟨[], pure a, state⟩

/-- What a computation that fails has changed stays changed. -/
protected def bind (x : Search α) (f : α → Search β) : Search β := fun state =>
  let first := x state
  match first.outcome.result with
  | .ok a =>
    let rest := f a first.after
    ⟨first.lookups ++ rest.lookups, ⟨first.outcome.notes ++ rest.outcome.notes, rest.outcome.result⟩, rest.after⟩
  | .error e => ⟨first.lookups, ⟨first.outcome.notes, .error e⟩, first.after⟩

instance : Monad Search where
  pure := Search.pure
  bind := Search.bind

def lift (x : Traced α) : Search α := fun state => ⟨[], x, state⟩

/-- The state is changed back after a computation whether it fails or not. -/
def within (b : Bracket) (x : Search α) : Search α := fun state =>
  match b state with
  | .error f => ⟨[], Traced.fail f, state⟩
  | .ok (entered, leave) =>
    let run := x entered
    { run with after := leave run.after }

/-- Looks for the file of the module that the state is in. -/
def locate (lib : Library) (explicit : Option String) (line : Option Nat) : Search FilePath := fun state =>
  ⟨[⟨state.modulePath, explicit⟩],
    Traced.ofExcept ((lib.locate state.modulePath explicit).mapError (Conversion.missedAt state line)), state⟩

end Search

namespace Conversion

open Search

/-- A conversion as a walk that looks for files. -/
def searcher (c : Conversion) (load : String → Option String → Option Nat → Search (List Stmt)) : Visitor Search where
  leave s := lift (c.leave s)
  refuse name path line := lift (Traced.fail (.complaint (.bodyAndPath name path) none line))
  inside name x := x.within (.inModule name)
  load := load

/-- Converts the text of a file that has been found for a module. -/
def fill (c : Conversion) (lib : Library) (load : String → Option String → Option Nat → Search (List Stmt))
    (path : FilePath) (name : String) : Search (List Stmt) :=
  within (.inFile path) (within (.reading lib.store path name) do
    let body ← lift (Traced.ofExcept (Library.load lib.store path name))
    c.visitStmts (c.searcher load) body)

/-- Modules from a library, the modules around, the file and those being read being kept in the state. -/
def loadSearch (c : Conversion) (lib : Library) :
    (depth : Nat) → String → Option String → Option Nat → Search (List Stmt)
  | 0, name, _, line => fun state =>
    ⟨[], Traced.fail (.complaint (.cycle name (state.chain.map fun e => e.1.text)) state.file line), state⟩
  | depth + 1, name, explicit, line => fun state =>
    let filled : Search (List Stmt) := do
      let path ← Search.locate lib explicit line
      lift (Traced.note (.resolved state.modulePath path))
      c.fill lib (loadSearch c lib depth) path name
    filled state

/-- A conversion that looks for files. What was left of another conversion is overwritten, the chain is not. -/
def convertSearch (c : Conversion) (lib : Library) (origin : Option FilePath) (t : Tree) : Search Tree := fun state =>
  let file := origin.map FilePath.text
  let converted : Search Tree := do
    let body ← c.visitStmts (c.searcher (c.loadSearch lib (maxDepth lib))) t.body
    return (t.withBody body).finalize
  let started : Search Tree :=
    match t, origin with
    | .module_ .., some path => within (.reading lib.store path c.rootName) converted
    | _, _ => converted
  let run := started { state with modulePath := [c.rootName], file }
  { run with outcome := run.outcome.mapFailure (Failure.inFile run.after.file) }

end Conversion

/-- A computation that looks for files comes out as one that does not show it, and restores the state. What it looks for
are modules that are declared inside those around. -/
structure Searched.Shows {α : Type} (v : Variant) (lib : Library) (ds : List Declared) (around : Surroundings)
    (x : Traced α) (r : Searched α) : Prop where
  outcome : r.outcome = x
  after : r.after = around
  lookups : LooksUp v lib around.modulePath ds r.lookups x.result.isOk

section

variable {α β : Type} {v : Variant} {lib : Library} {ds es : List Declared} {around : Surroundings}

namespace Searched

theorem shows_pure (a : α) : Shows v lib [] around (pure a) ((pure a : Search α) around) := ⟨rfl, rfl, .done _⟩

theorem shows_bind {x : Traced α} {y : Search α} {f : α → Traced β} {g : α → Search β}
    (h : (y around).Shows v lib ds around x) (hf : ∀ a, (g a around).Shows v lib es around (f a)) :
    ((y >>= g) around).Shows v lib (ds ++ es) around (x >>= f) := by
  show (Search.bind y g around).Shows v lib (ds ++ es) around (x >>= f)
  generalize hy : y around = first at h
  obtain ⟨ls, ⟨ns, r⟩, after⟩ := first
  obtain rfl : ⟨ns, r⟩ = x := h.outcome
  obtain rfl : after = around := h.after
  cases r with
  | error e =>
    simp only [Search.bind, hy]
    exact ⟨rfl, rfl, h.lookups.cut es⟩
  | ok a =>
    have hrest := hf a
    simp only [Search.bind, hy]
    refine ⟨?_, hrest.after, h.lookups.append hrest.lookups⟩
    simp only [hrest.outcome, Traced.bind_ok]

/-- What is given back without looking for anything does not change what is looked for. -/
theorem shows_bind_pure {x : Traced α} {y : Search α} {g : α → β} (h : (y around).Shows v lib ds around x) :
    ((y >>= fun a => pure (g a)) around).Shows v lib ds around (x >>= fun a => pure (g a)) := by
  have hpure (a : α) : Shows v lib [] around (pure (g a)) ((pure (g a) : Search β) around) := shows_pure (g a)
  have hall := shows_bind h hpure
  rwa [List.append_nil] at hall

/-- What fails has looked for nothing. -/
theorem shows_stop {f : Failure} (ds : List Declared) :
    Shows v lib ds around (Traced.fail f : Traced α) ⟨[], Traced.fail f, around⟩ := ⟨rfl, rfl, .stop _ ds⟩

/-- A module is left again after a computation in it, whatever that looks for. -/
theorem shows_aroundModule {name : String} {x : Traced α} {y : Search α}
    (houtcome : (y { around with modulePath := around.modulePath ++ [name] }).outcome = x)
    (hafter : (y { around with modulePath := around.modulePath ++ [name] }).after =
      { around with modulePath := around.modulePath ++ [name] })
    (hlookups : LooksUp v lib around.modulePath ds
      (y { around with modulePath := around.modulePath ++ [name] }).lookups x.result.isOk) :
    (y.within (.inModule name) around).Shows v lib ds around x where
  outcome := houtcome
  after := by simp only [Search.within, Bracket.inModule, hafter, List.dropLast_concat]
  lookups := hlookups

theorem shows_inModule {name : String} {x : Traced α} {y : Search α}
    (h : (y { around with modulePath := around.modulePath ++ [name] }).Shows v lib ds
      { around with modulePath := around.modulePath ++ [name] } x) :
    (y.within (.inModule name) around).Shows v lib (ds.map (Declared.inside name)) around x :=
  shows_aroundModule h.outcome h.after h.lookups.inside

/-- What does not change the modules around is looked into with the same ones. -/
theorem shows_within {b : Bracket} {entered : Surroundings} {leave : Surroundings → Surroundings} {x : Traced α}
    {y : Search α} (hb : b around = .ok (entered, leave)) (hleave : leave entered = around)
    (hnames : entered.modulePath = around.modulePath) (h : (y entered).Shows v lib ds entered x) :
    (y.within b around).Shows v lib ds around x := by
  simp only [Search.within, hb]
  exact ⟨h.outcome, by rw [h.after, hleave], hnames ▸ h.lookups⟩

theorem shows_reading {path : FilePath} {name : String} {x : Chain → Traced α} {y : Search α}
    (h : ∀ longer, Library.enter lib.store around.chain path name = .ok longer →
      (y { around with chain := longer }).Shows v lib ds { around with chain := longer } (x longer)) :
    (y.within (.reading lib.store path name) around).Shows v lib ds around
      (Traced.ofExcept (Library.enter lib.store around.chain path name) >>= x) := by
  cases henter : Library.enter lib.store around.chain path name with
  | error f =>
    simp only [Search.within, Bracket.reading_barred henter]
    exact shows_stop ds
  | ok longer =>
    obtain ⟨leave, hreading, hleave⟩ := Bracket.reading_entered henter
    exact shows_within hreading hleave rfl (h longer henter)

end Searched

end

namespace Conversion

open Searched

section

variable {c : Conversion} {lib : Library} {load : Loader}
  {loadSearch : String → Option String → Option Nat → Search (List Stmt)}

/-- Nothing is looked for in statements for the other variant. -/
theorem searched_of_own {s : Stmt} {around : Surroundings}
    (h : s.isFor c.variant.other = false → (c.visit (c.searcher loadSearch) s around).Shows c.variant lib
      (s.declared c.variant) around (c.tailor load around s)) :
    (c.visit (c.searcher loadSearch) s around).Shows c.variant lib (s.declared c.variant) around
      (c.tailor load around s) := by
  cases hf : s.isFor c.variant.other with
  | false => exact h hf
  | true =>
    rw [visit_of_other c _ hf, tailor_of_other hf, declared_of_other hf]
    exact ⟨rfl, rfl, .done _⟩

/-- A loader looks for the module that it is to load, and for what is declared in its file. -/
def LooksFor (c : Conversion) (lib : Library) (load : Loader)
    (loadSearch : String → Option String → Option Nat → Search (List Stmt)) : Prop :=
  ∀ around name explicit line, Shows c.variant lib [⟨[], name, explicit⟩] around
    (load { around with modulePath := around.modulePath ++ [name] } name explicit line)
    ((loadSearch name explicit line).within (.inModule name) around)

mutual

/-- A walk looks for the modules that a tree declares if it does at each of them. -/
theorem searched_visit (h : c.LooksFor lib load loadSearch) : (s : Stmt) → (around : Surroundings) →
    (c.visit (c.searcher loadSearch) s around).Shows c.variant lib (s.declared c.variant) around
      (c.tailor load around s)
  | .comment k, around => by
    rw [tailor, visit, Stmt.declared]
    exact shows_pure _
  | .simple info what, around => searched_of_own fun hf => by
    replace hf : info.tags.any (Tag.names c.variant.other) = false := hf
    simp only [tailor, visit, keptTags_of_own hf, Stmt.declared]
    exact shows_pure _
  | .block info head body, around => searched_of_own fun hf => by
    have hbody := searched_visitStmts h body
    replace hf : info.tags.any (Tag.names c.variant.other) = false := hf
    cases head with
    | module_ name =>
      simp only [tailor, visit, keptTags_of_own hf, Stmt.declared, hf]
      cases isInline body with
      | true =>
        cases (Tag.take Tag.sourceFamily (info.tags.filter fun t => !t.names c.variant)).1 with
        | some path => exact shows_stop _
        | none => exact shows_bind_pure (shows_inModule (hbody _))
      | false =>
        -- the tags for the variant are gone, but none of them is for a file
        have htake : (Tag.take Tag.sourceFamily (info.tags.filter fun t => !t.names c.variant)).1 = _ :=
          c.take_source_untagged info
        rw [← htake]
        exact shows_bind_pure (h around name _ info.span.line)
    | _ =>
      simp only [tailor, visit, keptTags_of_own hf, Stmt.declared, hf]
      exact shows_bind_pure (hbody around)
  | .branch info head body orelse, around => searched_of_own fun hf => by
    replace hf : info.tags.any (Tag.names c.variant.other) = false := hf
    simp only [tailor, visit, keptTags_of_own hf, Stmt.declared, hf]
    exact shows_bind (searched_visitStmts h body around) fun _ => shows_bind_pure (searched_visitStmts h orelse around)
  | .attempt info isGroup body handlers orelse finalbody, around => searched_of_own fun hf => by
    replace hf : info.tags.any (Tag.names c.variant.other) = false := hf
    simp only [tailor, visit, keptTags_of_own hf, Stmt.declared, hf]
    exact shows_bind (searched_visitStmts h body around) fun _ =>
      shows_bind (searched_visitHandlers h handlers around) fun _ =>
        shows_bind (searched_visitStmts h orelse around) fun _ => shows_bind_pure (searched_visitStmts h finalbody around)
  | .select info subject cases, around => searched_of_own fun hf => by
    replace hf : info.tags.any (Tag.names c.variant.other) = false := hf
    simp only [tailor, visit, keptTags_of_own hf, Stmt.declared, hf]
    exact shows_bind_pure (searched_visitCases h cases around)
termination_by structural s => s

theorem searched_visitStmts (h : c.LooksFor lib load loadSearch) : (ss : List Stmt) → (around : Surroundings) →
    (c.visitStmts (c.searcher loadSearch) ss around).Shows c.variant lib (declaredIn c.variant ss) around
      (c.tailorStmts load around ss)
  | [], around => by
    rw [tailorStmts, visitStmts, declaredIn]
    exact shows_pure _
  | s :: ss, around => by
    rw [tailorStmts, visitStmts, declaredIn]
    exact shows_bind (searched_visit h s around) fun _ => shows_bind_pure (searched_visitStmts h ss around)
termination_by structural ss => ss

theorem searched_visitHandlers (h : c.LooksFor lib load loadSearch) : (hs : List Handler) → (around : Surroundings) →
    (c.visitHandlers (c.searcher loadSearch) hs around).Shows c.variant lib (declaredInHandlers c.variant hs) around
      (c.tailorHandlers load around hs)
  | [], around => by
    rw [tailorHandlers, visitHandlers, declaredInHandlers]
    exact shows_pure _
  | .comment k :: hs, around => by
    rw [tailorHandlers, visitHandlers, declaredInHandlers]
    exact shows_bind_pure (searched_visitHandlers h hs around)
  | .handler span type name body :: hs, around => by
    rw [tailorHandlers, visitHandlers, declaredInHandlers]
    exact shows_bind (searched_visitStmts h body around) fun _ => shows_bind_pure (searched_visitHandlers h hs around)
termination_by structural hs => hs

theorem searched_visitCases (h : c.LooksFor lib load loadSearch) : (cs : List Case) → (around : Surroundings) →
    (c.visitCases (c.searcher loadSearch) cs around).Shows c.variant lib (declaredInCases c.variant cs) around
      (c.tailorCases load around cs)
  | [], around => by
    rw [tailorCases, visitCases, declaredInCases]
    exact shows_pure _
  | .comment k :: cs, around => by
    rw [tailorCases, visitCases, declaredInCases]
    exact shows_bind_pure (searched_visitCases h cs around)
  | .case lines pattern guard body :: cs, around => by
    rw [tailorCases, visitCases, declaredInCases]
    exact shows_bind (searched_visitStmts h body around) fun _ => shows_bind_pure (searched_visitCases h cs around)
termination_by structural cs => cs

end

end

section

variable {c : Conversion} {lib : Library} {depth : Nat} {around : Surroundings} {name : String}
  {explicit : Option String} {line : Option Nat}

theorem loadSearch_missed {f : Failure} (h : lib.locate around.modulePath explicit = .error f) :
    c.loadSearch lib (depth + 1) name explicit line around =
      ⟨[⟨around.modulePath, explicit⟩], Traced.fail (missedAt around line f), around⟩ := by
  show Search.bind (Search.locate lib explicit line) _ around = _
  simp only [Search.bind, Search.locate, h]
  rfl

theorem loadSearch_found {path : FilePath} (h : lib.locate around.modulePath explicit = .ok path) :
    c.loadSearch lib (depth + 1) name explicit line around =
      let filled := c.fill lib (c.loadSearch lib depth) path name around
      ⟨⟨around.modulePath, explicit⟩ :: filled.lookups,
        ⟨.resolved around.modulePath path :: filled.outcome.notes, filled.outcome.result⟩, filled.after⟩ := by
  show Search.bind (Search.locate lib explicit line) _ around = _
  simp only [Search.bind, Search.locate, h]
  rfl

/-- What comes of a file that has been found for a module. -/
def filled (c : Conversion) (lib : Library) (load : Loader) (path : FilePath) (name : String) (around : Surroundings) :
    Traced (List Stmt) := do
  let chain ← Traced.ofExcept (Library.enter lib.store around.chain path name)
  let body ← Traced.ofExcept (Library.load lib.store path name)
  c.tailorStmts load ⟨around.modulePath, some path.text, chain⟩ body

variable {load : Loader} {loadSearch : String → Option String → Option Nat → Search (List Stmt)} {path : FilePath}

/-- In a file that can be read, what its text declares is looked for, and in any other nothing is. -/
theorem searched_fill (h : c.LooksFor lib load loadSearch) (path : FilePath) (name : String) (around : Surroundings) :
    (c.fill lib loadSearch path name around).Shows c.variant lib
      (match Library.load lib.store path name with
        | .ok body => declaredIn c.variant body
        | .error _ => [])
      around (c.filled lib load path name around) := by
  refine shows_within rfl rfl rfl (shows_reading fun longer _ => ?_)
  cases Library.load lib.store path name with
  | error f => exact shows_stop []
  | ok body => exact searched_visitStmts h body _

/-- A module that is looked for, and what its file declares, if it can be read. -/
theorem lookups_found {names : List String} {d : Declared} {ls : List Lookup}
    (hlocate : lib.locate (names ++ d.path) d.explicit = .ok path)
    (h : LooksUp c.variant lib (names ++ d.path)
      (match Library.load lib.store path d.name with
        | .ok body => declaredIn c.variant body
        | .error _ => [])
      ls (c.filled lib load path d.name around).result.isOk) :
    LooksUp c.variant lib names [d] (d.lookup names :: ls) (c.filled lib load path d.name around).result.isOk := by
  cases hload : Library.load lib.store path d.name with
  | ok body =>
    rw [hload] at h
    exact LooksUp.one hlocate hload h
  | error f =>
    have hfails : (c.filled lib load path d.name around).result.isOk = false := by
      rw [filled, hload]
      cases Library.enter lib.store around.chain path d.name <;> rfl
    rw [hload] at h
    rw [h.eq_nil, hfails]
    exact .miss names d []

end

/-- Loading a module looks for it by the names around it and its own, and reads what its file declares inside it. -/
theorem looksFor_loadSearch (c : Conversion) (lib : Library) (depth : Nat) :
    c.LooksFor lib (c.fromLibrary lib depth) (c.loadSearch lib depth) := by
  induction depth with
  | zero =>
    intro around name explicit line
    exact shows_aroundModule rfl rfl (.stop _ _)
  | succ depth ih =>
    intro around name explicit line
    let d : Declared := ⟨[], name, explicit⟩
    cases hlocate : lib.locate (around.modulePath ++ d.path) explicit with
    | error f =>
      rw [fromLibrary_missing hlocate]
      refine shows_aroundModule ?_ ?_ ?_ <;> rw [loadSearch_missed hlocate]
      exact .miss around.modulePath d []
    | ok path =>
      have hfill := searched_fill ih path name { around with modulePath := around.modulePath ++ d.path }
      rw [fromLibrary_located hlocate]
      refine shows_aroundModule ?_ ?_ ?_ <;> rw [loadSearch_found hlocate]
      · exact congrArg (fun x : Traced (List Stmt) => Traced.mk (_ :: x.notes) x.result) hfill.outcome
      · exact hfill.after
      · exact lookups_found hlocate hfill.lookups

/-- What a conversion looks for. -/
structure LooksUpNested (c : Conversion) (lib : Library) (origin : Option FilePath) (t : Tree) (r : Searched Tree) :
    Prop where
  /-- Showing what it looks for changes nothing. -/
  outcome : r.outcome = c.convert (some lib) origin t
  /-- Modules are looked for in turn, each one inside those around it, whatever came before it. -/
  inTurn : LooksUp c.variant lib [c.rootName] (declaredIn c.variant t.body) r.lookups r.outcome.result.isOk
  /-- Each time, a module is looked for by the names of all modules around it and its own. -/
  nested : ∀ l ∈ r.lookups, ∃ around d, Encloses c lib t around d ∧ l = d.lookup (c.namesOf around)
  /-- If nothing fails, all modules in files are looked for. -/
  complete : r.outcome.result.isOk = true → ∀ around d, Encloses c lib t around d →
    d.lookup (c.namesOf around) ∈ r.lookups

/-- Failures that are put into the file they come from are failures still. -/
theorem searched_mapFailure {v : Variant} {lib : Library} {ds : List Declared} {around : Surroundings} {α : Type}
    {x : Traced α} {r : Searched α} (h : r.Shows v lib ds around x) :
    Shows v lib ds around (x.mapFailure (Failure.inFile around.file))
      { r with outcome := r.outcome.mapFailure (Failure.inFile r.after.file) } where
  outcome := by rw [h.outcome, h.after]
  after := h.after
  lookups := by
    have hok : (x.mapFailure (Failure.inFile around.file)).result.isOk = x.result.isOk := by
      obtain ⟨ns, r⟩ := x
      cases r <;> rfl
    rw [hok]
    exact h.lookups

theorem searched_convertSearch (c : Conversion) (lib : Library) (origin : Option FilePath) (t : Tree)
    (names : List String) (file : Option String) :
    (c.convertSearch lib origin t ⟨names, file, []⟩).Shows c.variant lib (declaredIn c.variant t.body)
      ⟨[c.rootName], origin.map FilePath.text, []⟩ (c.convert (some lib) origin t) := by
  have hload := c.looksFor_loadSearch lib (maxDepth lib)
  have hconverted (chain : Chain) := shows_bind_pure (g := fun body => (t.withBody body).finalize)
    (searched_visitStmts hload t.body ⟨[c.rootName], origin.map FilePath.text, chain⟩)
  cases t with
  | file body => exact searched_mapFailure (hconverted [])
  | module_ info name body =>
    cases origin with
    | none => exact searched_mapFailure (hconverted [])
    | some path => exact searched_mapFailure (shows_reading fun longer _ => hconverted longer)

/-- Modules are looked for under their full nesting. Each search for the file of a module is made by the name of the root
module, those of all modules around it, in its own text and across files, and its own. The searches come in the order of
the modules, and all of them are made if nothing fails, so nothing that was converted before a module, filled in, left out
or left where it was, has a part in where it is looked for. -/
theorem looksUpNested (c : Conversion) (lib : Library) (origin : Option FilePath) (t : Tree) (names : List String)
    (file : Option String) :
    c.LooksUpNested lib origin t (c.convertSearch lib origin t ⟨names, file, []⟩) := by
  obtain ⟨houtcome, -, hlookups⟩ := c.searched_convertSearch lib origin t names file
  rw [← houtcome] at hlookups
  refine ⟨houtcome, hlookups, nested_of_looksUp hlookups rfl fun d hd => .root hd, fun hok around d h => ?_⟩
  rw [hok] at hlookups
  exact complete_of_looksUp h hlookups

/-- A module in another one, after a module that is left where it is and one for the other variant. -/
example :
    let declared (tags : List Tag) (name : String) (body : List Stmt) : Stmt :=
      .block ⟨Span.unset, tags⟩ (.module_ name) body
    let t : Tree := .file [declared [] "a" [.pass Span.unset], declared [⟨"amphi", "asynchronous", 1⟩] "b" [],
      declared [] "c" [.pass Span.unset, declared [⟨"amphi-path", "x.py", 2⟩] "d" []]]
    (convertSearch ⟨.blocking, "root", none⟩ ⟨⟨[]⟩, ⟨.slash, []⟩⟩ none t ⟨["e"], none, []⟩).lookups =
      [⟨["root", "c", "d"], some "x.py"⟩] := by
  cbv

end Conversion

end TwinModule
