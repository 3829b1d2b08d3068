import TwinModule.Proofs.Conversion.Tailor
/-!
The modules in files that a text declares, and where each of them is to be looked for: by the names of all modules around
it, those in its own text and those whose files are being read.
-/
set_option autoImplicit false

namespace TwinModule

/-- A search for the file of a module: the names that it is made by, and the path given for the file. -/
structure Lookup where
  modulePath : List String
  explicit : Option String
  deriving DecidableEq, Repr

/-- A module in a file, as a text declares it: the names of the modules around it in the text, its own name, and the path
given for the file. -/
structure Declared where
  around : List String
  name : String
  explicit : Option String
  deriving DecidableEq, Repr

namespace Declared

/-- The names of a module and the modules around it in the text. -/
def path (d : Declared) : List String := d.around ++ [d.name]

/-- The module in one more module of the text. -/
def inside (name : String) (d : Declared) : Declared := { d with around := name :: d.around }

/-- What a module is looked for by, given the names of the modules around the text. -/
def lookup (names : List String) (d : Declared) : Lookup := ⟨names ++ d.path, d.explicit⟩

theorem path_inside (names : List String) (name : String) (d : Declared) :
    names ++ (d.inside name).path = names ++ [name] ++ d.path := by
  simp [path, inside]

theorem lookup_inside (names : List String) (name : String) (d : Declared) :
    (d.inside name).lookup names = d.lookup (names ++ [name]) := by
  rw [lookup, path_inside, lookup]
  rfl

end Declared

mutual

/-- The modules in files that a statement declares in one variant. -/
def Stmt.declared (v : Variant) : Stmt → List Declared
  | .comment _ => []
  | .simple .. => []
  | .block info (.module_ name) body =>
    if info.tags.any (Tag.names v.other) then []
    else if isInline body then (declaredIn v body).map (Declared.inside name)
    else [⟨[], name, (Tag.take Tag.sourceFamily info.tags).1⟩]
  | .block info _ body => if info.tags.any (Tag.names v.other) then [] else declaredIn v body
  | .branch info _ body orelse =>
    if info.tags.any (Tag.names v.other) then [] else declaredIn v body ++ declaredIn v orelse
  | .attempt info _ body handlers orelse finalbody =>
    if info.tags.any (Tag.names v.other) then []
    else declaredIn v body ++ (declaredInHandlers v handlers ++ (declaredIn v orelse ++ declaredIn v finalbody))
  | .select info _ cases => if info.tags.any (Tag.names v.other) then [] else declaredInCases v cases

def declaredIn (v : Variant) : List Stmt → List Declared
  | [] => []
  | s :: ss => s.declared v ++ declaredIn v ss

def declaredInHandlers (v : Variant) : List Handler → List Declared
  | [] => []
  | .comment _ :: hs => declaredInHandlers v hs
  | .handler _ _ _ body :: hs => declaredIn v body ++ declaredInHandlers v hs

def declaredInCases (v : Variant) : List Case → List Declared
  | [] => []
  | .comment _ :: cs => declaredInCases v cs
  | .case _ _ _ body :: cs => declaredIn v body ++ declaredInCases v cs

end

theorem declared_of_other {s : Stmt} {v : Variant} (h : s.isFor v.other = true) : s.declared v = [] := by
  cases s with
  | comment k => cases h
  | simple info what => rfl
  | block info head body => cases head <;> exact if_pos h
  | branch info | attempt info | select info => exact if_pos h

/-- The lookups for the modules that are declared in a text, given the names of the modules around it: in turn a module is
looked for, and then those that its file declares are, inside it. They are all made unless something fails, and then none
is made any more. -/
inductive LooksUp (v : Variant) (lib : Library) : List String → List Declared → List Lookup → (isDone : Bool) → Prop
  | done (names : List String) : LooksUp v lib names [] [] true
  | stop (names : List String) (ds : List Declared) : LooksUp v lib names ds [] false
  | miss (names : List String) (d : Declared) (ds : List Declared) : LooksUp v lib names (d :: ds) [d.lookup names] false
  | fail {names : List String} {d : Declared} {path : FilePath} {body : List Stmt} {inner : List Lookup}
      (hlocate : lib.locate (names ++ d.path) d.explicit = .ok path)
      (hload : Library.load lib.store path d.name = .ok body)
      (hinner : LooksUp v lib (names ++ d.path) (declaredIn v body) inner false) (ds : List Declared) :
      LooksUp v lib names (d :: ds) (d.lookup names :: inner) false
  | next {names : List String} {d : Declared} {ds : List Declared} {path : FilePath} {body : List Stmt}
      {inner rest : List Lookup} {isDone : Bool} (hlocate : lib.locate (names ++ d.path) d.explicit = .ok path)
      (hload : Library.load lib.store path d.name = .ok body)
      (hinner : LooksUp v lib (names ++ d.path) (declaredIn v body) inner true)
      (hrest : LooksUp v lib names ds rest isDone) :
      LooksUp v lib names (d :: ds) (d.lookup names :: (inner ++ rest)) isDone

namespace LooksUp

variable {v : Variant} {lib : Library} {names : List String} {ds es : List Declared} {ls ms : List Lookup}
  {isDone : Bool}

theorem eq_nil (h : LooksUp v lib names [] ls isDone) : ls = [] := by
  cases h <;> rfl

/-- Where something fails, what would come next is not come to. -/
theorem cut (h : LooksUp v lib names ds ls false) (es : List Declared) : LooksUp v lib names (ds ++ es) ls false := by
  generalize hdone : false = isDone at h
  induction h with
  | done => cases hdone
  | stop names ds => exact .stop names (ds ++ es)
  | miss names d ds => exact .miss names d (ds ++ es)
  | fail hlocate hload hinner ds => exact .fail hlocate hload hinner (ds ++ es)
  | next hlocate hload hinner _ _ ih => exact .next hlocate hload hinner (ih hdone)

theorem append (h : LooksUp v lib names ds ls true) (h' : LooksUp v lib names es ms isDone) :
    LooksUp v lib names (ds ++ es) (ls ++ ms) isDone := by
  generalize hdone : true = wasDone at h
  induction h with
  | done => exact h'
  | stop | miss | fail => cases hdone
  | @next names d ds path body inner rest wasDone hlocate hload hinner hrest _ ih =>
    have hall := LooksUp.next hlocate hload hinner (ih h' hdone)
    rwa [← List.append_assoc] at hall

/-- One module is looked for, and then those that its file declares. -/
theorem one {d : Declared} {path : FilePath} {body : List Stmt}
    (hlocate : lib.locate (names ++ d.path) d.explicit = .ok path) (hload : Library.load lib.store path d.name = .ok body)
    (h : LooksUp v lib (names ++ d.path) (declaredIn v body) ls isDone) :
    LooksUp v lib names [d] (d.lookup names :: ls) isDone := by
  cases isDone with
  | false => exact .fail hlocate hload h []
  | true =>
    have hall := LooksUp.next hlocate hload h (.done names)
    rwa [List.append_nil] at hall

/-- The modules inside a module of a text are looked for with its name among those around them. -/
theorem inside {name : String} (h : LooksUp v lib (names ++ [name]) ds ls isDone) :
    LooksUp v lib names (ds.map (Declared.inside name)) ls isDone := by
  generalize houter : names ++ [name] = outer at h
  induction h with
  | done => exact .done names
  | stop => exact .stop names _
  | miss _ d ds =>
    subst houter
    rw [← Declared.lookup_inside]
    exact .miss names _ _
  | @fail _ d path body inner hlocate hload hinner ds =>
    subst houter
    rw [← Declared.lookup_inside]
    rw [← Declared.path_inside] at hlocate hinner
    exact .fail hlocate hload hinner _
  | @next _ d ds path body inner rest isDone hlocate hload hinner hrest _ ih =>
    subst houter
    rw [← Declared.lookup_inside]
    rw [← Declared.path_inside] at hlocate hinner
    exact .next hlocate hload hinner (ih rfl)

/-- Where nothing fails, each module that a text declares is looked for, and so is all that its file declares. -/
theorem of_mem {d : Declared} (hd : d ∈ ds) (h : LooksUp v lib names ds ls isDone) (hdone : isDone = true) :
    ∃ path body inner, lib.locate (names ++ d.path) d.explicit = .ok path ∧
      Library.load lib.store path d.name = .ok body ∧
      LooksUp v lib (names ++ d.path) (declaredIn v body) inner true ∧
      ∀ l ∈ d.lookup names :: inner, l ∈ ls := by
  induction h with
  | done => cases hd
  | stop | miss | fail => cases hdone
  | @next names e ds path body inner rest isDone hlocate hload hinner hrest _ ih =>
    rcases List.mem_cons.1 hd with rfl | hd
    · exact ⟨path, body, inner, hlocate, hload, hinner, by simp +contextual [or_imp]⟩
    · obtain ⟨path', body', inner', hlocate', hload', hinner', hsub⟩ := ih hd hdone
      exact ⟨path', body', inner', hlocate', hload', hinner', fun l hl => by simp [hsub l hl]⟩

end LooksUp

namespace Conversion

/-- The names of all modules around a text, the outermost first: that of the root module, and those of the modules in files
with the ones around them in their texts. -/
def namesOf (c : Conversion) (around : List Declared) : List String := c.rootName :: around.flatMap Declared.path

theorem namesOf_append (c : Conversion) (around : List Declared) (m : Declared) :
    c.namesOf (around ++ [m]) = c.namesOf around ++ m.path := by
  simp [namesOf]

/-- A module in a file is inside some others in files: a tree declares the outermost of them, and the text of the file of
each one declares the next. -/
inductive Encloses (c : Conversion) (lib : Library) (t : Tree) : List Declared → Declared → Prop
  | root {d : Declared} (hd : d ∈ declaredIn c.variant t.body) : Encloses c lib t [] d
  | file {around : List Declared} {m d : Declared} {path : FilePath} {body : List Stmt}
      (hm : Encloses c lib t around m) (hlocate : lib.locate (c.namesOf around ++ m.path) m.explicit = .ok path)
      (hload : Library.load lib.store path m.name = .ok body) (hd : d ∈ declaredIn c.variant body) :
      Encloses c lib t (around ++ [m]) d

section

variable {c : Conversion} {lib : Library} {t : Tree} {ls : List Lookup}

/-- What is looked for in a text inside some modules is looked for by all their names. -/
theorem nested_of_looksUp {names : List String} {around ds : List Declared} {isDone : Bool}
    (h : LooksUp c.variant lib names ds ls isDone) (hnames : names = c.namesOf around)
    (hds : ∀ d ∈ ds, Encloses c lib t around d) :
    ∀ l ∈ ls, ∃ around d, Encloses c lib t around d ∧ l = d.lookup (c.namesOf around) := by
  induction h generalizing around with
  | done => nofun
  | stop => nofun
  | miss names d ds =>
    subst hnames
    simpa using ⟨around, d, hds d (List.mem_cons_self ..), rfl⟩
  | @fail names d path body inner hlocate hload hinner ds ih =>
    subst hnames
    have hd := hds d (List.mem_cons_self ..)
    refine List.forall_mem_cons.2 ⟨⟨around, d, hd, rfl⟩, ?_⟩
    exact ih (c.namesOf_append around d).symm fun e he => .file hd hlocate hload he
  | @next names d ds path body inner rest isDone hlocate hload hinner hrest ih ihrest =>
    subst hnames
    have hd := hds d (List.mem_cons_self ..)
    refine List.forall_mem_cons.2 ⟨⟨around, d, hd, rfl⟩, List.forall_mem_append.2 ⟨?_, ?_⟩⟩
    · exact ih (c.namesOf_append around d).symm fun e he => .file hd hlocate hload he
    · exact ihrest rfl fun e he => hds e (List.mem_cons_of_mem d he)

/-- If nothing fails in a tree, then nothing does in any file that is read for it. -/
theorem exists_looksUp_of_encloses {around : List Declared} {d : Declared} (h : Encloses c lib t around d)
    (hall : LooksUp c.variant lib [c.rootName] (declaredIn c.variant t.body) ls true) :
    ∃ ds ms, d ∈ ds ∧ LooksUp c.variant lib (c.namesOf around) ds ms true ∧ ∀ l ∈ ms, l ∈ ls := by
  induction h with
  | root hd => exact ⟨_, ls, hd, hall, fun l hl => hl⟩
  | @file around m d path body hm hlocate hload hd ih =>
    obtain ⟨ds, ms, hmem, hlooks, hsub⟩ := ih
    obtain ⟨path', body', inner, hlocate', hload', hinner, hms⟩ := LooksUp.of_mem hmem hlooks rfl
    obtain rfl : path = path' := Except.ok.inj (hlocate.symm.trans hlocate')
    obtain rfl : body = body' := Except.ok.inj (hload.symm.trans hload')
    rw [namesOf_append]
    exact ⟨_, inner, hd, hinner, fun l hl => hsub l (hms l (List.mem_cons_of_mem _ hl))⟩

theorem complete_of_looksUp {around : List Declared} {d : Declared} (h : Encloses c lib t around d)
    (hall : LooksUp c.variant lib [c.rootName] (declaredIn c.variant t.body) ls true) :
    d.lookup (c.namesOf around) ∈ ls := by
  obtain ⟨ds, ms, hmem, hlooks, hsub⟩ := exists_looksUp_of_encloses h hall
  obtain ⟨_, _, _, -, -, -, hms⟩ := LooksUp.of_mem hmem hlooks rfl
  exact hsub _ (hms _ (List.mem_cons_self ..))

end

end Conversion

end TwinModule
