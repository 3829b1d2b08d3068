import TwinModule.Proofs.Layout.Complete
/-!
The files that a module is laid out in are those in which it would be looked for: a module that is reached by some names
is written to the plain file or to the package that a library tries for these names, and what a package imports from
where it is has been written there.
-/
set_option autoImplicit false

namespace TwinModule

namespace Library

variable {directory : FilePath} {names : List String}

theorem candidates_single (directory : FilePath) (name : String) :
    candidates directory [name] =
      .ok [directory.child (name ++ sourceSuffix), (directory.child name).child packageFile] := rfl

theorem candidates_concat (directory : FilePath) (names : List String) (name : String) :
    candidates directory (names ++ [name]) =
      .ok [(descend directory names).child (name ++ sourceSuffix),
        ((descend directory names).child name).child packageFile] := by
  simp [candidates]

/-- A name that comes before others leads to the directory of that name first. -/
theorem candidates_cons (h : names ≠ []) (name : String) :
    candidates directory (name :: names) = candidates (directory.child name) names := by
  obtain ⟨before, last, rfl⟩ := List.eq_nil_or_concat names |>.resolve_left h
  rw [List.concat_eq_append, ← List.cons_append, candidates_concat, candidates_concat]
  rfl

/-- The file of a package is in the directory that the names lead to. -/
theorem parent_packageFile (p : FilePath) : (p.child packageFile).parent = p :=
  FilePath.parent_join_single p packageFile

end Library

namespace Layout

/-- The modules in a module with a name and a body, itself among them: the names that lead to one, and its body. -/
inductive Contains : String → List Stmt → List String → List Stmt → Prop where
  | self (name : String) (body : List Stmt) : Contains name body [name] body
  | inside {name : String} {body : List Stmt} {info : Info} {name' : String} {body' : List Stmt} {names : List String}
      {inner : List Stmt} : Stmt.block info (.module_ name') body' ∈ body → Contains name' body' names inner →
      Contains name body (name :: names) inner

variable {name : String} {body : List Stmt} {names : List String} {inner : List Stmt}

theorem Contains.names_ne_nil (h : Contains name body names inner) : names ≠ [] := by
  cases h <;> simp

/-- A module right in a module that is contained is contained. -/
theorem Contains.nested (h : Contains name body names inner) {info : Info} {name' : String} {body' : List Stmt}
    (hmem : Stmt.block info (.module_ name') body' ∈ inner) : Contains name body (names ++ [name']) body' := by
  induction h with
  | self name body => exact .inside hmem (.self name' body')
  | inside hinside _ ih => exact .inside hinside (ih hmem)

/-- Of the two places where a library looks for a module, the one that the module belongs in: the package if there are
modules in it, else the plain file. -/
def BelongsIn (directory : FilePath) (names : List String) (inner : List Stmt) (p : FilePath) : Prop :=
  ∃ plain package, Library.candidates directory names = .ok [plain, package] ∧
    p = if (submodules inner).isEmpty then plain else package

variable {directory p : FilePath}

theorem belongsIn_single_iff : BelongsIn directory [name] body p ↔ p = ownPath directory name body := by
  rw [BelongsIn, Library.candidates_single, ownPath]
  constructor
  · rintro ⟨plain, package, h, rfl⟩
    cases h
    rfl
  · rintro rfl
    exact ⟨_, _, rfl, rfl⟩

theorem belongsIn_cons_iff (h : names ≠ []) :
    BelongsIn directory (name :: names) inner p ↔ BelongsIn (directory.child name) names inner p := by
  rw [BelongsIn, BelongsIn, Library.candidates_cons h]

/-- Whether a module that stands in a block, or a module in it, belongs in a place. -/
def BelongsTo (directory : FilePath) (ss : List Stmt) (p : FilePath) : Prop :=
  ∃ info name body, Stmt.block info (.module_ name) body ∈ ss ∧
    ∃ names inner, Contains name body names inner ∧ BelongsIn directory names inner p

theorem belongsTo_cons_of_not_module {s : Stmt} {ss : List Stmt}
    (h : ∀ info name body, s ≠ .block info (.module_ name) body) :
    BelongsTo directory (s :: ss) p ↔ BelongsTo directory ss p := by
  constructor
  · rintro ⟨info, name, body, hmem, hbelongs⟩
    rcases List.mem_cons.1 hmem with rfl | hmem
    · exact absurd rfl (h info name body)
    · exact ⟨info, name, body, hmem, hbelongs⟩
  · rintro ⟨info, name, body, hmem, hbelongs⟩
    exact ⟨info, name, body, List.mem_cons_of_mem s hmem, hbelongs⟩

/-- A module belongs in its own place; the modules in it belong below its name. -/
theorem exists_contains_iff :
    (∃ names inner, Contains name body names inner ∧ BelongsIn directory names inner p) ↔
      BelongsTo (directory.child name) body p ∨ p = ownPath directory name body := by
  constructor
  · rintro ⟨names, inner, hcontains, hbelongs⟩
    cases hcontains with
    | self => exact .inr (belongsIn_single_iff.1 hbelongs)
    | inside hmem hinner =>
      exact .inl ⟨_, _, _, hmem, _, _, hinner, (belongsIn_cons_iff hinner.names_ne_nil).1 hbelongs⟩
  · rintro (⟨info, name', body', hmem, names, inner, hinner, hbelongs⟩ | h)
    · exact ⟨name :: names, inner, .inside hmem hinner, (belongsIn_cons_iff hinner.names_ne_nil).2 hbelongs⟩
    · exact ⟨[name], body, .self name body, belongsIn_single_iff.2 h⟩

mutual

theorem mem_stmtSheets_iff {directory p : FilePath} : (s : Stmt) →
    (p ∈ (stmtSheets directory s).map Prod.fst ↔ BelongsTo directory [s] p)
  | .block info (.module_ name) body => by
    rw [stmtSheets, List.map_append, List.mem_append, mem_stmtsSheets_iff body, List.map_singleton,
      List.mem_singleton, ← exists_contains_iff]
    constructor
    · intro h
      exact ⟨info, name, body, List.mem_singleton_self _, h⟩
    · rintro ⟨_, _, _, hmem, h⟩
      cases List.mem_singleton.1 hmem
      exact h
  | .simple .. | .comment _ | .block _ (.function ..) _ | .block _ (.class_ ..) _
  | .block _ (.with_ ..) _ | .branch .. | .attempt .. | .select .. => by
    rw [belongsTo_cons_of_not_module (by simp)]
    simp [stmtSheets, BelongsTo]

/-- The places of the files of a block are those in which the modules in it belong. -/
theorem mem_stmtsSheets_iff {directory p : FilePath} : (ss : List Stmt) →
    (p ∈ (stmtsSheets directory ss).map Prod.fst ↔ BelongsTo directory ss p)
  | [] => by simp [stmtsSheets, BelongsTo]
  | s :: ss => by
    rw [stmtsSheets, List.map_append, List.mem_append, mem_stmtSheets_iff s, mem_stmtsSheets_iff ss]
    constructor
    · rintro (⟨info, name, body, hmem, h⟩ | ⟨info, name, body, hmem, h⟩)
      · exact ⟨info, name, body, List.mem_cons.2 (.inl (List.mem_singleton.1 hmem)), h⟩
      · exact ⟨info, name, body, List.mem_cons_of_mem s hmem, h⟩
    · rintro ⟨info, name, body, hmem, h⟩
      rcases List.mem_cons.1 hmem with rfl | hmem
      · exact .inl ⟨info, name, body, List.mem_singleton_self _, h⟩
      · exact .inr ⟨info, name, body, hmem, h⟩

end

variable {source : String} {parent : FilePath} {texts : FileTexts}

theorem mem_files_iff (h : files source parent name body = .ok texts) {p : FilePath} :
    p ∈ texts.map Prod.fst ↔ ∃ names inner, Contains name body names inner ∧ BelongsIn parent names inner p := by
  obtain ⟨-, hkeys⟩ := covers_stmtFiles _ (files_eq_ok_iff.1 h)
  rw [hkeys, mem_stmtSheets_iff]
  constructor
  · rintro ⟨_, _, _, hmem, h⟩
    cases List.mem_singleton.1 hmem
    exact h
  · intro h
    exact ⟨_, name, body, List.mem_singleton_self _, h⟩

/-- A module in another one is replaced in its place by an import of it. -/
theorem getElem?_ownStatements {ss : List Stmt} {i : Nat} {info : Info} {name' : String} {body' : List Stmt}
    (h : ss[i]? = some (.block info (.module_ name') body')) : (ownStatements ss)[i]? = some (importOf name') := by
  fun_induction ownStatements ss generalizing i with
  | case1 => cases h
  | case2 info name body ss ih =>
    cases i with
    | zero =>
      cases h
      rfl
    | succ i => exact ih h
  | case3 s ss hs ih =>
    cases i with
    | zero =>
      cases h
      exact absurd rfl (hs _ _ _)
    | succ i => exact ih h

theorem not_isEmpty_submodules {ss : List Stmt} {info : Info} {name' : String} {body' : List Stmt}
    (h : Stmt.block info (.module_ name') body' ∈ ss) : ¬ (submodules ss).isEmpty = true := by
  fun_induction submodules ss with
  | case1 => cases h
  | case2 => simp
  | case3 s ss hs ih =>
    rcases List.mem_cons.1 h with rfl | h
    · exact absurd rfl (hs _ _ _)
    · exact ih h

/-- A module is laid out in exactly those places in which a library that starts in the same directory looks for it and
for the modules in it by their names: in the plain file if a module has no modules in it, in the package if it has some.
And where a package's own file imports a module from the directory that it is in, this is there as a plain file or as a
package. -/
theorem files_candidates (source : String) (parent : FilePath) (name : String) (body : List Stmt) (texts : FileTexts)
    (h : files source parent name body = .ok texts) :
    (∀ p, p ∈ texts.map Prod.fst ↔
        ∃ names inner, Contains name body names inner ∧ BelongsIn parent names inner p) ∧
      ∀ (names : List String) (inner : List Stmt) (i : Nat) (info : Info) (name' : String) (body' : List Stmt),
        Contains name body names inner → inner[i]? = some (.block info (.module_ name') body') →
        ∃ plain package, Library.candidates parent names = .ok [plain, package] ∧ package ∈ texts.map Prod.fst ∧
          (ownStatements inner)[i]? = some (importOf name') ∧
          (package.parent.child (name' ++ Library.sourceSuffix) ∈ texts.map Prod.fst ∨
            (package.parent.child name').child Library.packageFile ∈ texts.map Prod.fst) := by
  refine ⟨fun p => mem_files_iff h, fun names inner i info name' body' hcontains hi => ?_⟩
  have hmem : Stmt.block info (.module_ name') body' ∈ inner := List.mem_of_getElem? hi
  obtain ⟨before, last, rfl⟩ := List.eq_nil_or_concat names |>.resolve_left hcontains.names_ne_nil
  rw [List.concat_eq_append] at hcontains ⊢
  have hpackage := Library.candidates_concat parent before last
  refine ⟨_, _, hpackage, ?_, getElem?_ownStatements hi, ?_⟩
  · exact (mem_files_iff h).2 ⟨_, inner, hcontains, _, _, hpackage, (if_neg (not_isEmpty_submodules hmem)).symm⟩
  · -- the directory of the package's file is where the names of the package lead to
    have hnested := Library.candidates_concat parent (before ++ [last]) name'
    have hdescend : Library.descend parent (before ++ [last]) = (Library.descend parent before).child last := by
      simp [Library.descend]
    have hkey := (mem_files_iff h).2 ⟨_, body', hcontains.nested hmem, _, _, hnested, rfl⟩
    rw [Library.parent_packageFile, ← hdescend]
    split at hkey
    · exact .inl hkey
    · exact .inr hkey

/-- A module with nothing in it but a statement. -/
def passIn (name : String) : Stmt := .block ⟨Span.unset, []⟩ (.module_ name) [.pass Span.unset]

/-- A plain module and a package side by side. -/
def besides : List Stmt := [passIn "m", .block ⟨Span.unset, []⟩ (.module_ "p") [passIn "q"]]

theorem exists_files_besides : ∃ texts, files "a.py" ⟨.relative, ["out"]⟩ "a" besides = .ok texts := by
  have hsome : (files "a.py" ⟨.relative, ["out"]⟩ "a" besides).toOption.isSome = true := by decide +kernel
  cases h : files "a.py" ⟨.relative, ["out"]⟩ "a" besides with
  | ok texts => exact ⟨texts, rfl⟩
  | error e =>
    rw [h] at hsome
    cases hsome

theorem files_candidates_besides :
    ∃ texts, files "a.py" ⟨.relative, ["out"]⟩ "a" besides = .ok texts ∧
      ⟨.relative, ["out", "a", "p", "q.py"]⟩ ∈ texts.map Prod.fst ∧
      (⟨.relative, ["out", "a", "p.py"]⟩ ∈ texts.map Prod.fst ∨
        ⟨.relative, ["out", "a", "p", "__init__.py"]⟩ ∈ texts.map Prod.fst) := by
  obtain ⟨texts, h⟩ := exists_files_besides
  obtain ⟨hplaces, himports⟩ := files_candidates "a.py" ⟨.relative, ["out"]⟩ "a" besides texts h
  refine ⟨texts, h, ?_, ?_⟩
  · have hcontains : Contains "a" besides ["a", "p", "q"] [.pass Span.unset] :=
      .inside (List.mem_cons_of_mem _ (List.mem_singleton_self _)) (.inside (List.mem_singleton_self _) (.self ..))
    exact (hplaces _).2 ⟨_, _, hcontains, _, _, by cbv, rfl⟩
  · obtain ⟨plain, package, hcandidates, -, -, hthere⟩ := himports ["a"] besides 1 _ "p" _ (.self ..) rfl
    have hinside : Library.candidates ⟨.relative, ["out"]⟩ ["a"] =
        .ok [⟨.relative, ["out", "a.py"]⟩, ⟨.relative, ["out", "a", "__init__.py"]⟩] := by cbv
    cases hcandidates.symm.trans hinside
    exact hthere

end Layout

end TwinModule
