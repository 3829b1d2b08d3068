import TwinModule.Proofs.Generation.Again
import TwinModule.Proofs.Layout.Candidates
/-!
How the file of a module opens. A docstring has to come first and imports from `__future__` come next; the imports that
stand for the modules in a module get in between exactly where such a module is declared before one of these.
-/
set_option autoImplicit false

namespace TwinModule

namespace Stmt

def isModule : Stmt → Bool
  | block _ head _ => head.isModule
  | _ => false

/-- A text by itself. It is a docstring if it is the first statement. -/
def isText : Stmt → Bool
  | simple _ (.expr (.literal (.text _) _)) => true
  | _ => false

/-- An import that changes how the rest of the file is read. -/
def isFuture : Stmt → Bool
  | simple _ (.importFrom module _ level) => module == some "__future__" && level.getD 0 == 0
  | _ => false

/-- Modules and comments left out. -/
def isOwn (s : Stmt) : Bool := s.isReal && !s.isModule

end Stmt

namespace Layout

variable {ss before after body : List Stmt} {s : Stmt}

/-- The docstring of a file with these statements. -/
def docstring? (ss : List Stmt) : Option Stmt := ss.head?.filter Stmt.isText

def withoutDocstring : List Stmt → List Stmt
  | [] => []
  | s :: ss => if s.isText then ss else s :: ss

/-- No statement but the docstring comes before an import from `__future__`, unless it is such an import itself. -/
def WellOpened (ss : List Stmt) : Prop :=
  ∀ before s after, ss = before ++ s :: after → s.isFuture = true →
    ∀ b ∈ withoutDocstring before, b.isFuture = true

/-- The statements of a module's own. -/
def own (body : List Stmt) : List Stmt := body.filter Stmt.isOwn

/-- The statements in the file of a module. -/
def shown (body : List Stmt) : List Stmt := (ownStatements body).filter Stmt.isReal

/-- The file of a module has the docstring that the module has of its own, and opens as a file has to. -/
structure KeepsOpening (body : List Stmt) : Prop where
  docstring : docstring? (shown body) = docstring? (own body)
  wellOpened : WellOpened (shown body)

/-- No module is declared before the docstring, and none before an import from `__future__`. -/
structure Undisturbed (body : List Stmt) : Prop where
  docstring : ∀ before s after, body = before ++ s :: after → own before = [] → s.isText = true →
    ∀ m ∈ before, m.isModule = false
  future : ∀ before s after, body = before ++ s :: after → s.isFuture = true → ∀ m ∈ before, m.isModule = false

theorem own_append (before after : List Stmt) : own (before ++ after) = own before ++ own after :=
  List.filter_append ..

theorem own_cons_of_isOwn (h : s.isOwn = true) : own (s :: ss) = s :: own ss := List.filter_cons_of_pos h

theorem ownStatements_append (before after : List Stmt) :
    ownStatements (before ++ after) = ownStatements before ++ ownStatements after := by
  fun_induction ownStatements before with
  | case1 => rfl
  | case2 info name body ss ih => rw [List.cons_append, ownStatements, ih, List.cons_append]
  | case3 s ss hs ih => rw [List.cons_append, ownStatements, ih, List.cons_append]; exact hs

theorem shown_append (before after : List Stmt) : shown (before ++ after) = shown before ++ shown after := by
  rw [shown, ownStatements_append, List.filter_append, shown, shown]

/-- An import stands for each module. -/
theorem shown_module (info : Info) (name : String) (inner ss : List Stmt) :
    shown (.block info (.module_ name) inner :: ss) = importOf name :: shown ss := rfl

theorem ownStatements_of_not_module (h : s.isModule = false) : ownStatements (s :: ss) = s :: ownStatements ss := by
  cases s with
  | block info head inner =>
    cases head with
    | module_ name => cases h
    | _ => rfl
  | _ => rfl

theorem shown_of_isOwn (h : s.isOwn = true) : shown (s :: ss) = s :: shown ss := by
  obtain ⟨hreal, hmodule⟩ : s.isReal = true ∧ s.isModule = false := by simpa [Stmt.isOwn] using h
  rw [shown, ownStatements_of_not_module hmodule, List.filter_cons_of_pos hreal, shown]

/-- Where there are no modules, the file has the statements of the module. -/
theorem shown_eq_own (h : ∀ m ∈ ss, m.isModule = false) : shown ss = own ss := by
  induction ss with
  | nil => rfl
  | cons s ss ih =>
    rw [List.forall_mem_cons] at h
    rw [shown, ownStatements_of_not_module h.1, own, List.filter_cons, List.filter_cons, Stmt.isOwn, h.1,
      Bool.not_false, Bool.and_true, ← own, ← ih h.2, shown]

/-- A statement is a comment, a module or one of the module's own. -/
theorem isOwn_cases (s : Stmt) : s.isReal = false ∨ (∃ info name inner, s = .block info (.module_ name) inner) ∨
    s.isOwn = true := by
  cases s with
  | comment c => exact .inl rfl
  | block info head inner =>
    cases head with
    | module_ name => exact .inr (.inl ⟨info, name, inner, rfl⟩)
    | _ => exact .inr (.inr rfl)
  | _ => exact .inr (.inr rfl)

theorem isModule_of_not_isReal (h : s.isReal = false) : s.isModule = false := by
  cases s with
  | comment c => rfl
  | _ => cases h

theorem shown_of_not_isReal (h : s.isReal = false) : shown (s :: ss) = shown ss := by
  rw [shown, ownStatements_of_not_module (isModule_of_not_isReal h), List.filter_cons_of_neg (by simp [h]), shown]

theorem own_of_not_isReal (h : s.isReal = false) : own (s :: ss) = own ss :=
  List.filter_cons_of_neg (by simp [Stmt.isOwn, h])

theorem docstring?_eq_some_iff : docstring? (own body) = some s ↔
    s.isText = true ∧ ∃ before after, body = before ++ s :: after ∧ own before = [] := by
  have hhead : docstring? (own body) = some s ↔ s.isText = true ∧ ∃ rest, own body = s :: rest := by
    rw [docstring?, Option.filter_eq_some_iff, List.head?_eq_some_iff, and_comm]
  rw [hhead]
  refine and_congr_right fun htext => ⟨?_, ?_⟩
  · rintro ⟨rest, h⟩
    obtain ⟨before, after, hbody, hbefore, -, -⟩ := List.filter_eq_cons_iff.1 h
    exact ⟨before, after, hbody, List.filter_eq_nil_iff.2 hbefore⟩
  · rintro ⟨before, after, rfl, hbefore⟩
    have hown : s.isOwn = true := by
      unfold Stmt.isText at htext
      split at htext
      · rfl
      · cases htext
    exact ⟨own after, by rw [own_append, hbefore, List.nil_append, own_cons_of_isOwn hown]⟩

/-- The docstring is lost exactly if a module is declared before it. -/
theorem docstring?_shown_iff : docstring? (shown body) = docstring? (own body) ↔
    ∀ before s after, body = before ++ s :: after → own before = [] → s.isText = true →
      ∀ m ∈ before, m.isModule = false := by
  induction body with
  | nil => simp [shown, own, ownStatements]
  | cons s ss ih =>
    rcases isOwn_cases s with hs | ⟨info, name, inner, rfl⟩ | hs
    · rw [shown_of_not_isReal hs, own_of_not_isReal hs, ih]
      constructor
      · intro h before d after hbody hbefore htext
        cases before with
        | nil => simp
        | cons b before =>
          obtain ⟨rfl, hss⟩ := List.cons.inj hbody
          rw [own_of_not_isReal hs] at hbefore
          exact List.forall_mem_cons.2 ⟨isModule_of_not_isReal hs, h before d after hss hbefore htext⟩
      · intro h before d after hbody hbefore htext
        have hcons := h (s :: before) d after (by rw [hbody, List.cons_append]) (by rw [own_of_not_isReal hs, hbefore])
        exact (List.forall_mem_cons.1 (hcons htext)).2
    · have hlost : docstring? (shown (.block info (.module_ name) inner :: ss)) = none := rfl
      have hown : own (.block info (.module_ name) inner :: ss) = own ss := rfl
      rw [hlost, hown, eq_comm, Option.eq_none_iff_forall_ne_some]
      constructor
      · intro h before d after hbody hbefore htext
        cases before with
        | nil => simp
        | cons b before =>
          obtain ⟨rfl, hss⟩ := List.cons.inj hbody
          exact absurd (docstring?_eq_some_iff.2 ⟨htext, before, after, hss, hbefore⟩) (h d)
      · intro h d hd
        obtain ⟨htext, before, after, hss, hbefore⟩ := docstring?_eq_some_iff.1 hd
        have hcons := h (.block info (.module_ name) inner :: before) d after (by rw [hss, List.cons_append]) hbefore
        exact absurd (hcons htext _ (List.mem_cons_self ..)) (by simp [Stmt.isModule, BlockHead.isModule])
    · have hhead : docstring? (shown (s :: ss)) = docstring? (own (s :: ss)) := by
        rw [shown_of_isOwn hs, own_cons_of_isOwn hs]
        rfl
      refine iff_of_true hhead fun before d after hbody hbefore htext => ?_
      cases before with
      | nil => simp
      | cons b before =>
        obtain ⟨rfl, -⟩ := List.cons.inj hbody
        rw [own_cons_of_isOwn hs] at hbefore
        cases hbefore

theorem exists_module_of_isModule (h : s.isModule = true) :
    ∃ info name inner, s = .block info (.module_ name) inner := by
  rcases isOwn_cases s with hs | hs | hs
  · rw [isModule_of_not_isReal hs] at h
    cases h
  · exact hs
  · simp [Stmt.isOwn, h] at hs

theorem importOf_mem_shown {info : Info} {name : String} {inner : List Stmt}
    (h : .block info (.module_ name) inner ∈ ss) : importOf name ∈ shown ss := by
  obtain ⟨before, after, rfl⟩ := List.append_of_mem h
  rw [shown_append, shown_module]
  simp

theorem withoutDocstring_mem (h : s ∈ ss) (hs : s.isText = false) : s ∈ withoutDocstring ss := by
  cases ss with
  | nil => cases h
  | cons d ss =>
    rw [withoutDocstring]
    split
    · rename_i hd
      rcases List.mem_cons.1 h with rfl | h
      · rw [hs] at hd
        cases hd
      · exact h
    · exact h

/-- What comes before an import from `__future__` in the file of a module is what comes before it in the module. -/
theorem exists_split_of_shown (h : shown body = before ++ s :: after) (hs : s.isFuture = true) :
    ∃ before' after', body = before' ++ s :: after' ∧ shown before' = before := by
  induction body generalizing before with
  | nil => simp [shown, ownStatements] at h
  | cons b body ih =>
    rcases isOwn_cases b with hb | ⟨info, name, inner, rfl⟩ | hb
    · rw [shown_of_not_isReal hb] at h
      obtain ⟨before', after', rfl, hbefore⟩ := ih h
      exact ⟨b :: before', after', rfl, (shown_of_not_isReal hb).trans hbefore⟩
    · rw [shown_module] at h
      cases before with
      | nil =>
        obtain ⟨rfl, -⟩ := List.cons.inj h
        cases hs
      | cons d before =>
        obtain ⟨rfl, hrest⟩ := List.cons.inj h
        obtain ⟨before', after', rfl, rfl⟩ := ih hrest
        exact ⟨.block info (.module_ name) inner :: before', after', rfl, shown_module ..⟩
    · rw [shown_of_isOwn hb] at h
      cases before with
      | nil =>
        obtain ⟨rfl, -⟩ := List.cons.inj h
        exact ⟨[], body, rfl, rfl⟩
      | cons d before =>
        obtain ⟨rfl, hrest⟩ := List.cons.inj h
        obtain ⟨before', after', rfl, rfl⟩ := ih hrest
        exact ⟨b :: before', after', rfl, shown_of_isOwn hb⟩

/-- An import from `__future__` is one of a module's own statements and stays in its file. -/
theorem isOwn_of_isFuture (h : s.isFuture = true) : s.isOwn = true := by
  unfold Stmt.isFuture at h
  split at h
  · rfl
  · cases h

/-- Imports from `__future__` get behind another import exactly if a module is declared before one of them. -/
theorem wellOpened_shown_iff (h : WellOpened (own body)) : WellOpened (shown body) ↔
    ∀ before s after, body = before ++ s :: after → s.isFuture = true → ∀ m ∈ before, m.isModule = false := by
  constructor
  · intro hopens before s after hbody hs m hm
    by_contra hmodule
    obtain ⟨info, name, inner, rfl⟩ := exists_module_of_isModule (eq_true_of_ne_false hmodule)
    have hshown : shown body = shown before ++ s :: shown after := by
      rw [hbody, shown_append, shown_of_isOwn (isOwn_of_isFuture hs)]
    have himport := hopens _ _ _ hshown hs _ (withoutDocstring_mem (importOf_mem_shown hm) rfl)
    cases himport
  · intro hnone before s after hshown hs
    obtain ⟨before, after', rfl, rfl⟩ := exists_split_of_shown hshown hs
    -- without modules before it the import has the same statements before it in both
    rw [shown_eq_own (hnone before s after' rfl hs)]
    exact h (own before) s (own after') (by rw [own_append, own_cons_of_isOwn (isOwn_of_isFuture hs)]) hs

/-- The file of a module opens as the module does exactly if no module is declared before the docstring or before
an import from `__future__`. -/
theorem keepsOpening_iff (h : WellOpened (own body)) : KeepsOpening body ↔ Undisturbed body := by
  constructor
  · rintro ⟨hdocstring, hopens⟩
    exact ⟨docstring?_shown_iff.1 hdocstring, (wellOpened_shown_iff h).1 hopens⟩
  · rintro ⟨hdocstring, hfuture⟩
    exact ⟨docstring?_shown_iff.2 hdocstring, (wellOpened_shown_iff h).2 hfuture⟩

theorem mem_withoutDocstring_append (h : s ∈ withoutDocstring before) (after : List Stmt) :
    s ∈ withoutDocstring (before ++ after) := by
  cases before with
  | nil => cases h
  | cons b before =>
    rw [withoutDocstring] at h
    rw [List.cons_append, withoutDocstring]
    split at h
    · next hb =>
      rw [if_pos hb]
      exact List.mem_append_left after h
    · next hb =>
      rw [if_neg hb]
      exact List.mem_append_left after h

/-- A docstring, if there is one, and imports from `__future__` open a file in which no more of these follow. -/
theorem wellOpened_append (hbefore : ∀ b ∈ withoutDocstring before, b.isFuture = true)
    (hafter : ∀ a ∈ after, a.isFuture = false) : WellOpened (before ++ after) := by
  intro before' s after' h hs b hb
  rcases List.append_eq_append_iff.1 h with ⟨middle, rfl, hmiddle⟩ | ⟨middle, rfl, -⟩
  · have hmem : s ∈ after := by simp [hmiddle]
    rw [hafter s hmem] at hs
    cases hs
  · exact hbefore b (mem_withoutDocstring_append hb middle)

theorem stmtSheets_subset {parent : FilePath} (h : s ∈ ss) : stmtSheets parent s ⊆ stmtsSheets parent ss := by
  obtain ⟨before, after, rfl⟩ := List.append_of_mem h
  clear h
  induction before with
  | nil => exact List.subset_append_left _ _
  | cons b before ih => exact List.Subset.trans ih (List.subset_append_right _ _)

/-- Every module that is laid out has a sheet with its statements. -/
theorem exists_sheet_of_contains {name : String} {names : List String} {inner : List Stmt}
    (h : Contains name body names inner) (parent : FilePath) (info : Info) :
    ∃ p, (p, ownStatements inner) ∈ stmtSheets parent (.block info (.module_ name) body) := by
  induction h generalizing parent info with
  | self name body => exact ⟨ownPath parent name body, List.mem_append_right _ (List.mem_singleton_self _)⟩
  | @inside name body info' name' body' names inner hmem _ ih =>
    obtain ⟨p, hp⟩ := ih (parent.child name) info'
    exact ⟨p, List.mem_append_left _ (stmtSheets_subset hmem hp)⟩

/-- Every module that is laid out has a file with its statements and imports. If the module opens as a file has to,
disregarding comments and the modules in it, so does its file, with the same docstring, exactly if no module is declared
before the docstring or before an import from `__future__`. -/
theorem sheet_keepsOpening_iff (name : String) (t : Tree) (names : List String) (inner : List Stmt)
    (h : Contains name t.body names inner) (hopens : WellOpened (own inner)) :
    (∃ p, (p, ownStatements inner) ∈ sheets name t) ∧ (KeepsOpening inner ↔ Undisturbed inner) :=
  ⟨exists_sheet_of_contains h .., keepsOpening_iff hopens⟩

/-- A docstring, an import from `__future__` and a module behind them. -/
def documented : List Stmt :=
  [.simple ⟨Span.unset, []⟩ (.expr (.literal (.text "doc") none)),
    .simple ⟨Span.unset, []⟩ (.importFrom (some "__future__") [⟨"annotations", none⟩] none), passIn "m",
    .pass Span.unset]

/-- It is in another module. -/
def documentedTree : Tree := .file [.block ⟨Span.unset, []⟩ (.module_ "p") documented]

theorem sheet_keepsOpening_iff_documented :
    (Contains "a" documentedTree.body ["a", "p"] documented ∧ WellOpened (own documented)) ∧
    (∃ p, (p, ownStatements documented) ∈ sheets "a" documentedTree) ∧
    (KeepsOpening documented ↔ Undisturbed documented) := by
  have hcontains : Contains "a" documentedTree.body ["a", "p"] documented :=
    .inside (List.mem_singleton_self _) (.self ..)
  have hopens : WellOpened (documented.take 2 ++ [.pass Span.unset]) := wellOpened_append (by decide) (by decide)
  exact ⟨⟨hcontains, hopens⟩, sheet_keepsOpening_iff _ _ _ _ hcontains hopens⟩

end Layout

namespace Project
open Layout Traced

/-- A module is declared in a comment that stands before an import from `__future__`. -/
def declaredFirst : String := "# amphi-mod: m\nfrom __future__ import annotations\n"

def declaredFirstStore : Store :=
  ⟨[(["blocking.py"], .file declaredFirst.toUTF8), (["blocking"], .directory),
    (["blocking", "m.py"], .file "pass\n".toUTF8)]⟩

/-- The import, and where it is. -/
def annotationsAt : Stmt :=
  .simple ⟨⟨some 2, some 0, some 2, some 34⟩, []⟩ (.importFrom (some "__future__") [⟨"annotations", none⟩] (some 0))

set_option maxRecDepth 4096 in
theorem readSource_declaredFirst (file : String) :
    readSource file declaredFirst = .ok [declaredM [], annotationsAt] := by
  have hparse : Grammar.parse declaredFirst.toList = some [annotationsAt] := by decide +kernel
  have hscan : Comments.scan declaredFirst.toList =
      .ok [⟨"# amphi-mod: m", false, ⟨some 1, some 0, some 1, some 14⟩⟩] := eq_ok_of_toOption (by decide +kernel)
  have hattach : Comments.attach declaredFirst.toList [⟨"# amphi-mod: m", false, ⟨some 1, some 0, some 1, some 14⟩⟩]
      [annotationsAt] = .ok [.comment ⟨"# amphi-mod: m", false, ⟨some 1, some 0, some 1, some 14⟩⟩, annotationsAt] := by
    cbv
  exact readSource_of_readAnnotated (readAnnotated_of_parse file (by decide) hparse hscan hattach) rfl

def declaredFirstTree : Tree := RootModule.tree [declaredM [passAt], annotationsAt] "blocking"

set_option maxRecDepth 4096 in
theorem generate_declaredFirst :
    (generate declaredFirstStore blockingNextToSource namesake).result = .ok [(.blocking, declaredFirstTree)] := by
  have htrees : variantTrees blockingNextToSource ⟨declaredFirstStore, ⟨.slash, []⟩⟩
      ⟨"blocking", namesake, [declaredM [], annotationsAt]⟩ [.blocking] =
        ⟨[.resolved ["blocking", "m"] plainPath], .ok [(.blocking, declaredFirstTree)]⟩ := by
    cbv
  exact (generate_namesake (by cbv) (by decide) (readSource_declaredFirst _) htrees).result

/-- The import of the module gets before the import from `__future__`. -/
theorem not_sheet_keepsOpening : ¬ ∀ (store : Store) (o : Options) (source : FilePath) (trees : List (Variant × Tree))
    (v : Variant) (t : Tree) (names : List String) (inner : List Stmt), (generate store o source).result = .ok trees →
      (v, t) ∈ trees → Contains v.name t.body names inner → WellOpened (own inner) → KeepsOpening inner := by
  intro h
  have hopens : WellOpened ([annotationsAt] ++ []) := wellOpened_append (by decide) (by simp)
  have hkeeps := h _ _ _ _ _ _ _ _ generate_declaredFirst (List.mem_singleton_self _) (.self ..) hopens
  have hbefore := hkeeps.wellOpened [importOf "m"] annotationsAt [] rfl rfl (importOf "m") (List.mem_singleton_self _)
  cases hbefore

end Project

end TwinModule
