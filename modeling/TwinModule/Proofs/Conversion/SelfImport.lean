import Mathlib.Data.List.Forall2
import TwinModule.Proofs.Conversion.Projection
/-!
Imports of the root module. In a path only the segment after the package is looked at, and among imported names only
those that are imported from where the root module is; what is found there is replaced and all else stays.
-/
set_option autoImplicit false

namespace TwinModule

namespace Text

theorem cut_append_sep {sep : Char} {p : List Char} (h : sep ∉ p) (cs : List Char) :
    cut sep (p ++ sep :: cs) = p :: cut sep cs := by
  induction p with
  | nil => simp [cut]
  | cons c p ih =>
    obtain ⟨hc, hp⟩ := not_or.1 (List.mem_cons.not.1 h)
    simp [cut, Ne.symm hc, ih hp]

/-- Parts that are glued are the parts again, if there are any and none has the separator in it. -/
theorem cut_glue {sep : Char} {ps : List (List Char)} (hne : ps ≠ []) (h : ∀ p ∈ ps, sep ∉ p) :
    cut sep (glue sep ps) = ps := by
  induction ps with
  | nil => exact absurd rfl hne
  | cons p ps ih =>
    obtain ⟨hp, hps⟩ := List.forall_mem_cons.1 h
    cases ps with
    | nil => exact cut_of_not_mem hp
    | cons q ps => rw [glue, cut_append_sep hp, ih (by simp) hps]

theorem toList_dotted (names : List String) : (dotted names).toList = glue '.' (names.map String.toList) := by
  induction names with
  | nil => simp [dotted, glue]
  | cons n names ih =>
    cases names with
    | nil => simp [dotted, glue]
    | cons m names =>
      rw [dotted, String.intercalate_cons_cons, ← dotted]
      simp [ih, glue]

/-- A name is one segment of a path. -/
def IsSegment (name : String) : Prop := '.' ∉ name.toList

theorem parts_dotted {names : List String} (hne : names ≠ []) (h : ∀ n ∈ names, IsSegment n) :
    parts '.' (dotted names) = names := by
  rw [parts, toList_dotted, cut_glue (by simpa using hne) (by simpa [IsSegment] using h)]
  simp [Function.comp_def]

theorem isSegment_of_mem_parts {s n : String} (h : n ∈ parts '.' s) : IsSegment n := by
  obtain ⟨p, hp, rfl⟩ := List.mem_map.1 h
  simpa [IsSegment] using not_mem_of_mem_cut hp

end Text

theorem Variant.isSegment_name (v : Variant) : Text.IsSegment v.name := by
  cases v <;> unfold Text.IsSegment <;> decide

theorem Variant.name_ne_empty (v : Variant) : v.name ≠ "" := by
  cases v <;> decide

namespace Conversion

open Text

variable {c : Conversion} {isRelative : Bool} {path : List String}

/-- How many segments of a path come before the one that may be the root module. -/
def depth (c : Conversion) (isRelative : Bool) : Nat := (c.lead isRelative).length

/-- Whether a path leads to the root module: the package comes first, if there is one, and the root module next. -/
def isSelfReference (c : Conversion) (isRelative : Bool) (path : List String) : Bool :=
  path.take (c.depth isRelative) == c.lead isRelative && path[c.depth isRelative]? == some c.rootName

/-- The path with another name in the place of the root module. -/
def pathWith (c : Conversion) (name : String) (isRelative : Bool) (path : List String) : String :=
  dotted (path.set (c.depth isRelative) name)

/-- An imported name, or another one if it is that of the root module. -/
def aliasWith (c : Conversion) (name : String) (a : Alias) : Alias := if a.name = c.rootName then { a with name } else a

/-- An import with another name in place of the root module, in paths that lead to it and where it is imported from the
package it is in. -/
def importWith (c : Conversion) (name : String) : Simple → Simple
  | .import_ names => .import_ (names.map fun a =>
      if c.isSelfReference false (parts '.' a.name) then { a with name := c.pathWith name false (parts '.' a.name) } else a)
  | .importFrom module names level =>
    let isRelative := level.getD 0 != 0
    let path := importPath module
    .importFrom (if c.isSelfReference isRelative path then some (c.pathWith name isRelative path) else module)
      (if c.imports isRelative path then names.map (c.aliasWith name) else names) level
  | s => s

theorem isSelfReference_iff :
    c.isSelfReference isRelative path = true ↔ ∃ inner, path = c.lead isRelative ++ c.rootName :: inner := by
  simp only [isSelfReference, Bool.and_eq_true, beq_iff_eq, depth]
  constructor
  · rintro ⟨htake, hroot⟩
    obtain ⟨hlt, hget⟩ := List.getElem?_eq_some_iff.1 hroot
    refine ⟨path.drop ((c.lead isRelative).length + 1), ?_⟩
    rw [← hget, ← List.drop_eq_getElem_cons hlt]
    exact (List.take_append_drop _ path).symm.trans (congrArg (· ++ _) htake)
  · rintro ⟨inner, rfl⟩
    simp

theorem isSelfReference_eq_leads : c.isSelfReference isRelative path = c.leads isRelative path :=
  Bool.eq_iff_iff.2 (isSelfReference_iff.trans leads_iff.symm)

theorem set_depth (name : String) (inner : List String) :
    (c.lead isRelative ++ c.rootName :: inner).set (c.depth isRelative) name = c.lead isRelative ++ name :: inner := by
  simp [depth]

theorem toVariant_eq (h : c.isSelfReference isRelative path = true) :
    c.toVariant isRelative path = c.pathWith c.variant.name isRelative path := by
  obtain ⟨inner, rfl⟩ := isSelfReference_iff.1 h
  rw [pathWith, set_depth, toVariant]
  simp [List.drop_append, List.drop_eq_nil_of_le]

/-- A path that leads to the root module is not the bare package. -/
theorem imports_of_isSelfReference (h : c.isSelfReference isRelative path = true) :
    c.imports isRelative path = false := by
  obtain ⟨inner, rfl⟩ := isSelfReference_iff.1 h
  simp [imports]

theorem retarget_eq_importWith (c : Conversion) (what : Simple) :
    c.retarget what = c.importWith c.variant.name what := by
  rw [retarget_eq_redirect]
  cases what with
  | import_ names =>
    refine congrArg Simple.import_ (List.map_congr_left fun a _ => ?_)
    rw [← isSelfReference_eq_leads]
    split
    · rename_i h
      rw [toVariant_eq h]
    · rfl
  | importFrom module names level =>
    simp only [redirect, importWith, ← isSelfReference_eq_leads]
    cases h : c.isSelfReference (level.getD 0 != 0) (importPath module) with
    | true => simp [imports_of_isSelfReference h, toVariant_eq h]
    | false =>
      simp only [Bool.false_eq_true, if_false]
      split <;> rfl
  | _ => rfl

theorem isSegment_of_mem_importPath {module : Option String} {n : String} (h : n ∈ importPath module) : IsSegment n := by
  unfold importPath at h
  split at h
  · split at h
    · cases h
    · exact isSegment_of_mem_parts h
  · cases h

/-- The segments of a path that leads to the root module are as they were, but for one. -/
theorem parts_pathWith {name : String} (hname : IsSegment name) (hpath : ∀ n ∈ path, IsSegment n)
    (h : c.isSelfReference isRelative path = true) :
    parts '.' (c.pathWith name isRelative path) = path.set (c.depth isRelative) name := by
  obtain ⟨inner, rfl⟩ := isSelfReference_iff.1 h
  refine parts_dotted (by simp) fun n hn => ?_
  rcases List.mem_or_eq_of_mem_set hn with hn | rfl
  · exact hpath n hn
  · exact hname

theorem importPath_pathWith (v : Variant) (hpath : ∀ n ∈ path, IsSegment n)
    (h : c.isSelfReference isRelative path = true) :
    importPath (some (c.pathWith v.name isRelative path)) = path.set (c.depth isRelative) v.name := by
  have hparts := parts_pathWith v.isSegment_name hpath h
  have hne : (c.pathWith v.name isRelative path).isEmpty = false := by
    refine Bool.eq_false_iff.2 fun hempty => v.name_ne_empty ?_
    obtain ⟨inner, rfl⟩ := isSelfReference_iff.1 h
    have hmem : v.name ∈ parts '.' (c.pathWith v.name isRelative (c.lead isRelative ++ c.rootName :: inner)) := by
      rw [hparts, set_depth]
      simp
    rw [String.isEmpty_iff.1 hempty] at hmem
    simpa [parts, cut] using hmem
  simp only [importPath, hne, hparts]
  rfl

/-- What was put in the place of the root module is put there again. -/
theorem pathWith_set (name : String) :
    c.pathWith name isRelative (path.set (c.depth isRelative) name) = c.pathWith name isRelative path := by
  rw [pathWith, pathWith, List.set_set]

theorem aliasWith_aliasWith (name : String) (a : Alias) : c.aliasWith name (c.aliasWith name a) = c.aliasWith name a := by
  by_cases h : a.name = c.rootName
  · simp [aliasWith, h]
  · simp [aliasWith, h]

theorem retarget_retarget (c : Conversion) (what : Simple) : c.retarget (c.retarget what) = c.retarget what := by
  simp only [retarget_eq_importWith]
  cases what with
  | import_ names =>
    simp only [importWith, List.map_map]
    refine congrArg Simple.import_ (List.map_congr_left fun a _ => ?_)
    simp only [Function.comp]
    cases h : c.isSelfReference false (parts '.' a.name) with
    | false => simp [h]
    | true =>
      have hparts := parts_pathWith c.variant.isSegment_name (fun n => isSegment_of_mem_parts) h
      simp only [if_true, hparts, pathWith_set, ite_self]
  | importFrom module names level =>
    simp only [importWith]
    cases h : c.isSelfReference (level.getD 0 != 0) (importPath module) with
    | false =>
      simp only [h, Bool.false_eq_true, if_false]
      split
      · simp [aliasWith_aliasWith, Function.comp_def]
      · rfl
    | true =>
      have hpath := importPath_pathWith c.variant (fun n => isSegment_of_mem_importPath) h
      have himports : c.imports (level.getD 0 != 0)
          ((importPath module).set (c.depth (level.getD 0 != 0)) c.variant.name) = false := by
        obtain ⟨inner, hi⟩ := isSelfReference_iff.1 h
        rw [hi, set_depth]
        simp [imports]
      simp [hpath, himports, imports_of_isSelfReference h, pathWith_set]
  | _ => rfl

/-- Two paths that are the same but for one segment. -/
def SameBut (k : Nat) (p q : List String) : Prop := p.length = q.length ∧ ∀ i, i ≠ k → p[i]? = q[i]?

theorem sameBut_refl (k : Nat) (p : List String) : SameBut k p p := ⟨rfl, fun _ _ => rfl⟩

theorem sameBut_set (k : Nat) (x y : String) (p : List String) : SameBut k (p.set k x) (p.set k y) :=
  ⟨by simp, fun i hi => by rw [List.getElem?_set_ne hi.symm, List.getElem?_set_ne hi.symm]⟩

/-- Two imports that only differ in the segment of a path that leads to the root module, or in imported names that are
those of two variants. -/
def DifferIn (c : Conversion) (v w : Variant) : Simple → Simple → Prop
  | .import_ names, .import_ names' =>
    List.Forall₂ (fun a b => a.asName = b.asName ∧
      SameBut (c.depth false) (parts '.' a.name) (parts '.' b.name)) names names'
  | .importFrom module names level, .importFrom module' names' level' =>
    level = level' ∧
      ((names = names' ∧ SameBut (c.depth (level.getD 0 != 0)) (importPath module) (importPath module')) ∨
        (module = module' ∧ List.Forall₂ (fun a b => a.asName = b.asName ∧
          (a.name = b.name ∨ a.name = v.name ∧ b.name = w.name)) names names'))
  | s, s' => s = s'

theorem differIn_importWith (c : Conversion) (v w : Variant) (what : Simple) :
    c.DifferIn v w (c.importWith v.name what) (c.importWith w.name what) := by
  cases what with
  | import_ names =>
    refine List.forall₂_map_left_iff.2 (List.forall₂_map_right_iff.2 (List.forall₂_same.2 fun a _ => ?_))
    cases h : c.isSelfReference false (parts '.' a.name) with
    | false => exact ⟨rfl, sameBut_refl ..⟩
    | true =>
      have hpath : ∀ n ∈ parts '.' a.name, IsSegment n := fun n => isSegment_of_mem_parts
      refine ⟨rfl, ?_⟩
      simp only [if_true, parts_pathWith v.isSegment_name hpath h, parts_pathWith w.isSegment_name hpath h]
      exact sameBut_set ..
  | importFrom module names level =>
    refine ⟨rfl, ?_⟩
    cases h : c.isSelfReference (level.getD 0 != 0) (importPath module) with
    | true =>
      have hpath : ∀ n ∈ importPath module, IsSegment n := fun n => isSegment_of_mem_importPath
      simp only [imports_of_isSelfReference h, if_true, importPath_pathWith v hpath h, importPath_pathWith w hpath h]
      exact .inl ⟨rfl, sameBut_set ..⟩
    | false =>
      refine .inr ⟨rfl, ?_⟩
      split
      · refine List.forall₂_map_left_iff.2 (List.forall₂_map_right_iff.2 (List.forall₂_same.2 fun a _ => ?_))
        by_cases ha : a.name = c.rootName <;> simp [aliasWith, ha]
      · exact List.forall₂_same.2 fun a _ => ⟨rfl, .inl rfl⟩
  | _ => rfl

/-- The path of an import and of an import from it lead to the same. -/
theorem exists_path_of_imports (c : Conversion) {p : String} (hp : p ≠ "") :
    ∃ p', (∀ asName, c.retarget (.import_ [⟨p, asName⟩]) = .import_ [⟨p', asName⟩]) ∧
      ∀ names level, level.getD 0 = 0 →
        ∃ names', c.retarget (.importFrom (some p) names level) = .importFrom (some p') names' level := by
  have hpath : importPath (some p) = parts '.' p := by simp [importPath, hp]
  refine ⟨if c.isSelfReference false (parts '.' p) then c.pathWith c.variant.name false (parts '.' p) else p,
    fun asName => ?_, fun names level hlevel => ?_⟩
  · rw [retarget_eq_importWith]
    simp only [importWith, List.map_cons, List.map_nil]
    split <;> rfl
  · refine ⟨if c.imports false (parts '.' p) then names.map (c.aliasWith c.variant.name) else names, ?_⟩
    rw [retarget_eq_importWith]
    simp only [importWith, hlevel, hpath, bne_self_eq_false]
    split <;> rfl

/-- What a conversion makes of imports. -/
structure RedirectsImports (c : Conversion) : Prop where
  /-- Wherever an import stands, the variant takes the place of the root module and nothing else changes. -/
  exact : ∀ (load : Loader) (around : Surroundings) (info : Info) (what : Simple),
    info.tags.any (Tag.names c.variant.other) = false →
    c.tailor load around (.simple info what) = pure [.simple (c.untagged info) (c.importWith c.variant.name what)]
  /-- A path that leads to the root module keeps all its segments but the one that is the root module. -/
  segments : ∀ (isRelative : Bool) (p : String), c.isSelfReference isRelative (parts '.' p) = true →
    parts '.' (c.pathWith c.variant.name isRelative (parts '.' p)) =
      (parts '.' p).set (c.depth isRelative) c.variant.name
  /-- A path becomes the same path in an import and in an import from it. -/
  samePath : ∀ p : String, p ≠ "" → ∃ p',
    (∀ asName, c.retarget (.import_ [⟨p, asName⟩]) = .import_ [⟨p', asName⟩]) ∧
    ∀ names level, level.getD 0 = 0 →
      ∃ names', c.retarget (.importFrom (some p) names level) = .importFrom (some p') names' level
  /-- For two variants the results differ in that segment or in the imported names. -/
  variants : ∀ (v w : Variant) (what : Simple),
    c.DifferIn v w (Conversion.retarget { c with variant := v } what) (Conversion.retarget { c with variant := w } what)
  again : ∀ what : Simple, c.retarget (c.retarget what) = c.retarget what

/-- Imports of the root module are made imports of the variant, and no other imports change. -/
theorem redirectsImports (c : Conversion) : c.RedirectsImports where
  exact load around info what hf := by rw [tailor_simple hf, retarget_eq_importWith]
  segments isRelative p h := parts_pathWith c.variant.isSegment_name (fun n => isSegment_of_mem_parts) h
  samePath p hp := c.exists_path_of_imports hp
  variants v w what := by
    rw [retarget_eq_importWith, retarget_eq_importWith]
    exact c.differIn_importWith v w what
  again := c.retarget_retarget

example : (⟨.blocking, "a", some "a"⟩ : Conversion).retarget (.import_ [⟨"a.a.a", some "a"⟩, ⟨"a", none⟩]) =
    .import_ [⟨"a.blocking.a", some "a"⟩, ⟨"a", none⟩] := by cbv

end Conversion

end TwinModule
