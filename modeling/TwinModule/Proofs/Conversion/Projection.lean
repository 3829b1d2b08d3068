import Mathlib
import TwinModule.Proofs.Conversion.Tailor
import TwinModule.Proofs.Directive.Attached
import TwinModule.Proofs.Tree.Tidy
/-!
The projection of a tree to a variant, and that converting a tree without modules in other files gives it. The passes
of a conversion leave statements behind and take them out later; the projection drops them at once.
-/
set_option autoImplicit false

namespace TwinModule

mutual

/-- Whether a property holds of a statement and of all statements in it. -/
def Stmt.Every (p : Stmt → Prop) : Stmt → Prop
  | .simple info what => p (.simple info what)
  | .comment c => p (.comment c)
  | .block info head body => p (.block info head body) ∧ stmtsEvery p body
  | .branch info head body orelse => p (.branch info head body orelse) ∧ stmtsEvery p body ∧ stmtsEvery p orelse
  | .attempt info isGroup body handlers orelse finalbody =>
    p (.attempt info isGroup body handlers orelse finalbody) ∧ stmtsEvery p body ∧ handlersEvery p handlers ∧
      stmtsEvery p orelse ∧ stmtsEvery p finalbody
  | .select info subject cases => p (.select info subject cases) ∧ casesEvery p cases

def stmtsEvery (p : Stmt → Prop) : List Stmt → Prop
  | [] => True
  | s :: ss => s.Every p ∧ stmtsEvery p ss

def handlersEvery (p : Stmt → Prop) : List Handler → Prop
  | [] => True
  | .comment _ :: hs => handlersEvery p hs
  | .handler _ _ _ body :: hs => stmtsEvery p body ∧ handlersEvery p hs

def casesEvery (p : Stmt → Prop) : List Case → Prop
  | [] => True
  | .comment _ :: cs => casesEvery p cs
  | .case _ _ _ body :: cs => stmtsEvery p body ∧ casesEvery p cs

end

theorem Stmt.Every.self {p : Stmt → Prop} {s : Stmt} (h : s.Every p) : p s := by
  cases s with
  | simple info what => exact h
  | comment c => exact h
  | _ => exact h.1

/-- A module that is in place: it has a statement and names no source. -/
def Stmt.InPlace : Stmt → Prop
  | .block info (.module_ _) body => isInline body = true ∧ ∀ t ∈ info.tags, ¬ t.IsSource
  | _ => True

namespace Conversion

variable (c : Conversion)

/-- The names that lead to the root module in an import. -/
def lead (isRelative : Bool) : List String :=
  match c.package with
  | some package => if isRelative || package.isEmpty then [] else Text.parts '.' package
  | none => []

/-- Whether the path of an import leads to the root module or into it. -/
def leads (isRelative : Bool) (path : List String) : Bool := (c.lead isRelative ++ [c.rootName]).isPrefixOf path

/-- The path that leads to the variant instead. -/
def toVariant (isRelative : Bool) (path : List String) : String :=
  Text.dotted (c.lead isRelative ++ c.variant.name :: path.drop ((c.lead isRelative).length + 1))

/-- The path of an import that may have none. -/
def importPath (module : Option String) : List String :=
  match module with
  | some m => if m.isEmpty then [] else Text.parts '.' m
  | none => []

/-- Whether names are imported from where the root module is. -/
def imports (isRelative : Bool) (path : List String) : Bool :=
  path == c.lead isRelative && (isRelative || !path.isEmpty)

/-- An import of the root module made one of the variant. -/
def redirect : Simple → Simple
  | .import_ names => .import_ (names.map fun a =>
      if c.leads false (Text.parts '.' a.name) then { a with name := c.toVariant false (Text.parts '.' a.name) } else a)
  | .importFrom module names level =>
    let isRelative := level.getD 0 != 0
    let path := importPath module
    if c.leads isRelative path then .importFrom (some (c.toVariant isRelative path)) names level
    else if c.imports isRelative path then
      .importFrom module (names.map fun a => if a.name = c.rootName then { a with name := c.variant.name } else a) level
    else .importFrom module names level
  | s => s

mutual

/-- A statement of the variant, without the tags that say so and without statements of the other variant. -/
def project : Stmt → Stmt
  | .simple info what => .simple (c.untagged info) (c.redirect what)
  | .comment k => .comment k
  | .block info head body => .block (c.untagged info) head (orPass info.span (projectStmts body))
  | .branch info head body orelse =>
    .branch (c.untagged info) head (orPass info.span (projectStmts body)) (projectStmts orelse)
  | .attempt info isGroup body handlers orelse finalbody =>
    .attempt (c.untagged info) isGroup (orPass info.span (projectStmts body)) (projectHandlers handlers)
      (projectStmts orelse)
      (if !isGroup && handlers.isEmpty then orPass info.span (projectStmts finalbody) else projectStmts finalbody)
  | .select info subject cases => .select (c.untagged info) subject (projectCases cases)

def projectStmts : List Stmt → List Stmt
  | [] => []
  | s :: ss => if s.isFor c.variant.other then projectStmts ss else project s :: projectStmts ss

def projectHandlers : List Handler → List Handler
  | [] => []
  | .comment k :: hs => .comment k :: projectHandlers hs
  | .handler span type name body :: hs =>
    .handler span type name (orPass span (projectStmts body)) :: projectHandlers hs

def projectCases : List Case → List Case
  | [] => []
  | .comment k :: cs => .comment k :: projectCases cs
  | .case lines pattern guard body :: cs =>
    .case lines pattern guard (orPass Span.unset (projectStmts body)) :: projectCases cs

end

/-- What is not for the other variant stays, once and in its place. -/
theorem projectStmts_eq_map (ss : List Stmt) :
    c.projectStmts ss = (ss.filter fun s => !s.isFor c.variant.other).map c.project := by
  induction ss with
  | nil => rfl
  | cons s ss ih =>
    cases hs : s.isFor c.variant.other with
    | true => simp [projectStmts, hs, ih]
    | false => simp [projectStmts, hs, ih]

variable {c}

theorem withoutPackage_eq_some_iff {isRelative : Bool} {path rest : List String} :
    c.withoutPackage path isRelative = some rest ↔ path = c.lead isRelative ++ rest := by
  unfold withoutPackage lead
  cases c.package with
  | none => simp
  | some package =>
    by_cases hr : (isRelative || package.isEmpty) = true
    · simp [hr]
    · simp only [hr, Bool.false_eq_true, if_false]
      split
      · rename_i hp
        obtain ⟨tail, rfl⟩ := List.isPrefixOf_iff_prefix.1 hp
        simp
      · rename_i hp
        constructor
        · intro h
          cases h
        · rintro rfl
          exact absurd (List.isPrefixOf_iff_prefix.2 (List.prefix_append ..)) hp

theorem leads_iff {isRelative : Bool} {path : List String} :
    c.leads isRelative path = true ↔ ∃ inner, path = c.lead isRelative ++ c.rootName :: inner := by
  rw [leads, List.isPrefixOf_iff_prefix]
  constructor
  · rintro ⟨inner, rfl⟩
    exact ⟨inner, by simp⟩
  · rintro ⟨inner, rfl⟩
    exact ⟨inner, by simp⟩

theorem retargetName_eq {isRelative : Bool} {path rest : List String} (h : path = c.lead isRelative ++ rest) :
    c.retargetName path rest = if c.leads isRelative path then some (c.toVariant isRelative path) else none := by
  subst h
  cases rest with
  | nil =>
    have hl : c.leads isRelative (c.lead isRelative ++ []) = false := by
      rw [Bool.eq_false_iff]
      intro hl
      obtain ⟨inner, hi⟩ := leads_iff.1 hl
      simp at hi
    rw [hl]
    rfl
  | cons first inner =>
    by_cases hf : first = c.rootName
    · subst hf
      have hl : c.leads isRelative (c.lead isRelative ++ c.rootName :: inner) = true := leads_iff.2 ⟨inner, rfl⟩
      have hd : (c.lead isRelative ++ c.rootName :: inner).drop ((c.lead isRelative).length + 1) = inner := by
        simp [List.drop_append, List.drop_eq_nil_of_le]
      simp [retargetName, hl, toVariant, hd]
    · have hl : c.leads isRelative (c.lead isRelative ++ first :: inner) = false := by
        rw [Bool.eq_false_iff]
        intro hl
        obtain ⟨inner', hi⟩ := leads_iff.1 hl
        simp [hf] at hi
      simp [retargetName, hl, hf]

theorem leads_of_withoutPackage_eq_none {isRelative : Bool} {path : List String}
    (h : c.withoutPackage path isRelative = none) :
    c.leads isRelative path = false ∧ c.imports isRelative path = false := by
  have hne : ∀ rest, path ≠ c.lead isRelative ++ rest := by
    intro rest hp
    rw [withoutPackage_eq_some_iff.2 hp] at h
    cases h
  constructor
  · rw [Bool.eq_false_iff]
    intro hl
    obtain ⟨inner, hi⟩ := leads_iff.1 hl
    exact hne _ hi
  · have : (path == c.lead isRelative) = false := by simpa using hne []
    simp [imports, this]

theorem retargetAlias_eq (a : Alias) :
    c.retargetAlias a =
      if c.leads false (Text.parts '.' a.name) then { a with name := c.toVariant false (Text.parts '.' a.name) }
      else a := by
  unfold retargetAlias
  cases hw : c.withoutPackage (Text.parts '.' a.name) false with
  | none => simp [hw, (leads_of_withoutPackage_eq_none hw).1]
  | some rest =>
    simp only [hw, Option.bind_some, retargetName_eq (withoutPackage_eq_some_iff.1 hw)]
    cases c.leads false (Text.parts '.' a.name) <;> rfl

theorem retarget_importFrom (c : Conversion) (module : Option String) (names : List Alias) (level : Option Nat) :
    c.retarget (.importFrom module names level) =
      match c.withoutPackage (importPath module) (level.getD 0 != 0) with
      | none => .importFrom module names level
      | some [] =>
        if (level.getD 0 != 0) || !(importPath module).isEmpty then
          .importFrom module (names.map fun a => if a.name = c.rootName then { a with name := c.variant.name } else a)
            level
        else .importFrom module names level
      | some rest =>
        match c.retargetName (importPath module) rest with
        | some name => .importFrom (some name) names level
        | none => .importFrom module names level := rfl

/-- The one rule for imports says the same as looking for the package first. -/
theorem retarget_eq_redirect (what : Simple) : c.retarget what = c.redirect what := by
  cases what with
  | import_ names => exact congrArg Simple.import_ (List.map_congr_left fun a _ => retargetAlias_eq a)
  | importFrom module names level =>
    rw [retarget_importFrom, redirect]
    generalize (level.getD 0 != 0) = isRelative
    cases hw : c.withoutPackage (importPath module) isRelative with
    | none =>
      obtain ⟨hl, hi⟩ := leads_of_withoutPackage_eq_none hw
      simp [hl, hi]
    | some rest =>
      have hp := withoutPackage_eq_some_iff.1 hw
      have hn := retargetName_eq hp
      -- Without anything after the package, the root module can only be among the names that are imported.
      cases rest with
      | nil =>
        have hl : c.leads isRelative (importPath module) = false := by
          cases hl : c.leads isRelative (importPath module) with
          | false => rfl
          | true => simp [hl, retargetName] at hn
        have hi : c.imports isRelative (importPath module) = (isRelative || !(importPath module).isEmpty) := by
          simp [imports, hp]
        simp only [hl, hi]
        rfl
      | cons first inner =>
        have hi : c.imports isRelative (importPath module) = false := by
          simp [imports, hp]
        simp only [hn, hi]
        cases c.leads isRelative (importPath module) <;> rfl
  | _ => rfl

theorem isEmpty_projectHandlers (hs : List Handler) : (c.projectHandlers hs).isEmpty = hs.isEmpty := by
  cases hs with
  | nil => rfl
  | cons h hs => cases h <;> rfl

/-- What is left of a statement is its projection, or nothing if it is for the other variant. -/
def Gives (c : Conversion) (x : Traced (List Stmt)) (s : Stmt) : Prop :=
  ∃ out, x.result = .ok out ∧ tidyStmts out = if s.isFor c.variant.other then [] else [c.project s]

variable {load : Loader} {around : Surroundings}

theorem gives_of_other {s : Stmt} (h : s.isFor c.variant.other = true) : c.Gives (c.tailor load around s) s := by
  refine ⟨_, (congrArg Traced.result (tailor_of_other h)).trans (leave_result c s), ?_⟩
  rw [if_pos h]
  split <;> rfl

/-- A statement of the variant stays as one statement. -/
theorem gives_of_own {x : Traced (List Stmt)} {s t : Stmt} (h : s.isFor c.variant.other = false)
    (hx : x.result = .ok [t]) (he : t.isErased = false) (ht : t.tidy = c.project s) : c.Gives x s := by
  refine ⟨[t], hx, ?_⟩
  rw [h, tidyStmts_eq]
  simp [he, ht]

theorem gives_tailor_block {outer : Bool} {info : Info} {head : BlockHead} {body : List Stmt}
    (hi : Rule.attached.stmt outer head.role info.tags) (hp : (Stmt.block info head body).InPlace)
    (ih : ∀ around, ∃ out, (c.tailorStmts load around body).result = .ok out ∧ tidyStmts out = c.projectStmts body) :
    c.Gives (c.tailor load around (.block info head body)) (.block info head body) := by
  cases ho : info.tags.any (Tag.names c.variant.other) with
  | true => exact gives_of_other ho
  | false =>
    have hs : (Stmt.block info head body).isFor c.variant.other = false := ho
    cases hm : head.role with
    | erased => exact absurd hm hi.1
    | ordinary =>
      obtain ⟨out, hout, ht⟩ := ih around
      refine gives_of_own hs (t := .block (c.untagged info) head out) ?_ rfl ?_
      · rw [tailor_block ho hm]
        simp only [Traced.bind_result, hout]
        rfl
      · rw [tidy_block, ht]
        rfl
    | module_ =>
      cases head with
      | module_ name =>
        obtain ⟨hinline, hsource⟩ := hp
        obtain ⟨out, hout, ht⟩ := ih { around with modulePath := around.modulePath ++ [name] }
        refine gives_of_own hs (t := .block (c.untagged info) (.module_ name) out) ?_ rfl ?_
        · rw [tailor_inline ho hinline hsource]
          simp only [Traced.bind_result, hout]
          rfl
        · rw [tidy_block, ht]
          rfl
      | _ => cases hm

mutual

theorem gives_tailor {outer : Bool} (around : Surroundings) : (s : Stmt) → s.Obeys .attached outer →
    s.Every Stmt.InPlace → c.Gives (c.tailor load around s) s
  | .comment k, _, _ => ⟨[.comment k], rfl, rfl⟩
  | .simple info what, hs, _ => by
    cases ho : info.tags.any (Tag.names c.variant.other) with
    | true => exact gives_of_other ho
    | false =>
      rw [tailor_simple ho]
      have he : (Stmt.simple (c.untagged info) (c.retarget what)).isErased = false := by
        rw [Stmt.isErased_eq_false_iff]
        simp only [Stmt.role, role_retarget]
        exact hs.1
      refine gives_of_own ho rfl he ?_
      simp only [project, ← retarget_eq_redirect]
      rfl
  | .block info head body, ⟨hi, _, hb⟩, ⟨hp, hpb⟩ =>
    gives_tailor_block hi hp fun around => tailorStmts_result around body hb hpb
  | .branch info head body orelse, ⟨_, ⟨_, hb⟩, _, ho⟩, ⟨_, hpb, hpo⟩ => by
    cases hother : info.tags.any (Tag.names c.variant.other) with
    | true => exact gives_of_other hother
    | false =>
      obtain ⟨body', hbody, htb⟩ := tailorStmts_result around body hb hpb
      obtain ⟨orelse', horelse, hto⟩ := tailorStmts_result around orelse ho hpo
      rw [tailor_branch hother]
      refine gives_of_own hother (t := .branch (c.untagged info) head body' orelse') ?_ rfl ?_
      · simp only [Traced.bind_result, hbody, horelse]
        rfl
      · rw [tidy_branch, htb, hto]
        rfl
  | .attempt info isGroup body handlers orelse finalbody, ⟨_, ⟨_, hb⟩, hh, ⟨_, ho⟩, _, hf⟩,
    ⟨_, hpb, hph, hpo, hpf⟩ => by
    cases hother : info.tags.any (Tag.names c.variant.other) with
    | true => exact gives_of_other hother
    | false =>
      obtain ⟨body', hbody, htb⟩ := tailorStmts_result around body hb hpb
      obtain ⟨handlers', hhandlers, hth⟩ := tailorHandlers_result around handlers hh hph
      obtain ⟨orelse', horelse, hto⟩ := tailorStmts_result around orelse ho hpo
      obtain ⟨finalbody', hfinal, htf⟩ := tailorStmts_result around finalbody hf hpf
      rw [tailor_attempt hother]
      refine gives_of_own hother (t := .attempt (c.untagged info) isGroup body' handlers' orelse' finalbody') ?_ rfl ?_
      · simp only [Traced.bind_result, hbody, hhandlers, horelse, hfinal]
        rfl
      · rw [tidy_attempt, htb, hth, hto, htf, isEmpty_projectHandlers]
        rfl
  | .select info subject cases, ⟨_, hc⟩, ⟨_, hpc⟩ => by
    cases hother : info.tags.any (Tag.names c.variant.other) with
    | true => exact gives_of_other hother
    | false =>
      obtain ⟨cases', hcases, htc⟩ := tailorCases_result around cases hc hpc
      rw [tailor_select hother]
      refine gives_of_own hother (t := .select (c.untagged info) subject cases') ?_ rfl ?_
      · simp only [Traced.bind_result, hcases]
        rfl
      · rw [tidy_select, htc]
        rfl

theorem tailorStmts_result {outer : Bool} (around : Surroundings) : (ss : List Stmt) → stmtsObey .attached outer ss →
    stmtsEvery Stmt.InPlace ss →
    ∃ out, (c.tailorStmts load around ss).result = .ok out ∧ tidyStmts out = c.projectStmts ss
  | [], _, _ => ⟨[], rfl, rfl⟩
  | s :: ss, ⟨hs, hss⟩, ⟨hp, hps⟩ => by
    obtain ⟨first, hfirst, htf⟩ := gives_tailor around s hs hp
    obtain ⟨rest, hrest, htr⟩ := tailorStmts_result around ss hss hps
    refine ⟨first ++ rest, ?_, ?_⟩
    · simp only [tailorStmts, Traced.bind_result, hfirst, hrest]
      rfl
    · rw [tidyStmts_append, htf, htr, projectStmts]
      split <;> rfl

theorem tailorHandlers_result (around : Surroundings) : (hs : List Handler) → handlersObey .attached hs →
    handlersEvery Stmt.InPlace hs →
    ∃ out, (c.tailorHandlers load around hs).result = .ok out ∧ tidyHandlers out = c.projectHandlers hs
  | [], _, _ => ⟨[], rfl, rfl⟩
  | .comment k :: hs, ⟨_, hhs⟩, hps => by
    obtain ⟨rest, hrest, htr⟩ := tailorHandlers_result around hs hhs hps
    refine ⟨.comment k :: rest, ?_, congrArg (Handler.comment k :: ·) htr⟩
    simp only [tailorHandlers, Traced.bind_result, hrest]
    rfl
  | .handler span type name body :: hs, ⟨⟨_, hb⟩, hhs⟩, ⟨hpb, hps⟩ => by
    obtain ⟨body', hbody, htb⟩ := tailorStmts_result around body hb hpb
    obtain ⟨rest, hrest, htr⟩ := tailorHandlers_result around hs hhs hps
    refine ⟨.handler span type name body' :: rest, ?_, ?_⟩
    · simp only [tailorHandlers, Traced.bind_result, hbody, hrest]
      rfl
    · rw [projectHandlers, ← htb, ← htr]
      rfl

theorem tailorCases_result (around : Surroundings) : (cs : List Case) → casesObey .attached cs →
    casesEvery Stmt.InPlace cs →
    ∃ out, (c.tailorCases load around cs).result = .ok out ∧ tidyCases out = c.projectCases cs
  | [], _, _ => ⟨[], rfl, rfl⟩
  | .comment k :: cs, ⟨_, hcs⟩, hps => by
    obtain ⟨rest, hrest, htr⟩ := tailorCases_result around cs hcs hps
    refine ⟨.comment k :: rest, ?_, congrArg (Case.comment k :: ·) htr⟩
    simp only [tailorCases, Traced.bind_result, hrest]
    rfl
  | .case lines pattern guard body :: cs, ⟨⟨_, hb⟩, hcs⟩, ⟨hpb, hps⟩ => by
    obtain ⟨body', hbody, htb⟩ := tailorStmts_result around body hb hpb
    obtain ⟨rest, hrest, htr⟩ := tailorCases_result around cs hcs hps
    refine ⟨.case lines pattern guard body' :: rest, ?_, ?_⟩
    · simp only [tailorCases, Traced.bind_result, hbody, hrest]
      rfl
    · rw [projectCases, ← htb, ← htr]
      rfl

end

variable (c) in
/-- Whether an import leads to the root module or names it. -/
def IsSelfImport : Simple → Prop
  | .import_ names => ∃ a ∈ names, c.leads false (Text.parts '.' a.name) = true
  | .importFrom module names level =>
    c.leads (level.getD 0 != 0) (importPath module) = true ∨
      c.imports (level.getD 0 != 0) (importPath module) = true ∧ ∃ a ∈ names, a.name = c.rootName
  | _ => False

variable (c) in
/-- A statement that conversion has nothing to do with: no tags, and no import of the root module. -/
def IsUntouched (s : Stmt) : Prop := s.tags = [] ∧ ∀ info what, s = .simple info what → ¬ c.IsSelfImport what

theorem redirect_eq_self {what : Simple} (h : ¬ c.IsSelfImport what) : c.redirect what = what := by
  cases what with
  | import_ names =>
    refine congrArg Simple.import_ ?_
    conv => rhs; rw [← List.map_id names]
    refine List.map_congr_left fun a ha => ?_
    rw [if_neg fun hl => h ⟨a, ha, hl⟩]
    rfl
  | importFrom module names level =>
    simp only [IsSelfImport, not_or, not_and] at h
    obtain ⟨hl, hi⟩ := h
    rw [redirect, if_neg hl]
    split
    · rename_i himports
      have hmap : names.map (fun a => if a.name = c.rootName then { a with name := c.variant.name } else a) =
          names.map id :=
        List.map_congr_left fun a ha => if_neg fun hn => hi himports ⟨a, ha, hn⟩
      rw [hmap, List.map_id]
    · rfl
  | _ => rfl

theorem untagged_eq_self {info : Info} (h : info.tags = []) : c.untagged info = info := by
  cases info
  cases h
  rfl

theorem orPass_projectStmts {span span' : Span} {isBare : Bool} {body : List Stmt}
    (hf : Rule.Filled (.item span' isBare) .body body) (h : c.projectStmts body = body) :
    orPass span (c.projectStmts body) = body := by
  rw [h, orPass_of_any (hf rfl)]

mutual

theorem project_eq_self {outer : Bool} : (s : Stmt) → s.Obeys .attached outer → s.Every Stmt.InPlace →
    s.Every c.IsUntouched → c.project s = s
  | .comment _, _, _, _ => rfl
  | .simple info what, _, _, ⟨ht, hw⟩ => by
    rw [project, untagged_eq_self ht, redirect_eq_self (hw info what rfl)]
  | .block info head body, ⟨_, hf, hb⟩, ⟨hp, hpb⟩, ⟨⟨ht, _⟩, hub⟩ => by
    have hreal : body.any Stmt.isReal = true := by
      cases hm : head.isModule with
      | false => exact hf hm rfl
      | true =>
        cases head with
        | module_ name => exact hp.1
        | _ => cases hm
    rw [project, untagged_eq_self ht, projectStmts_eq_self body hb hpb hub, orPass_of_any hreal]
  | .branch info head body orelse, ⟨_, ⟨hf, hb⟩, _, ho⟩, ⟨_, hpb, hpo⟩, ⟨⟨ht, _⟩, hub, huo⟩ => by
    rw [project, untagged_eq_self ht, orPass_projectStmts (hf rfl) (projectStmts_eq_self body hb hpb hub),
      projectStmts_eq_self orelse ho hpo huo]
  | .attempt info isGroup body handlers orelse finalbody, ⟨_, ⟨hf, hb⟩, hh, ⟨_, ho⟩, hff, hfb⟩,
    ⟨_, hpb, hph, hpo, hpf⟩, ⟨⟨ht, _⟩, hub, huh, huo, huf⟩ => by
    have hfinal : (if !isGroup && handlers.isEmpty then orPass info.span finalbody else finalbody) = finalbody := by
      split
      · rename_i hbare
        rw [hbare] at hff
        exact orPass_of_any (hff rfl rfl)
      · rfl
    rw [project, untagged_eq_self ht, orPass_projectStmts (hf rfl) (projectStmts_eq_self body hb hpb hub),
      projectHandlers_eq_self handlers hh hph huh, projectStmts_eq_self orelse ho hpo huo,
      projectStmts_eq_self finalbody hfb hpf huf, hfinal]
  | .select info subject cases, ⟨_, hc⟩, ⟨_, hpc⟩, ⟨⟨ht, _⟩, huc⟩ => by
    rw [project, untagged_eq_self ht, projectCases_eq_self cases hc hpc huc]

theorem projectStmts_eq_self {outer : Bool} : (ss : List Stmt) → stmtsObey .attached outer ss →
    stmtsEvery Stmt.InPlace ss → stmtsEvery c.IsUntouched ss → c.projectStmts ss = ss
  | [], _, _, _ => rfl
  | s :: ss, ⟨hs, hss⟩, ⟨hp, hps⟩, ⟨hu, hus⟩ => by
    have hother : s.isFor c.variant.other = false := by
      rw [Stmt.isFor, hu.self.1]
      rfl
    rw [projectStmts, if_neg (by simp [hother]), project_eq_self s hs hp hu, projectStmts_eq_self ss hss hps hus]

theorem projectHandlers_eq_self : (hs : List Handler) → handlersObey .attached hs →
    handlersEvery Stmt.InPlace hs → handlersEvery c.IsUntouched hs → c.projectHandlers hs = hs
  | [], _, _, _ => rfl
  | .comment k :: hs, ⟨_, hhs⟩, hps, hus => by
    rw [projectHandlers, projectHandlers_eq_self hs hhs hps hus]
  | .handler span type name body :: hs, ⟨⟨hf, hb⟩, hhs⟩, ⟨hpb, hps⟩, ⟨hub, hus⟩ => by
    rw [projectHandlers, orPass_projectStmts (hf rfl) (projectStmts_eq_self body hb hpb hub),
      projectHandlers_eq_self hs hhs hps hus]

theorem projectCases_eq_self : (cs : List Case) → casesObey .attached cs →
    casesEvery Stmt.InPlace cs → casesEvery c.IsUntouched cs → c.projectCases cs = cs
  | [], _, _, _ => rfl
  | .comment k :: cs, ⟨_, hcs⟩, hps, hus => by
    rw [projectCases, projectCases_eq_self cs hcs hps hus]
  | .case lines pattern guard body :: cs, ⟨⟨hf, hb⟩, hcs⟩, ⟨hpb, hps⟩, ⟨hub, hus⟩ => by
    rw [projectCases, orPass_projectStmts (hf rfl) (projectStmts_eq_self body hb hpb hub),
      projectCases_eq_self cs hcs hps hus]

end

/-- Converting a file whose modules are all in place succeeds and gives its projection to the variant; a file without
tags and imports of the root module stays as it is. -/
theorem convert_eq_projection (c : Conversion) (lib : Option Library) (origin : Option FilePath) (file source : String)
    (body : List Stmt) (hread : readSource file source = .ok body) (hplace : stmtsEvery Stmt.InPlace body) :
    (c.convert lib origin (.file body)).result = .ok (.file (c.projectStmts body)) ∧
    (stmtsEvery c.IsUntouched body → c.projectStmts body = body) := by
  have hobeys := readSource_obeys hread
  refine ⟨?_, projectStmts_eq_self body hobeys hplace⟩
  obtain ⟨out, hout, ht⟩ := tailorStmts_result ⟨[c.rootName], origin.map FilePath.text, []⟩ body hobeys hplace
  have hconvert : (c.convert lib origin (.file body)).result = .ok ((Tree.file body).withBody out).finalize :=
    convert_result_of_tailorStmts rfl hout
  rw [hconvert, Tree.withBody, Tree.finalize_file, ht]

def blockingInModule : String := "# amphi-begin: m\n# amphi: blocking\npass\n# amphi-end: m\n"

def blockingInModuleBody : List Stmt :=
  [.block ⟨⟨some 1, some 0, some 4, some 14⟩, []⟩ (.module_ "m")
    [.simple ⟨⟨some 3, some 0, some 3, some 4⟩, [⟨"amphi", "blocking", 2⟩]⟩ .pass]]

def blockingInModuleRemarks : List Comment :=
  [⟨"# amphi-begin: m", false, ⟨some 1, some 0, some 1, some 16⟩⟩,
   ⟨"# amphi: blocking", false, ⟨some 2, some 0, some 2, some 17⟩⟩,
   ⟨"# amphi-end: m", false, ⟨some 4, some 0, some 4, some 14⟩⟩]

/-- The text before its directives take effect. -/
def blockingInModuleRead : List Stmt :=
  (blockingInModuleRemarks.take 2).map .comment ++ [.pass ⟨some 3, some 0, some 3, some 4⟩] ++
    (blockingInModuleRemarks.drop 2).map .comment

set_option maxRecDepth 4096 in
theorem readSource_blockingInModule : readSource "a.py" blockingInModule = .ok blockingInModuleBody := by
  have hparse : Grammar.parse blockingInModule.toList = some [.pass ⟨some 3, some 0, some 3, some 4⟩] := by
    decide +kernel
  have hscan : Comments.scan blockingInModule.toList = .ok blockingInModuleRemarks := by decide +kernel
  have hattach : Comments.attach blockingInModule.toList blockingInModuleRemarks
      [.pass ⟨some 3, some 0, some 3, some 4⟩] = .ok blockingInModuleRead := by cbv
  exact readSource_of_readAnnotated (readAnnotated_of_parse _ (by decide) hparse hscan hattach) (by decide +kernel)

theorem convert_eq_projection_blockingInModule :
    readSource "a.py" blockingInModule = .ok blockingInModuleBody ∧ stmtsEvery Stmt.InPlace blockingInModuleBody ∧
    ((⟨.asynchronous, "a", none⟩ : Conversion).convert none none (.file blockingInModuleBody)).result = .ok (.file
      [.block ⟨⟨some 1, some 0, some 4, some 14⟩, []⟩ (.module_ "m") [.pass ⟨some 1, some 0, some 4, some 14⟩]]) := by
  have hread : readSource "a.py" blockingInModule = .ok blockingInModuleBody := readSource_blockingInModule
  have hplace : stmtsEvery Stmt.InPlace blockingInModuleBody := by
    simp [blockingInModuleBody, stmtsEvery, Stmt.Every, Stmt.InPlace, isInline, Stmt.isReal, Stmt.isComment]
  exact ⟨hread, hplace, (convert_eq_projection ⟨.asynchronous, "a", none⟩ none none _ _ _ hread hplace).1⟩

end Conversion

end TwinModule
