import TwinModule.Syntax.Stmt
/-!
Trees that differ in some statements only. In the place of a statement another one may stand that is related to it; what
is related may depend on the modules around.
-/
set_option autoImplicit false

namespace TwinModule

/-- The names of the modules around the statements of a block. -/
def BlockHead.inside (names : List String) : BlockHead → List String
  | .module_ name => names ++ [name]
  | _ => names

mutual

/-- Whether a statement can be made another one by putting related statements in the place of some, at any depth. -/
def Stmt.Alike (r : List String → Stmt → Stmt → Prop) (names : List String) : Stmt → Stmt → Prop
  | .simple info what, s' => r names (.simple info what) s' ∨ s' = .simple info what
  | .comment k, s' => r names (.comment k) s' ∨ s' = .comment k
  | .block info head body, s' =>
    r names (.block info head body) s' ∨
      ∃ body', stmtsAlike r (head.inside names) body body' ∧ s' = .block info head body'
  | .branch info head body orelse, s' =>
    r names (.branch info head body orelse) s' ∨
      ∃ body' orelse', stmtsAlike r names body body' ∧ stmtsAlike r names orelse orelse' ∧
        s' = .branch info head body' orelse'
  | .attempt info isGroup body handlers orelse finalbody, s' =>
    r names (.attempt info isGroup body handlers orelse finalbody) s' ∨
      ∃ body' handlers' orelse' finalbody', stmtsAlike r names body body' ∧ handlersAlike r names handlers handlers' ∧
        stmtsAlike r names orelse orelse' ∧ stmtsAlike r names finalbody finalbody' ∧
        s' = .attempt info isGroup body' handlers' orelse' finalbody'
  | .select info subject cases, s' =>
    r names (.select info subject cases) s' ∨ ∃ cases', casesAlike r names cases cases' ∧ s' = .select info subject cases'
termination_by structural s => s

def stmtsAlike (r : List String → Stmt → Stmt → Prop) (names : List String) : List Stmt → List Stmt → Prop
  | [], ss' => ss' = []
  | s :: ss, ss' => ∃ s' rest, s.Alike r names s' ∧ stmtsAlike r names ss rest ∧ ss' = s' :: rest
termination_by structural ss => ss

def handlersAlike (r : List String → Stmt → Stmt → Prop) (names : List String) : List Handler → List Handler → Prop
  | [], hs' => hs' = []
  | .comment k :: hs, hs' => ∃ rest, handlersAlike r names hs rest ∧ hs' = .comment k :: rest
  | .handler span type name body :: hs, hs' =>
    ∃ body' rest, stmtsAlike r names body body' ∧ handlersAlike r names hs rest ∧
      hs' = .handler span type name body' :: rest
termination_by structural hs => hs

def casesAlike (r : List String → Stmt → Stmt → Prop) (names : List String) : List Case → List Case → Prop
  | [], cs' => cs' = []
  | .comment k :: cs, cs' => ∃ rest, casesAlike r names cs rest ∧ cs' = .comment k :: rest
  | .case lines pattern guard body :: cs, cs' =>
    ∃ body' rest, stmtsAlike r names body body' ∧ casesAlike r names cs rest ∧
      cs' = .case lines pattern guard body' :: rest
termination_by structural cs => cs

end

/-- Two trees with the same root that differ in some of the statements in them. -/
def Tree.Alike (r : List String → Stmt → Stmt → Prop) (names : List String) (t t' : Tree) : Prop :=
  ∃ body, stmtsAlike r names t.body body ∧ t' = t.withBody body

section

variable {r : List String → Stmt → Stmt → Prop}

mutual

theorem Stmt.Alike.refl (names : List String) : (s : Stmt) → s.Alike r names s
  | .simple .. => .inr rfl
  | .comment _ => .inr rfl
  | .block _ _ body => .inr ⟨body, stmtsAlike_refl _ body, rfl⟩
  | .branch _ _ body orelse => .inr ⟨body, orelse, stmtsAlike_refl names body, stmtsAlike_refl names orelse, rfl⟩
  | .attempt _ _ body handlers orelse finalbody =>
    .inr ⟨body, handlers, orelse, finalbody, stmtsAlike_refl names body, handlersAlike_refl names handlers,
      stmtsAlike_refl names orelse, stmtsAlike_refl names finalbody, rfl⟩
  | .select _ _ cases => .inr ⟨cases, casesAlike_refl names cases, rfl⟩

theorem stmtsAlike_refl (names : List String) : (ss : List Stmt) → stmtsAlike r names ss ss
  | [] => rfl
  | s :: ss => ⟨s, ss, Stmt.Alike.refl names s, stmtsAlike_refl names ss, rfl⟩

theorem handlersAlike_refl (names : List String) : (hs : List Handler) → handlersAlike r names hs hs
  | [] => rfl
  | .comment _ :: hs => ⟨hs, handlersAlike_refl names hs, rfl⟩
  | .handler _ _ _ body :: hs => ⟨body, hs, stmtsAlike_refl names body, handlersAlike_refl names hs, rfl⟩

theorem casesAlike_refl (names : List String) : (cs : List Case) → casesAlike r names cs cs
  | [] => rfl
  | .comment _ :: cs => ⟨cs, casesAlike_refl names cs, rfl⟩
  | .case _ _ _ body :: cs => ⟨body, cs, stmtsAlike_refl names body, casesAlike_refl names cs, rfl⟩

end

/-- Related statements are statements, no comments. -/
def KeepsReal (r : List String → Stmt → Stmt → Prop) : Prop :=
  ∀ names s s', r names s s' → s.isReal = true ∧ s'.isReal = true

theorem Stmt.Alike.isReal_eq (hr : KeepsReal r) {names : List String} {s s' : Stmt} (h : s.Alike r names s') :
    s'.isReal = s.isReal := by
  have hrel : r names s s' → s'.isReal = s.isReal := fun h => (hr names s s' h).2.trans (hr names s s' h).1.symm
  cases s with
  | simple info what =>
    rcases h with h | rfl
    · exact hrel h
    · rfl
  | comment k =>
    rcases h with h | rfl
    · exact hrel h
    · rfl
  | block info head body =>
    rcases h with h | ⟨_, -, rfl⟩
    · exact hrel h
    · rfl
  | branch info head body orelse =>
    rcases h with h | ⟨_, _, -, -, rfl⟩
    · exact hrel h
    · rfl
  | attempt info isGroup body handlers orelse finalbody =>
    rcases h with h | ⟨_, _, _, _, -, -, -, -, rfl⟩
    · exact hrel h
    · rfl
  | select info subject cases =>
    rcases h with h | ⟨_, -, rfl⟩
    · exact hrel h
    · rfl

/-- A module stays inline, or declared, when statements in it are replaced. -/
theorem isInline_eq_of_alike (hr : KeepsReal r) {names : List String} {ss ss' : List Stmt}
    (h : stmtsAlike r names ss ss') : isInline ss' = isInline ss := by
  induction ss generalizing ss' with
  | nil =>
    cases h
    rfl
  | cons s ss ih =>
    obtain ⟨s', rest, hs, hrest, rfl⟩ := h
    have htail : rest.any Stmt.isReal = ss.any Stmt.isReal := ih hrest
    simp only [isInline, List.any_cons, hs.isReal_eq hr, htail]

end

end TwinModule
