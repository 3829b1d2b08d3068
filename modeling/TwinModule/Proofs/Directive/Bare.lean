import TwinModule.Proofs.Grammar.Bare
/-!
Where there are no comments, directives change nothing.
-/
set_option autoImplicit false

namespace TwinModule.Directive
open Rule Grammar

/-- Statements are put into a block one by one. -/
theorem steps_of_isReal {modules : Bool} {o : OpenBlock} {below : List OpenBlock} (ho : o.pending = []) {ss : List Stmt}
    (hss : ∀ s ∈ ss, s.isReal = true) : steps modules ⟨o, below⟩ ss = .ok ⟨{ o with body := o.body ++ ss }, below⟩ := by
  induction ss generalizing o with
  | nil => simp [steps]
  | cons s ss ih =>
    have hstep : step modules ⟨o, below⟩ s = .ok ⟨{ o with body := o.body ++ [s] }, below⟩ := by
      have hpush : o.pushTagged s = { o with body := o.body ++ [s] } := by
        simp [OpenBlock.pushTagged, ho, Stmt.withTags_tags]
      cases s with
      | comment c => cases hss _ (List.mem_cons_self ..)
      | _ => simp [step, checkSources, ho, hpush]
    rw [steps, hstep]
    dsimp only
    rw [ih (o := { o with body := o.body ++ [s] }) ho fun s hs => hss s (List.mem_cons_of_mem _ hs)]
    simp

theorem group_of_isReal (modules : Bool) {ss : List Stmt} (hss : ∀ s ∈ ss, s.isReal = true) :
    group modules ss = .ok ss := by
  rw [group, steps_of_isReal rfl hss]
  rfl

theorem group_of_parsed (modules : Bool) {outer : Bool} {ss : List Stmt} (hss : stmtsObey parsed outer ss) :
    group modules ss = .ok ss :=
  group_of_isReal modules fun s hs => isReal_of_parsed (stmtsObey_iff.1 hss s hs)

theorem checkHandlers_of_parsed {hs : List Handler} (h : handlersObey parsed hs) : checkHandlers hs = .ok () := by
  induction hs with
  | nil => rfl
  | cons handler hs ih =>
    cases handler with
    | comment c => exact h.1.elim
    | handler => exact ih h.2

theorem checkCases_of_parsed {cs : List Case} (h : casesObey parsed cs) : checkCases cs = .ok () := by
  induction cs with
  | nil => rfl
  | cons case cs ih =>
    cases case with
    | comment c => exact h.1.elim
    | case => exact ih h.2

theorem bind_of_ok {ε α β : Type} {x : Except ε α} {a : α} (h : x = .ok a) (f : α → Except ε β) : (x >>= f) = f a := by
  rw [h]
  rfl

mutual

theorem attach_of_parsed {outer : Bool} : ∀ {s : Stmt}, s.Obeys parsed outer → s.attach = .ok s
  | .simple .., _ => rfl
  | .comment _, _ => rfl
  | .block .., h => by
    obtain ⟨-, -, hbody⟩ := h
    rw [Stmt.attach, bind_of_ok (attachStmts_of_parsed hbody), bind_of_ok (group_of_parsed _ hbody)]
    rfl
  | .branch .., h => by
    obtain ⟨-, ⟨-, hbody⟩, -, horelse⟩ := h
    rw [Stmt.attach, bind_of_ok (attachStmts_of_parsed hbody), bind_of_ok (group_of_parsed _ hbody),
      bind_of_ok (attachStmts_of_parsed horelse), bind_of_ok (group_of_parsed _ horelse)]
    rfl
  | .attempt .., h => by
    obtain ⟨-, ⟨-, hbody⟩, hhandlers, ⟨-, horelse⟩, -, hfinal⟩ := h
    rw [Stmt.attach, bind_of_ok (attachStmts_of_parsed hbody), bind_of_ok (group_of_parsed _ hbody),
      bind_of_ok (attachHandlers_of_parsed hhandlers), bind_of_ok (checkHandlers_of_parsed hhandlers),
      bind_of_ok (attachStmts_of_parsed horelse), bind_of_ok (group_of_parsed _ horelse),
      bind_of_ok (attachStmts_of_parsed hfinal), bind_of_ok (group_of_parsed _ hfinal)]
    rfl
  | .select .., h => by
    rw [Stmt.attach, bind_of_ok (attachCases_of_parsed h.2), bind_of_ok (checkCases_of_parsed h.2)]
    rfl

theorem attachStmts_of_parsed {outer : Bool} : ∀ {ss : List Stmt}, stmtsObey parsed outer ss → attachStmts ss = .ok ss
  | [], _ => rfl
  | s :: ss, h => by
    rw [attachStmts, bind_of_ok (attach_of_parsed h.1), bind_of_ok (attachStmts_of_parsed h.2)]
    rfl

theorem attachHandlers_of_parsed : ∀ {hs : List Handler}, handlersObey parsed hs → attachHandlers hs = .ok hs
  | [], _ => rfl
  | .comment _ :: _, h => h.1.elim
  | .handler _ _ _ _ :: hs, h => by
    rw [attachHandlers, bind_of_ok (attachStmts_of_parsed h.1.2), bind_of_ok (group_of_parsed _ h.1.2),
      bind_of_ok (attachHandlers_of_parsed h.2)]
    rfl

theorem attachCases_of_parsed : ∀ {cs : List Case}, casesObey parsed cs → attachCases cs = .ok cs
  | [], _ => rfl
  | .comment _ :: _, h => h.1.elim
  | .case _ _ _ _ :: cs, h => by
    rw [attachCases, bind_of_ok (attachStmts_of_parsed h.1.2), bind_of_ok (group_of_parsed _ h.1.2),
      bind_of_ok (attachCases_of_parsed h.2)]
    rfl

end

end TwinModule.Directive
