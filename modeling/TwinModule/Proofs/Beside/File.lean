import TwinModule.Proofs.Beside.Function
import TwinModule.Proofs.Token.OwnLines
import TwinModule.Proofs.Text.Quoted
/-!
A file is read statement by statement, each from its own tokens. A function starts with a token of its own and ends with
its last one, and from its own lines it is parsed to the same.
-/
set_option autoImplicit false

namespace TwinModule.Grammar
open Reader Token

variable {α β : Type} {r : Rules} {block : Reader (List Stmt)} {i j : Input}

theorem exists_of_located {make : Info → α → Stmt} {p : Reader α} {s : Stmt} (h : located make p i = some (s, j)) :
    ∃ a start, p i = some (a, j) ∧ start = (i.tokens.headD ⟨.stop, "", i.last, i.last⟩).start ∧
      s = make ⟨⟨some start.line, some start.column, some j.last.line, some j.last.column⟩, []⟩ a := by
  obtain ⟨x, i₁, hspan, hs⟩ := Reader.bind_eq_some h
  cases hs
  rw [spanned, bind_of_some (p := peek) rfl] at hspan
  obtain ⟨a, i₂, hp, hx⟩ := Reader.bind_eq_some hspan
  cases hx
  exact ⟨a, _, hp, rfl, rfl⟩

/-- What is known of a function that has been read. -/
theorem exists_of_function {ds : List Decorator} {d : Stmt} (h : function r block ds i = some (d, j)) :
    ∃ info isAsync name ps returns body, d = .block info (.function isAsync name ps ds returns none) body ∧
      info.span.line = some (i.tokens.headD ⟨.stop, "", i.last, i.last⟩).start.line ∧
      info.span.endLine = some j.last.line := by
  obtain ⟨⟨head, body⟩, start, hp, rfl, rfl⟩ := exists_of_located h
  obtain ⟨isAsync, name, ps, returns, rfl⟩ :
      ∃ isAsync name ps returns, head = .function isAsync name ps ds returns none := by
    refine Ensures.after (Q := fun x : BlockHead × List Stmt =>
      ∃ isAsync name ps returns, x.1 = .function isAsync name ps ds returns none) (fun isAsync => ?_) _ _ _ hp
    refine .after fun _ => .after fun name => .after fun _ => .after fun ps => .after fun _ => .after fun _ => ?_
    exact .afterIf fun returns => .after fun _ => .pure ⟨isAsync, name, ps, returns, rfl⟩
  exact ⟨_, isAsync, name, ps, returns, body, rfl, rfl, rfl⟩

/-- What is read has no function in it, or it is one, which starts with the first token and ends with the last. -/
def ReadsFunction (i : Input) (p : Reader (List Stmt)) : Prop :=
  ∀ ss j d, p i = some (ss, j) → d ∈ ss → d.isFunction = true → ss = [d] ∧
    ∃ info isAsync name ps ds returns body, d = .block info (.function isAsync name ps ds returns none) body ∧
      info.span.endLine = some j.last.line ∧ StartsOn ((ds.head?.map Decorator.line).getD (info.span.line.getD 1)) i.tokens

namespace ReadsFunction

theorem ite {c : Prop} [Decidable c] {p q : Reader (List Stmt)} (hp : ReadsFunction i p) (hq : ReadsFunction i q) :
    ReadsFunction i (if c then p else q) := by
  split
  · exact hp
  · exact hq

theorem function (htokens : i.tokens ≠ []) : ReadsFunction i (do return [← function r block []]) := by
  intro ss j d h hd _
  obtain ⟨s, k, hp, hs⟩ := Reader.bind_eq_some h
  cases hs
  obtain rfl := List.mem_singleton.1 hd
  obtain ⟨info, isAsync, name, ps, returns, body, rfl, hline, hend⟩ := exists_of_function hp
  refine ⟨rfl, info, isAsync, name, ps, [], returns, body, rfl, hend, ?_⟩
  obtain ⟨_ | ⟨t, ts⟩, last⟩ := i
  · exact absurd rfl htokens
  · rw [hline]
    exact .first rfl

end ReadsFunction

end TwinModule.Grammar
