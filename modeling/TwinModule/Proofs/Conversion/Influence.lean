import TwinModule.Proofs.Conversion.Tailor
import TwinModule.Proofs.Tree.Alike
import TwinModule.Proofs.Tree.Tidy
/-!
Statements for the other variant do not matter: whatever stands in their place, a conversion finds the same files and
has the same outcome.
-/
set_option autoImplicit false

namespace TwinModule

/-- Whether the note says that a module was found in a file. -/
def Note.isResolved : Note → Bool
  | .resolved .. => true
  | _ => false

namespace Traced

variable {α β γ δ : Type}

/-- What can be seen of a computation: the files that modules were found in, and its result in some view. -/
def seen (view : α → β) (x : Traced α) : Traced β := ⟨x.notes.filter Note.isResolved, x.result.map view⟩

@[simp] theorem seen_pure (view : α → β) (a : α) : (pure a : Traced α).seen view = pure (view a) := rfl

/-- A sequence is seen as a sequence if what comes next depends on what is seen of the result. -/
theorem seen_bind (view : α → β) {view' : γ → δ} {k : α → Traced γ} {k' : β → Traced δ} (x : Traced α)
    (h : ∀ a, (k a).seen view' = k' (view a)) : (x >>= k).seen view' = x.seen view >>= k' := by
  obtain ⟨ns, r⟩ := x
  cases r with
  | error e => rfl
  | ok a =>
    have hseen : (⟨ns, .ok a⟩ : Traced α).seen view = ⟨ns.filter Note.isResolved, .ok (view a)⟩ := rfl
    rw [bind_ok, hseen, bind_ok, ← h a]
    simp [seen]

theorem seen_ofExcept_bind (view : β → γ) (r : Except Failure α) (k : α → Traced β) :
    (ofExcept r >>= k).seen view = ofExcept r >>= fun a => (k a).seen view := by
  cases r <;> rfl

theorem seen_mapFailure (f : Failure → Failure) (view : α → β) (x : Traced α) :
    (x.mapFailure f).seen view = (x.seen view).mapFailure f := by
  obtain ⟨ns, r⟩ := x
  cases r <;> rfl

end Traced

/-- What a tree is when it is finalized with another body, in terms of the tidied body. -/
def Tree.finished (t : Tree) (body : List Stmt) : Tree :=
  match t with
  | .file _ => .file body
  | .module_ info name _ => .module_ info name (orPass info.span body)

theorem Tree.finalize_withBody (t : Tree) (body : List Stmt) :
    (t.withBody body).finalize = t.finished (tidyStmts body) := by
  cases t with
  | file _ => exact Tree.finalize_file body
  | module_ info name _ => rfl

namespace Conversion

open Traced

variable {c : Conversion} {load : Loader}

theorem seen_leave (c : Conversion) (s : Stmt) : (c.leave s).seen tidyStmts = pure [] := by
  have hresult := leave_result c s
  have htidy : tidyStmts (if s.isDeclaration then [] else [.simple ⟨s.span.forChild, []⟩ .erased]) = [] := by
    split <;> rfl
  have hnotes : (c.leave s).notes.filter Note.isResolved = [] := rfl
  simp only [seen, hresult, hnotes, Except.map, htidy]
  rfl

theorem seen_of_other {around : Surroundings} {s : Stmt} (h : s.isFor c.variant.other = true) :
    (c.tailor load around s).seen tidyStmts = pure [] := by
  rw [tailor_of_other h, seen_leave]

/-- Two statements of which the same is seen when they are tailored. -/
def LooksLike (c : Conversion) (load : Loader) (around : Surroundings) (s s' : Stmt) : Prop :=
  (c.tailor load around s').seen tidyStmts = (c.tailor load around s).seen tidyStmts

variable {around : Surroundings}

theorem seen_block (info : Info) (head : BlockHead) (x : Traced (List Stmt)) :
    (x >>= fun body => pure [.block info head body]).seen tidyStmts =
      x.seen tidyStmts >>= fun body => pure [.block info head (orPass info.span body)] :=
  seen_bind tidyStmts x fun _ => rfl

section

variable {info : Info} (hf : info.tags.any (Tag.names c.variant.other) = false)
include hf

theorem seen_tailor_block {head : BlockHead} (hm : head.role = .ordinary) (body : List Stmt) :
    (c.tailor load around (.block info head body)).seen tidyStmts =
      (c.tailorStmts load around body).seen tidyStmts >>= fun body =>
        pure [.block (c.untagged info) head (orPass info.span body)] := by
  rw [tailor_block hf hm, seen_block]
  rfl

theorem seen_tailor_branch (head : BranchHead) (body orelse : List Stmt) :
    (c.tailor load around (.branch info head body orelse)).seen tidyStmts = do
      let body ← (c.tailorStmts load around body).seen tidyStmts
      let orelse ← (c.tailorStmts load around orelse).seen tidyStmts
      return [.branch (c.untagged info) head (orPass info.span body) orelse] := by
  rw [tailor_branch hf]
  refine seen_bind tidyStmts _ fun body => seen_bind tidyStmts _ fun orelse => ?_
  rw [seen_pure, tidyStmts_eq]
  simp [Stmt.isErased, tidy_branch, untagged]

theorem seen_tailor_attempt (isGroup : Bool) (body : List Stmt) (handlers : List Handler)
    (orelse finalbody : List Stmt) :
    (c.tailor load around (.attempt info isGroup body handlers orelse finalbody)).seen tidyStmts = do
      let body ← (c.tailorStmts load around body).seen tidyStmts
      let handlers ← (c.tailorHandlers load around handlers).seen tidyHandlers
      let orelse ← (c.tailorStmts load around orelse).seen tidyStmts
      let finalbody ← (c.tailorStmts load around finalbody).seen tidyStmts
      return [.attempt (c.untagged info) isGroup (orPass info.span body) handlers orelse
        (if !isGroup && handlers.isEmpty then orPass info.span finalbody else finalbody)] := by
  rw [tailor_attempt hf]
  refine seen_bind tidyStmts _ fun body => seen_bind tidyHandlers _ fun handlers => seen_bind tidyStmts _ fun orelse =>
    seen_bind tidyStmts _ fun finalbody => ?_
  rw [seen_pure, tidyStmts_eq]
  simp [Stmt.isErased, tidy_attempt, untagged]

theorem seen_tailor_select (subject : Expr) (cases : List Case) :
    (c.tailor load around (.select info subject cases)).seen tidyStmts =
      (c.tailorCases load around cases).seen tidyCases >>= fun cases =>
        pure [.select (c.untagged info) subject cases] := by
  rw [tailor_select hf]
  exact seen_bind tidyCases _ fun _ => rfl

/-- A declared module looks the same whatever comments are in it, an inline one if its body does. -/
theorem looksLike_module {name : String} {body body' : List Stmt} (hinline : isInline body' = isInline body)
    (ih : ∀ around, (c.tailorStmts load around body').seen tidyStmts = (c.tailorStmts load around body).seen tidyStmts) :
    c.LooksLike load around (.block info (.module_ name) body) (.block info (.module_ name) body') := by
  simp only [LooksLike, tailor, keptTags_of_own hf, hinline]
  cases isInline body with
  | false => rfl
  | true =>
    rw [if_pos rfl, if_pos rfl]
    split
    · rfl
    · rw [seen_block, seen_block, ih]

end

def BothFor (v : Variant) (_ : List String) (s s' : Stmt) : Prop := s.isFor v = true ∧ s'.isFor v = true

theorem isReal_of_isFor {v : Variant} {s : Stmt} (h : s.isFor v = true) : s.isReal = true := by
  cases s with
  | comment k => cases h
  | _ => rfl

theorem keepsReal_bothFor (v : Variant) : KeepsReal (BothFor v) :=
  fun _ _ _ h => ⟨isReal_of_isFor h.1, isReal_of_isFor h.2⟩

theorem looksLike_of_other {s s' : Stmt} (h : s.isFor c.variant.other = true) (h' : s'.isFor c.variant.other = true) :
    c.LooksLike load around s s' := by
  rw [LooksLike, seen_of_other h, seen_of_other h']

/-- A statement that has another one in it is for the other variant as a whole or is tailored in its parts. -/
theorem looksLike_of_own {s s' : Stmt} (htags : s'.tags = s.tags)
    (h : s.tags.any (Tag.names c.variant.other) = false → c.LooksLike load around s s') :
    c.LooksLike load around s s' := by
  cases hf : s.tags.any (Tag.names c.variant.other) with
  | false => exact h hf
  | true => exact looksLike_of_other hf (by rw [Stmt.isFor, htags]; exact hf)

theorem looksLike_block {info : Info} {head : BlockHead} {body body' : List Stmt}
    (hinline : isInline body' = isInline body)
    (ih : ∀ around, (c.tailorStmts load around body').seen tidyStmts = (c.tailorStmts load around body).seen tidyStmts) :
    c.LooksLike load around (.block info head body) (.block info head body') := by
  refine looksLike_of_own rfl fun hf => ?_
  cases head with
  | module_ name => exact looksLike_module hf hinline ih
  | _ => rw [LooksLike, seen_tailor_block hf rfl, seen_tailor_block hf rfl, ih]

mutual

theorem seen_tailor_of_alike {names : List String} (around : Surroundings) :
    (s s' : Stmt) → s.Alike (BothFor c.variant.other) names s' → c.LooksLike load around s s'
  | .simple info what, s', h => by
    rcases h with h | rfl
    · exact looksLike_of_other h.1 h.2
    · rfl
  | .comment k, s', h => by
    rcases h with h | rfl
    · exact looksLike_of_other h.1 h.2
    · rfl
  | .block info head body, s', h => by
    rcases h with h | ⟨body', hb, rfl⟩
    · exact looksLike_of_other h.1 h.2
    · exact looksLike_block (isInline_eq_of_alike (keepsReal_bothFor _) hb) fun around =>
        seen_tailorStmts_of_alike around body body' hb
  | .branch info head body orelse, s', h => by
    rcases h with h | ⟨body', orelse', hb, ho, rfl⟩
    · exact looksLike_of_other h.1 h.2
    · refine looksLike_of_own rfl fun hf => ?_
      rw [LooksLike, seen_tailor_branch hf, seen_tailor_branch hf, seen_tailorStmts_of_alike around body body' hb,
        seen_tailorStmts_of_alike around orelse orelse' ho]
  | .attempt info isGroup body handlers orelse finalbody, s', h => by
    rcases h with h | ⟨body', handlers', orelse', finalbody', hb, hh, ho, hf, rfl⟩
    · exact looksLike_of_other h.1 h.2
    · refine looksLike_of_own rfl fun hown => ?_
      rw [LooksLike, seen_tailor_attempt hown, seen_tailor_attempt hown, seen_tailorStmts_of_alike around body body' hb,
        seen_tailorHandlers_of_alike around handlers handlers' hh,
        seen_tailorStmts_of_alike around orelse orelse' ho,
        seen_tailorStmts_of_alike around finalbody finalbody' hf]
  | .select info subject cases, s', h => by
    rcases h with h | ⟨cases', hc, rfl⟩
    · exact looksLike_of_other h.1 h.2
    · refine looksLike_of_own rfl fun hf => ?_
      rw [LooksLike, seen_tailor_select hf, seen_tailor_select hf, seen_tailorCases_of_alike around cases cases' hc]
termination_by structural s => s

theorem seen_tailorStmts_of_alike {names : List String} (around : Surroundings) :
    (ss ss' : List Stmt) → stmtsAlike (BothFor c.variant.other) names ss ss' →
      (c.tailorStmts load around ss').seen tidyStmts = (c.tailorStmts load around ss).seen tidyStmts
  | [], ss', h => by rw [show ss' = [] from h]
  | s :: ss, ss', h => by
    obtain ⟨s', rest, hs, hrest, rfl⟩ := h
    have hcons : ∀ s ss, (c.tailorStmts load around (s :: ss)).seen tidyStmts = do
        let first ← (c.tailor load around s).seen tidyStmts
        let rest ← (c.tailorStmts load around ss).seen tidyStmts
        return first ++ rest := fun s ss =>
      seen_bind tidyStmts _ fun first => seen_bind tidyStmts _ fun rest => by rw [seen_pure, tidyStmts_append]
    have hfirst : c.LooksLike load around s s' := seen_tailor_of_alike around s s' hs
    rw [hcons, hcons, hfirst, seen_tailorStmts_of_alike around ss rest hrest]
termination_by structural ss => ss

theorem seen_tailorHandlers_of_alike {names : List String} (around : Surroundings) :
    (hs hs' : List Handler) → handlersAlike (BothFor c.variant.other) names hs hs' →
      (c.tailorHandlers load around hs').seen tidyHandlers = (c.tailorHandlers load around hs).seen tidyHandlers
  | [], hs', h => by rw [show hs' = [] from h]
  | .comment k :: hs, hs', h => by
    obtain ⟨rest, hrest, rfl⟩ := h
    have hcons : ∀ hs, (c.tailorHandlers load around (.comment k :: hs)).seen tidyHandlers =
        (c.tailorHandlers load around hs).seen tidyHandlers >>= fun rest => pure (.comment k :: rest) := fun hs =>
      seen_bind tidyHandlers _ fun _ => rfl
    rw [hcons, hcons, seen_tailorHandlers_of_alike around hs rest hrest]
  | .handler span type name body :: hs, hs', h => by
    obtain ⟨body', rest, hb, hrest, rfl⟩ := h
    have hcons : ∀ body hs, (c.tailorHandlers load around (.handler span type name body :: hs)).seen tidyHandlers = do
        let body ← (c.tailorStmts load around body).seen tidyStmts
        let rest ← (c.tailorHandlers load around hs).seen tidyHandlers
        return .handler span type name (orPass span body) :: rest := fun body hs =>
      seen_bind tidyStmts _ fun _ => seen_bind tidyHandlers _ fun _ => rfl
    rw [hcons, hcons, seen_tailorStmts_of_alike around body body' hb, seen_tailorHandlers_of_alike around hs rest hrest]
termination_by structural hs => hs

theorem seen_tailorCases_of_alike {names : List String} (around : Surroundings) :
    (cs cs' : List Case) → casesAlike (BothFor c.variant.other) names cs cs' →
      (c.tailorCases load around cs').seen tidyCases = (c.tailorCases load around cs).seen tidyCases
  | [], cs', h => by rw [show cs' = [] from h]
  | .comment k :: cs, cs', h => by
    obtain ⟨rest, hrest, rfl⟩ := h
    have hcons : ∀ cs, (c.tailorCases load around (.comment k :: cs)).seen tidyCases =
        (c.tailorCases load around cs).seen tidyCases >>= fun rest => pure (.comment k :: rest) := fun cs =>
      seen_bind tidyCases _ fun _ => rfl
    rw [hcons, hcons, seen_tailorCases_of_alike around cs rest hrest]
  | .case lines pattern guard body :: cs, cs', h => by
    obtain ⟨body', rest, hb, hrest, rfl⟩ := h
    have hcons : ∀ body cs, (c.tailorCases load around (.case lines pattern guard body :: cs)).seen tidyCases = do
        let body ← (c.tailorStmts load around body).seen tidyStmts
        let rest ← (c.tailorCases load around cs).seen tidyCases
        return .case lines pattern guard (orPass Span.unset body) :: rest := fun body cs =>
      seen_bind tidyStmts _ fun _ => seen_bind tidyCases _ fun _ => rfl
    rw [hcons, hcons, seen_tailorStmts_of_alike around body body' hb, seen_tailorCases_of_alike around cs rest hrest]
termination_by structural cs => cs

end

/-- What is seen of a conversion is what is seen of its tailoring. -/
theorem seen_convert (c : Conversion) (lib : Option Library) (origin : Option FilePath) (t : Tree) :
    (c.convert lib origin t).seen id =
      (ofExcept (c.firstChain lib origin t) >>= fun chain =>
        (c.tailorStmts (c.loader lib) ⟨[c.rootName], origin.map FilePath.text, chain⟩ t.body).seen tidyStmts >>=
          fun body => pure (t.finished body)).mapFailure (Failure.inFile (origin.map FilePath.text)) := by
  have htidy : ∀ x : Traced (List Stmt), (x >>= fun body => pure (t.withBody body).finalize).seen id =
      x.seen tidyStmts >>= fun body => pure (t.finished body) := fun x =>
    seen_bind tidyStmts x fun body => by rw [seen_pure, Tree.finalize_withBody]; rfl
  simp only [convert, seen_mapFailure, seen_ofExcept_bind, htidy]

/-- Conversion does not depend on the statements for the other variant: with others in their place, also modules, it
finds the same modules in the same files and has the same outcome, be it a tree or a failure; and what becomes of such a
statement does not depend on any file. -/
theorem convert_ignores_other (c : Conversion) (lib : Option Library) (origin : Option FilePath) (t t' : Tree)
    (h : t.Alike (BothFor c.variant.other) [c.rootName] t') :
    (c.convert lib origin t').result = (c.convert lib origin t).result ∧
    (c.convert lib origin t').notes.filter Note.isResolved = (c.convert lib origin t).notes.filter Note.isResolved ∧
    ∀ (load load' : Loader) (around around' : Surroundings) (s : Stmt), s.isFor c.variant.other = true →
      c.tailor load around s = c.tailor load' around' s := by
  have hseen : (c.convert lib origin t').seen id = (c.convert lib origin t).seen id := by
    obtain ⟨body, hbody, rfl⟩ := h
    rw [seen_convert, seen_convert]
    have htailored : ∀ chain, (c.tailorStmts (c.loader lib) ⟨[c.rootName], origin.map FilePath.text, chain⟩
        (t.withBody body).body).seen tidyStmts =
        (c.tailorStmts (c.loader lib) ⟨[c.rootName], origin.map FilePath.text, chain⟩ t.body).seen tidyStmts := by
      intro chain
      rw [Tree.body_withBody]
      exact seen_tailorStmts_of_alike _ t.body body hbody
    simp only [htailored]
    cases t <;> rfl
  have hid : ∀ x : Traced Tree, (x.seen id).result = x.result := by
    intro x
    obtain ⟨ns, r⟩ := x
    cases r <;> rfl
  refine ⟨?_, congrArg Traced.notes hseen, fun load load' around around' s hs => ?_⟩
  · rw [← hid, hseen, hid]
  · rw [tailor_of_other hs, tailor_of_other hs]

def blockingBreak : Stmt := .simple ⟨⟨some 2, some 0, some 2, some 5⟩, [⟨"amphi", "blocking", 1⟩]⟩ .break_

def blockingModule : Stmt := .block ⟨⟨some 2, some 0, some 2, some 19⟩, [⟨"amphi", "blocking", 1⟩]⟩ (.module_ "missing") []

/-- A module that is in no file, in the place of a statement that is dropped too. -/
theorem convert_ignores_other_missingModule :
    (Tree.file [blockingBreak, .pass Span.unset]).Alike (BothFor .blocking) ["a"]
      (.file [blockingModule, .pass Span.unset]) ∧
    ((⟨.asynchronous, "a", none⟩ : Conversion).convert (some ⟨Store.empty, ⟨.slash, []⟩⟩) none
      (.file [blockingModule, .pass Span.unset])).result = .ok (.file [.pass Span.unset]) := by
  have hbreak : blockingBreak.Alike (BothFor .blocking) ["a"] blockingModule := .inl ⟨by decide, by decide⟩
  have halike : (Tree.file [blockingBreak, .pass Span.unset]).Alike (BothFor .blocking) ["a"]
      (.file [blockingModule, .pass Span.unset]) :=
    ⟨_, ⟨blockingModule, _, hbreak, stmtsAlike_refl ["a"] [.pass Span.unset], rfl⟩, rfl⟩
  refine ⟨halike, ?_⟩
  rw [(convert_ignores_other ⟨.asynchronous, "a", none⟩ _ none _ _ halike).1]
  rfl

end Conversion

end TwinModule
