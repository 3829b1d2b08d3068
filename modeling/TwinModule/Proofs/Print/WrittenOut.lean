import TwinModule.Print.Statement
import TwinModule.Proofs.Agreement
import TwinModule.Proofs.Directive.Attached
/-!
A tree is laid out like the plain tree in which its tags and modules are written out as comments. Where the tags of a
statement are not written, they are not there in the plain tree either.
-/
set_option autoImplicit false

namespace TwinModule

/-- A comment on a line of its own, nowhere in particular. -/
def Comment.alone (text : String) : Comment := ⟨text, false, Span.unset⟩

/-- Tags as comments. -/
def tagComments (ts : List Tag) : List Stmt := ts.map fun t => .comment (.alone t.render)

/-- A block that may be the body of a module, which is written out between two comments. -/
def BlockHead.writtenOut (span : Span) (body : List Stmt) : BlockHead → List Stmt
  | .module_ name =>
    if body.isEmpty then [.comment (.alone (Print.declareText ++ name))]
    else .comment (.alone (Print.beginText ++ name)) :: body ++ [.comment (.alone (Print.endText ++ name))]
  | head => [.block ⟨span, []⟩ head body]

mutual

/-- The plain statements that say what a statement says: its tags and the modules in it are comments. -/
def Stmt.writtenOut : Stmt → List Stmt
  | .simple info what => tagComments info.tags ++ [.simple ⟨info.span, []⟩ what]
  | .comment c => [.comment c]
  | .block info head body => tagComments info.tags ++ head.writtenOut info.span (stmtsWrittenOut body)
  | .branch info head body orelse =>
    tagComments info.tags ++ [.branch ⟨info.span, []⟩ head (stmtsWrittenOut body) (stmtsWrittenOut orelse)]
  | .attempt info isGroup body handlers orelse finalbody =>
    tagComments info.tags ++ [.attempt ⟨info.span, []⟩ isGroup (stmtsWrittenOut body) (handlersWrittenOut handlers)
      (stmtsWrittenOut orelse) (stmtsWrittenOut finalbody)]
  | .select info subject cases => tagComments info.tags ++ [.select ⟨info.span, []⟩ subject (casesWrittenOut cases)]

def stmtsWrittenOut : List Stmt → List Stmt
  | [] => []
  | s :: ss => s.writtenOut ++ stmtsWrittenOut ss

def handlersWrittenOut : List Handler → List Handler
  | [] => []
  | .comment c :: hs => .comment c :: handlersWrittenOut hs
  | .handler span type name body :: hs => .handler span type name (stmtsWrittenOut body) :: handlersWrittenOut hs

def casesWrittenOut : List Case → List Case
  | [] => []
  | .comment c :: cs => .comment c :: casesWrittenOut cs
  | .case lines pattern guard body :: cs => .case lines pattern guard (stmtsWrittenOut body) :: casesWrittenOut cs

end

theorem BlockHead.writtenOut_of_not_isModule {head : BlockHead} (h : head.isModule = false) (span : Span)
    (body : List Stmt) : head.writtenOut span body = [.block ⟨span, []⟩ head body] := by
  cases head with
  | module_ name => cases h
  | _ => rfl

/-- A string alone, which is documentation where it opens a file, a class or a function. -/
def Simple.isDoc : Simple → Bool
  | .expr (.literal (.text _) _) => true
  | _ => false

def Stmt.isDoc : Stmt → Bool
  | .simple _ what => what.isDoc
  | _ => false

/-- The body of a file, a class or a function, whose documentation is written without its tags. -/
def withShownDoc : List Stmt → List Stmt
  | [] => []
  | s :: ss => (if s.isDoc then s.withTags [] else s) :: ss

/-- What follows the block of a statement: a lone `if` after that of an `if` is written without its tags. -/
def withShownChain (ss : List Stmt) : BranchHead → List Stmt
  | .if_ _ => if Print.isChain ss then ss.map (·.withTags []) else ss
  | _ => ss

mutual

/-- A statement with those tags inside it that are written. -/
def Stmt.shown : Stmt → Stmt
  | .simple info what => .simple info what
  | .comment c => .comment c
  | .block info head body =>
    .block info head (if Print.BlockHead.isSpaced head then withShownDoc (stmtsShown body) else stmtsShown body)
  | .branch info head body orelse => .branch info head (stmtsShown body) (withShownChain (stmtsShown orelse) head)
  | .attempt info isGroup body handlers orelse finalbody =>
    .attempt info isGroup (stmtsShown body) (handlersShown handlers) (stmtsShown orelse) (stmtsShown finalbody)
  | .select info subject cases => .select info subject (casesShown cases)

def stmtsShown : List Stmt → List Stmt
  | [] => []
  | s :: ss => s.shown :: stmtsShown ss

def handlersShown : List Handler → List Handler
  | [] => []
  | .comment c :: hs => .comment c :: handlersShown hs
  | .handler span type name body :: hs => .handler span type name (stmtsShown body) :: handlersShown hs

def casesShown : List Case → List Case
  | [] => []
  | .comment c :: cs => .comment c :: casesShown cs
  | .case lines pattern guard body :: cs => .case lines pattern guard (stmtsShown body) :: casesShown cs

end

/-- The body of a file with those tags that are written. -/
def shownBody (body : List Stmt) : List Stmt := withShownDoc (stmtsShown body)

/-- Pieces apart from where the gaps between them are. -/
def Piece.ungapped (ps : List Piece) : List Piece × Nat := (ps.filter (· != .gap), ps.length)

namespace Piece

theorem ungapped_append {ps ps' qs qs' : List Piece} (hp : ungapped ps = ungapped ps')
    (hq : ungapped qs = ungapped qs') : ungapped (ps ++ qs) = ungapped (ps' ++ qs') := by
  simp only [ungapped, Prod.mk.injEq] at hp hq
  simp [ungapped, hp, hq]

theorem ungapped_cons {ps ps' : List Piece} (p : Piece) (h : ungapped ps = ungapped ps') :
    ungapped (p :: ps) = ungapped (p :: ps') := ungapped_append (rfl : ungapped [p] = ungapped [p]) h

theorem eq_of_ungapped {ps qs : List Piece} (h : ungapped ps = ungapped qs) (hq : gap ∉ qs) : ps = qs := by
  obtain ⟨hlines, hlength⟩ := Prod.mk.inj h
  have hqs : qs.filter (· != .gap) = qs := List.filter_eq_self.2 fun p hp => by
    simpa using fun hgap : p = gap => hq (hgap ▸ hp)
  rw [hqs] at hlines
  have hps : ps.filter (· != .gap) = ps :=
    List.filter_eq_self.2 (List.length_filter_eq_length_iff.1 ((congrArg List.length hlines).trans hlength.symm))
  exact hps.symm.trans hlines

/-- A gap may come before or after other pieces. -/
theorem ungapped_gap (ps qs : List Piece) : ungapped (.gap :: ps ++ qs) = ungapped (ps ++ .gap :: qs) := by
  simp [ungapped]
  omega

end Piece

namespace Print
open Piece

theorem stmts_cons (depth : Nat) (s : Stmt) (ss : List Stmt) :
    stmts depth (s :: ss) = do let ps ← stmt depth s; return ps ++ (← stmts depth ss) := rfl

theorem stmts_append (depth : Nat) (ss us : List Stmt) :
    stmts depth (ss ++ us) = do let ps ← stmts depth ss; return ps ++ (← stmts depth us) := by
  induction ss with
  | nil => simp [stmts]
  | cons s ss ih => simp only [List.cons_append, stmts_cons, ih, bind_assoc, pure_bind, List.append_assoc]

theorem stmts_tagComments (depth : Nat) (ts : List Tag) : stmts depth (tagComments ts) = .ok (tagPieces depth ts) := by
  induction ts with
  | nil => rfl
  | cons t ts ih =>
    simp only [tagComments, List.map_cons, stmts_cons] at ih ⊢
    rw [ih]
    rfl

theorem stmts_singleton (depth : Nat) (s : Stmt) : stmts depth [s] = stmt depth s := by
  simp [stmts]

/-- What follows the block of a statement. -/
def elsePieces (depth : Nat) (orelse : List Stmt) : BranchHead → Pieces
  | .if_ _ => if isChain orelse then chain depth orelse else clausePieces depth "else" orelse
  | _ => clausePieces depth "else" orelse

theorem stmt_branch (depth : Nat) (info : Info) (head : BranchHead) (body orelse : List Stmt) :
    stmt depth (.branch info head body orelse) = do
      let hs ← branchHeadPieces depth "if" head
      let ps ← stmts (depth + 1) body
      let es ← elsePieces depth orelse head
      return tagPieces depth info.tags ++ hs ++ ps ++ es := by
  cases head with
  | if_ test =>
    simp only [stmt, elsePieces]
    split <;> rfl
  | _ => rfl

theorem chain_branch (depth : Nat) (info : Info) (test : Expr) (body orelse ss : List Stmt) :
    chain depth (.branch info (.if_ test) body orelse :: ss) = do
      let hs ← branchHeadPieces depth "elif" (.if_ test)
      let ps ← stmts (depth + 1) body
      let es ← elsePieces depth orelse (.if_ test)
      return hs ++ ps ++ es := by
  simp only [chain, elsePieces]
  split <;> rfl

def gapBefore (head : BlockHead) : List Piece := if BlockHead.isSpaced head then [.gap] else []

def bodyPieces (depth : Nat) (body : List Stmt) (head : BlockHead) : Pieces :=
  if BlockHead.isSpaced head then documented (depth + 1) body else stmts (depth + 1) body

theorem stmt_block {head : BlockHead} (h : head.isModule = false) (depth : Nat) (info : Info) (body : List Stmt) :
    stmt depth (.block info head body) = do
      let hs ← blockHeadPieces depth head
      let ps ← bodyPieces depth body head
      return gapBefore head ++ tagPieces depth info.tags ++ hs ++ ps := by
  cases head with
  | module_ name => cases h
  | _ => rfl

/-- The tags of a statement are laid out before it, and a gap that goes before it goes before them. -/
theorem stmt_untagged (depth : Nat) (s : Stmt) : AgreeOn ungapped (stmt depth s)
    (do let ps ← stmt depth (s.withTags []); return tagPieces depth s.tags ++ ps) := by
  have hnone : ∀ ps, tagPieces depth [] ++ ps = ps := fun _ => rfl
  cases s with
  | simple info what =>
    simp only [Stmt.withTags, Stmt.mapInfo, Stmt.tags, stmt, bind_assoc, pure_bind, hnone]
    exact .refl ..
  | comment c => exact .refl ..
  | block info head body =>
    cases hm : head.isModule with
    | true =>
      cases head with
      | module_ name =>
        simp only [Stmt.withTags, Stmt.mapInfo, Stmt.tags, stmt, bind_assoc, pure_bind, hnone]
        exact .refl ..
      | _ => cases hm
    | false =>
      simp only [Stmt.withTags, Stmt.mapInfo, Stmt.tags, stmt_block hm, bind_assoc, pure_bind]
      refine AgreeOn.after fun hs => AgreeOn.after fun ps => .ok ?_
      simp only [gapBefore, hnone, List.append_assoc]
      split
      · exact ungapped_gap (tagPieces depth info.tags) (hs ++ ps)
      · rfl
  | branch info head body orelse =>
    simp only [Stmt.withTags, Stmt.mapInfo, Stmt.tags, stmt_branch, bind_assoc, pure_bind, hnone, List.append_assoc]
    exact .refl ..
  | attempt info isGroup body handlers orelse finalbody =>
    simp only [Stmt.withTags, Stmt.mapInfo, Stmt.tags, stmt, bind_assoc, pure_bind, hnone, List.append_assoc]
    exact .refl ..
  | select info subject cases =>
    simp only [Stmt.withTags, Stmt.mapInfo, Stmt.tags, stmt, bind_assoc, pure_bind, hnone]
    exact .refl ..

/-- Tags in front of what they are tags of. -/
theorem agree_tagged {depth : Nat} {ts : List Tag} {us : List Stmt} {x : Pieces}
    (h : AgreeOn ungapped x (stmts depth us)) :
    AgreeOn ungapped (do let ps ← x; return tagPieces depth ts ++ ps) (stmts depth (tagComments ts ++ us)) := by
  rw [stmts_append, stmts_tagComments]
  exact h.bind fun ps qs hps => .ok (ungapped_append rfl hps)

/-- A body that does not open with documentation is written like any other block. -/
theorem documented_of_not_isDoc {depth : Nat} {s : Stmt} (h : s.isDoc = false) (ss : List Stmt) :
    documented depth (s :: ss) = stmts depth (s :: ss) := by
  have hdoc : docLine depth [s] = none := by
    unfold docLine
    split
    · rename_i heq
      simp only [List.cons.injEq] at heq
      rw [heq.1] at h
      cases h
    · rfl
  rw [documented, hdoc]
  rfl

theorem clausePieces_of_ne_nil {depth : Nat} {ss : List Stmt} (h : ss ≠ []) (word : String) :
    clausePieces depth word ss = do return .line depth (word ++ ":") :: (← stmts (depth + 1) ss) := by
  cases ss with
  | nil => exact absurd rfl h
  | cons s ss => simp only [clausePieces, stmts_cons, bind_assoc, pure_bind, List.cons_append]

end Print

theorem Stmt.isDoc_shown (s : Stmt) : s.shown.isDoc = s.isDoc := by
  cases s <;> rfl

/-- What comes first where a statement is written out. -/
theorem Stmt.exists_writtenOut_cons (s : Stmt) :
    ∃ u us, s.writtenOut = u :: us ∧ (s.isDoc = false → u.isDoc = false) := by
  have tagged (ts : List Tag) (u : Stmt) (us : List Stmt) (hu : s.isDoc = false → u.isDoc = false) :
      ∃ v vs, tagComments ts ++ u :: us = v :: vs ∧ (s.isDoc = false → v.isDoc = false) := by
    cases ts with
    | nil => exact ⟨u, us, rfl, hu⟩
    | cons t ts => exact ⟨_, _, rfl, fun _ => rfl⟩
  cases s with
  | simple info what => exact tagged _ _ _ fun h => h
  | comment c => exact ⟨_, _, rfl, fun _ => rfl⟩
  | block info head body =>
    cases head with
    | module_ name =>
      simp only [writtenOut, BlockHead.writtenOut]
      split
      · exact tagged _ _ _ fun _ => rfl
      · exact tagged _ _ _ fun _ => rfl
    | _ => exact tagged _ _ _ fun _ => rfl
  | branch info head body orelse => exact tagged _ _ _ fun _ => rfl
  | attempt info isGroup body handlers orelse finalbody => exact tagged _ _ _ fun _ => rfl
  | select info subject cases => exact tagged _ _ _ fun _ => rfl

theorem stmtsWrittenOut_ne_nil {ss : List Stmt} (h : ss ≠ []) : stmtsWrittenOut ss ≠ [] := by
  cases ss with
  | nil => exact absurd rfl h
  | cons s ss =>
    obtain ⟨u, us, hu, -⟩ := s.exists_writtenOut_cons
    simp [stmtsWrittenOut, hu]

namespace Print
open Piece

theorem isChain_tagComments (ts : List Tag) (us : List Stmt) : isChain (tagComments ts ++ us) = isChain us := by
  induction ts with
  | nil => rfl
  | cons t ts ih => exact ih

theorem isChain_stmtsShown (ss : List Stmt) : isChain (stmtsShown ss) = isChain ss := by
  induction ss with
  | nil => rfl
  | cons s ss ih =>
    cases s with
    | comment c => exact ih
    | branch info head body orelse => cases head <;> cases ss <;> rfl
    | _ => rfl

/-- A lone `if` stays one without its tags. -/
theorem isChain_untagged {ss : List Stmt} (h : isChain ss = true) :
    isChain (stmtsWrittenOut (ss.map (·.withTags []))) = true := by
  induction ss with
  | nil => cases h
  | cons s ss ih =>
    cases s with
    | comment c => exact ih h
    | branch info head body orelse =>
      cases head with
      | if_ test =>
        cases ss with
        | nil => rfl
        | cons u us => cases h
      | _ => cases h
    | _ => cases h

/-- Nothing else becomes a lone `if` where there are no modules. -/
theorem isChain_writtenOut {ss : List Stmt} (hm : ∀ s ∈ ss, s.role ≠ .module_) (h : isChain ss = false) :
    isChain (stmtsWrittenOut ss) = false := by
  induction ss with
  | nil => rfl
  | cons s ss ih =>
    obtain ⟨hs, hss⟩ := List.forall_mem_cons.1 hm
    cases s with
    | comment c => exact ih hss h
    | simple info what =>
      rw [stmtsWrittenOut, Stmt.writtenOut, List.append_assoc, isChain_tagComments]
      rfl
    | block info head body =>
      cases head with
      | module_ name => exact absurd rfl hs
      | _ =>
        rw [stmtsWrittenOut, Stmt.writtenOut, List.append_assoc, isChain_tagComments]
        rfl
    | branch info head body orelse =>
      rw [stmtsWrittenOut, Stmt.writtenOut, List.append_assoc, isChain_tagComments]
      cases head with
      | if_ test =>
        cases ss with
        | nil => cases h
        | cons s ss =>
          obtain ⟨u, us, hu, -⟩ := s.exists_writtenOut_cons
          rw [stmtsWrittenOut, hu]
          rfl
      | _ => rfl
    | attempt info isGroup body handlers orelse finalbody =>
      rw [stmtsWrittenOut, Stmt.writtenOut, List.append_assoc, isChain_tagComments]
      rfl
    | select info subject cases =>
      rw [stmtsWrittenOut, Stmt.writtenOut, List.append_assoc, isChain_tagComments]
      rfl

/-- A statement is laid out like its tags as comments and what is laid out like the statement without tags. -/
theorem agree_of_untagged {depth : Nat} {s : Stmt} {us : List Stmt}
    (h : AgreeOn ungapped (stmt depth (s.withTags [])) (stmts depth us)) :
    AgreeOn ungapped (stmt depth s) (stmts depth (tagComments s.tags ++ us)) :=
  (stmt_untagged depth s).trans (agree_tagged h)

theorem clausePieces_agree {depth : Nat} {ss us : List Stmt}
    (h : AgreeOn ungapped (stmts (depth + 1) ss) (stmts (depth + 1) us)) (hempty : ss = [] ↔ us = []) (word : String) :
    AgreeOn ungapped (clausePieces depth word ss) (clausePieces depth word us) := by
  by_cases hss : ss = []
  · rw [hss, hempty.1 hss]
    exact .refl ..
  · rw [clausePieces_of_ne_nil hss, clausePieces_of_ne_nil fun hus => hss (hempty.2 hus)]
    exact h.bind fun ps qs hps => .ok (ungapped_cons _ hps)

/-- The body of a module is laid out between two comments, or there is one comment in its place. -/
theorem module_agree {depth : Nat} {span : Span} {body body' : List Stmt}
    (h : AgreeOn ungapped (stmts depth body) (stmts depth body')) (hempty : body = [] ↔ body' = []) (name : String) :
    AgreeOn ungapped (stmt depth (.block ⟨span, []⟩ (.module_ name) body))
      (stmts depth ((BlockHead.module_ name).writtenOut span body')) := by
  by_cases hbody : body = []
  · rw [hbody, hempty.1 hbody]
    exact .refl ..
  · have hbody' : body' ≠ [] := fun he => hbody (hempty.2 he)
    have hplain : stmts depth ((BlockHead.module_ name).writtenOut span body') = do
        return .line depth (beginText ++ name) :: ((← stmts depth body') ++ [.line depth (endText ++ name)]) := by
      rw [BlockHead.writtenOut, if_neg (by simpa using hbody'), List.cons_append, stmts_cons, stmts_append]
      cases stmts depth body' <;> rfl
    rw [hplain]
    simp only [stmt, List.isEmpty_iff, hbody, if_false]
    exact h.bind fun ps ps' hps => .ok (ungapped_cons _ (ungapped_append hps rfl))

theorem block_agree {depth : Nat} {span : Span} {head : BlockHead} {body body' : List Stmt} (hm : head.isModule = false)
    (h : AgreeOn ungapped (bodyPieces depth body head) (bodyPieces depth body' head)) :
    AgreeOn ungapped (stmt depth (.block ⟨span, []⟩ head body)) (stmts depth (head.writtenOut span body')) := by
  rw [BlockHead.writtenOut_of_not_isModule hm, stmts_singleton, stmt_block hm, stmt_block hm]
  exact AgreeOn.after fun hs => h.bind fun ps ps' hps => .ok (ungapped_append rfl hps)

theorem stmtsWrittenOut_shown_eq_nil_iff (ss : List Stmt) : ss = [] ↔ stmtsWrittenOut (stmtsShown ss) = [] := by
  cases ss with
  | nil => simp [stmtsShown, stmtsWrittenOut]
  | cons s ss => simpa [stmtsShown] using stmtsWrittenOut_ne_nil (List.cons_ne_nil s.shown (stmtsShown ss))

theorem role_of_mem_stmtsShown {ss : List Stmt} (h : ∀ s ∈ ss, s.role ≠ .module_) :
    ∀ s ∈ stmtsShown ss, s.role ≠ .module_ := by
  induction ss with
  | nil => simp [stmtsShown]
  | cons s ss ih =>
    obtain ⟨hs, hss⟩ := List.forall_mem_cons.1 h
    refine List.forall_mem_cons.2 ⟨?_, ih hss⟩
    cases s <;> exact hs

theorem role_ne_module {s : Stmt} (h : s.Obeys .attached false) : s.role ≠ .module_ := by
  intro hm
  cases s with
  | comment c => cases hm
  | _ => exact absurd ((h.stmt rfl).2.1 hm) Bool.false_ne_true

/-- What follows the block of a statement, if it is laid out like what is written out of it in both its ways. -/
theorem elsePieces_agree {depth : Nat} {ss : List Stmt} (hobeys : stmtsObey .attached false ss)
    (h : AgreeOn ungapped (stmts (depth + 1) ss) (stmts (depth + 1) (stmtsWrittenOut (stmtsShown ss))))
    (hchain : isChain ss = true → AgreeOn ungapped (chain depth ss)
      (chain depth (stmtsWrittenOut ((stmtsShown ss).map (·.withTags []))))) (head : BranchHead) :
    AgreeOn ungapped (elsePieces depth ss head)
      (elsePieces depth (stmtsWrittenOut (withShownChain (stmtsShown ss) head)) head) := by
  have hclause := clausePieces_agree h (stmtsWrittenOut_shown_eq_nil_iff ss) "else"
  cases head with
  | if_ test =>
    simp only [elsePieces, withShownChain, isChain_stmtsShown]
    cases hc : isChain ss with
    | true =>
      have hc' := isChain_untagged ((isChain_stmtsShown ss).trans hc)
      simpa only [if_true, hc'] using hchain hc
    | false =>
      have hroles := role_of_mem_stmtsShown fun s hs => role_ne_module (stmtsObey_iff.1 hobeys s hs)
      have hc' := isChain_writtenOut hroles ((isChain_stmtsShown ss).trans hc)
      simpa only [hc', Bool.false_eq_true, if_false] using hclause
  | _ => exact hclause

/-- A body that opens with documentation, which is laid out without its tags. -/
theorem documented_agree_of_isDoc {depth : Nat} {s : Stmt} {ss : List Stmt} (hd : s.isDoc = true)
    (h : AgreeOn ungapped (stmts depth ss) (stmts depth (stmtsWrittenOut (stmtsShown ss)))) :
    AgreeOn ungapped (documented depth (s :: ss))
      (documented depth (stmtsWrittenOut (withShownDoc (stmtsShown (s :: ss))))) := by
  cases s with
  | simple info what =>
    have hcons : stmtsWrittenOut (withShownDoc (stmtsShown (.simple info what :: ss))) =
        .simple ⟨info.span, []⟩ what :: stmtsWrittenOut (stmtsShown ss) := by
      rw [stmtsShown, withShownDoc, Stmt.isDoc_shown, hd]
      rfl
    rw [hcons]
    simp only [Stmt.isDoc] at hd
    unfold Simple.isDoc at hd
    split at hd
    · exact h.bind fun qs qs' hqs => .ok (ungapped_append rfl hqs)
    · cases hd
  | _ => cases hd

theorem documented_agree_of_not_isDoc {depth : Nat} {s : Stmt} {ss : List Stmt} (hd : s.isDoc = false)
    (h : AgreeOn ungapped (stmts depth (s :: ss)) (stmts depth (stmtsWrittenOut (stmtsShown (s :: ss))))) :
    AgreeOn ungapped (documented depth (s :: ss))
      (documented depth (stmtsWrittenOut (withShownDoc (stmtsShown (s :: ss))))) := by
  obtain ⟨u, us, hu, hdu⟩ := s.shown.exists_writtenOut_cons
  have hdoc : u.isDoc = false := hdu (s.isDoc_shown.trans hd)
  have hsame : withShownDoc (stmtsShown (s :: ss)) = stmtsShown (s :: ss) := by
    rw [stmtsShown, withShownDoc, Stmt.isDoc_shown, hd]
    rfl
  have hcons : stmtsWrittenOut (stmtsShown (s :: ss)) = u :: (us ++ stmtsWrittenOut (stmtsShown ss)) := by
    rw [stmtsShown, stmtsWrittenOut, hu, List.cons_append]
  rw [hsame, documented_of_not_isDoc hd, hcons, documented_of_not_isDoc hdoc, ← hcons]
  exact h

mutual

/-- A statement is laid out like what is written out of it. -/
theorem stmt_agree {outer : Bool} (depth : Nat) :
    (s : Stmt) → s.Obeys .attached outer → AgreeOn ungapped (stmt depth s) (stmts depth s.shown.writtenOut)
  | .simple info what, h => by
    refine agree_of_untagged (s := .simple info what) ?_
    rw [stmts_singleton]
    exact .refl ..
  | .comment c, h => by
    rw [Stmt.shown, Stmt.writtenOut, stmts_singleton]
    exact .refl ..
  | .block info head body, ⟨hi, hf, hb⟩ => by
    refine agree_of_untagged (s := .block info head body) ?_
    cases hm : head.isModule with
    | true =>
      cases head with
      | module_ name => exact module_agree (stmts_agree depth body hb) (stmtsWrittenOut_shown_eq_nil_iff body) name
      | _ => cases hm
    | false =>
      refine block_agree hm ?_
      unfold bodyPieces
      split
      · exact documented_agree (depth + 1) body hb
      · exact stmts_agree (depth + 1) body hb
  | .branch info head body orelse, ⟨hi, ⟨hf, hb⟩, hfo, ho⟩ => by
    refine agree_of_untagged (s := .branch info head body orelse) ?_
    simp only [Stmt.withTags, Stmt.mapInfo, stmts_singleton, stmt_branch]
    refine AgreeOn.after fun hs => ?_
    refine (stmts_agree (depth + 1) body hb).bind fun ps ps' hps => ?_
    have helse := elsePieces_agree ho (stmts_agree (depth + 1) orelse ho) (chain_agree depth orelse ho) head
    refine helse.bind fun es es' hes => .ok ?_
    exact ungapped_append (ungapped_append rfl hps) hes
  | .attempt info isGroup body handlers orelse finalbody, ⟨hi, ⟨hf, hb⟩, hh, ⟨hfo, ho⟩, hff, hfb⟩ => by
    refine agree_of_untagged (s := .attempt info isGroup body handlers orelse finalbody) ?_
    simp only [Stmt.withTags, Stmt.mapInfo, stmts_singleton, stmt]
    refine (stmts_agree (depth + 1) body hb).bind fun ps ps' hps => ?_
    refine (handlerPieces_agree depth isGroup handlers hh).bind fun hs hs' hhs => ?_
    have helse := clausePieces_agree (stmts_agree (depth + 1) orelse ho)
      (stmtsWrittenOut_shown_eq_nil_iff orelse) "else"
    refine helse.bind fun es es' hes => ?_
    have hfinal := clausePieces_agree (stmts_agree (depth + 1) finalbody hfb)
      (stmtsWrittenOut_shown_eq_nil_iff finalbody) "finally"
    refine hfinal.bind fun fs fs' hfs => .ok ?_
    exact ungapped_append (ungapped_append (ungapped_append (ungapped_cons _ hps) hhs) hes) hfs
  | .select info subject cases, ⟨hi, hc⟩ => by
    refine agree_of_untagged (s := .select info subject cases) ?_
    simp only [Stmt.withTags, Stmt.mapInfo, stmts_singleton, stmt]
    refine AgreeOn.after fun t => ?_
    exact (casePieces_agree (depth + 1) cases hc).bind fun cs cs' hcs => .ok (ungapped_cons _ hcs)

theorem stmts_agree {outer : Bool} (depth : Nat) : (ss : List Stmt) → stmtsObey .attached outer ss →
    AgreeOn ungapped (stmts depth ss) (stmts depth (stmtsWrittenOut (stmtsShown ss)))
  | [], _ => .refl ..
  | s :: ss, ⟨hs, hss⟩ => by
    rw [stmts_cons, stmtsShown, stmtsWrittenOut, stmts_append]
    refine AgreeOn.bind (stmt_agree depth s hs) fun ps ps' hps => ?_
    exact AgreeOn.bind (stmts_agree depth ss hss) fun qs qs' hqs => .ok (ungapped_append hps hqs)

theorem documented_agree {outer : Bool} (depth : Nat) : (ss : List Stmt) → stmtsObey .attached outer ss →
    AgreeOn ungapped (documented depth ss) (documented depth (stmtsWrittenOut (withShownDoc (stmtsShown ss))))
  | [], _ => .refl ..
  | s :: ss, ⟨hs, hss⟩ => by
    cases hd : s.isDoc with
    | true => exact documented_agree_of_isDoc hd (stmts_agree depth ss hss)
    | false =>
      have hall : AgreeOn ungapped (stmts depth (s :: ss)) (stmts depth (stmtsWrittenOut (stmtsShown (s :: ss)))) := by
        rw [stmts_cons, stmtsShown, stmtsWrittenOut, stmts_append]
        exact (stmt_agree depth s hs).bind fun ps ps' hps =>
          (stmts_agree depth ss hss).bind fun qs qs' hqs => .ok (ungapped_append hps hqs)
      exact documented_agree_of_not_isDoc hd hall

theorem chain_agree (depth : Nat) : (ss : List Stmt) → stmtsObey .attached false ss → isChain ss = true →
    AgreeOn ungapped (chain depth ss) (chain depth (stmtsWrittenOut ((stmtsShown ss).map (·.withTags []))))
  | [], _, hc => nomatch hc
  | .comment c :: ss, ⟨_, hss⟩, hc => by
    exact (chain_agree depth ss hss hc).bind fun ps ps' hps => .ok (ungapped_cons _ hps)
  | .branch info (.if_ test) body orelse :: ss, ⟨⟨hi, ⟨hf, hb⟩, hfo, ho⟩, hss⟩, hc => by
    have helse := elsePieces_agree ho (stmts_agree (depth + 1) orelse ho) (chain_agree depth orelse ho) (.if_ test)
    have hcons : stmtsWrittenOut ((stmtsShown (.branch info (.if_ test) body orelse :: ss)).map (·.withTags [])) =
        .branch ⟨info.span, []⟩ (.if_ test) (stmtsWrittenOut (stmtsShown body))
          (stmtsWrittenOut (withShownChain (stmtsShown orelse) (.if_ test))) ::
            stmtsWrittenOut ((stmtsShown ss).map (·.withTags [])) := rfl
    rw [hcons, chain_branch, chain_branch]
    refine AgreeOn.after fun hs => ?_
    refine (stmts_agree (depth + 1) body hb).bind fun ps ps' hps => ?_
    exact helse.bind fun es es' hes => .ok (ungapped_append (ungapped_append rfl hps) hes)
  | .branch info (.for_ ..) body orelse :: ss, _, hc | .branch info (.while_ ..) body orelse :: ss, _, hc
  | .simple .. :: ss, _, hc | .block .. :: ss, _, hc | .attempt .. :: ss, _, hc | .select .. :: ss, _, hc => nomatch hc

theorem handlerPieces_agree (depth : Nat) (isGroup : Bool) : (hs : List Handler) → handlersObey .attached hs →
    AgreeOn ungapped (handlerPieces depth isGroup hs)
      (handlerPieces depth isGroup (handlersWrittenOut (handlersShown hs)))
  | [], _ => .refl ..
  | .comment c :: hs, ⟨_, hhs⟩ =>
    (handlerPieces_agree depth isGroup hs hhs).bind fun ps ps' hps => .ok (ungapped_append rfl hps)
  | .handler span type name body :: hs, ⟨⟨_, hb⟩, hhs⟩ => by
    simp only [handlersShown, handlersWrittenOut, handlerPieces, handler, bind_assoc]
    refine AgreeOn.after fun t => ?_
    refine (stmts_agree (depth + 1) body hb).bind fun ps ps' hps => ?_
    exact (handlerPieces_agree depth isGroup hs hhs).bind fun qs qs' hqs =>
      .ok (ungapped_append (ungapped_cons _ hps) hqs)

theorem casePieces_agree (depth : Nat) : (cs : List Case) → casesObey .attached cs →
    AgreeOn ungapped (casePieces depth cs) (casePieces depth (casesWrittenOut (casesShown cs)))
  | [], _ => .refl ..
  | .comment c :: cs, ⟨_, hcs⟩ =>
    (casePieces_agree depth cs hcs).bind fun ps ps' hps => .ok (ungapped_append rfl hps)
  | .case lines pattern guard body :: cs, ⟨⟨_, hb⟩, hcs⟩ => by
    simp only [casesShown, casesWrittenOut, casePieces, casePiece, bind_assoc]
    refine AgreeOn.after fun t => AgreeOn.after fun g => ?_
    refine (stmts_agree (depth + 1) body hb).bind fun ps ps' hps => ?_
    exact (casePieces_agree depth cs hcs).bind fun qs qs' hqs => .ok (ungapped_append (ungapped_cons _ hps) hqs)

end

end Print

end TwinModule
