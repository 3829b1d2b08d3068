import Mathlib
import TwinModule.Proofs.Conversion.Tailor
import TwinModule.Proofs.Directive.Attached
import TwinModule.Proofs.Tree.Tidy
/-!
Inline comments and what they stand with. A conversion takes statements out of a list and leaves all comments where they
are, so that an inline comment comes to stand with the last statement before it that is still there. That is the one it
was written for unless this one was taken out.
-/
set_option autoImplicit false

namespace TwinModule

namespace Stmt

def asComment? : Stmt → Option Comment
  | comment k => some k
  | _ => none

def isInlineComment (s : Stmt) : Bool := s.asComment?.any Comment.isInline

theorem eq_comment_of_asComment? {s : Stmt} {k : Comment} (h : s.asComment? = some k) : s = comment k := by
  cases s <;> cases h
  rfl

theorem asComment?_mapBlocks (w : BlockMap) (s : Stmt) : (s.mapBlocks w).asComment? = s.asComment? := by
  cases s <;> rfl

theorem asComment?_tidy (s : Stmt) : s.tidy.asComment? = s.asComment? := by
  rw [tidy, asComment?_mapBlocks, asComment?_mapBlocks]

end Stmt

/-- The item that an inline comment after some others stands with: the last one that is no inline comment itself. -/
def companion? (ss : List Stmt) : Option Stmt := (ss.filter fun s => !s.isInlineComment).getLast?

def handlerBodies : List Handler → List (List Stmt)
  | [] => []
  | .comment _ :: hs => handlerBodies hs
  | .handler _ _ _ body :: hs => body :: handlerBodies hs

def caseBodies : List Case → List (List Stmt)
  | [] => []
  | .comment _ :: cs => caseBodies cs
  | .case _ _ _ body :: cs => body :: caseBodies cs

/-- The lists of statements right in a statement. -/
def Stmt.ownBlocks : Stmt → List (List Stmt)
  | .simple .. => []
  | .comment _ => []
  | .block _ _ body => [body]
  | .branch _ _ body orelse => [body, orelse]
  | .attempt _ _ body handlers orelse finalbody => body :: handlerBodies handlers ++ [orelse, finalbody]
  | .select _ _ cases => caseBodies cases

/-- The lists of statements at any depth of a tree, and of some files that belong to it. -/
inductive ListIn (files : List Stmt → Prop) (root : List Stmt) : List Stmt → Prop
  | root : ListIn files root root
  | file {body : List Stmt} (h : files body) : ListIn files root body
  | inner {ss block : List Stmt} {s : Stmt} (h : ListIn files root ss) (hs : s ∈ ss) (hb : block ∈ s.ownBlocks) :
      ListIn files root block

/-- What is left of a list when its tree is finalized, perhaps with a statement that it needs. -/
def Tidied (ss out : List Stmt) : Prop := out = tidyStmts ss ∨ ∃ span, out = orPass span (tidyStmts ss)

theorem Tree.tidied_finalize (t : Tree) : Tidied t.body t.finalize.body := by
  cases t with
  | file body => exact .inl (congrArg Tree.body (Tree.finalize_file body))
  | module_ info name body => exact .inr ⟨info.span, rfl⟩

/-- Nothing but statements comes after what is left of a list. -/
theorem Tidied.exists_append {ss out : List Stmt} (h : Tidied ss out) :
    ∃ more, out = tidyStmts ss ++ more ∧ ∀ s ∈ more, s.asComment? = none ∧ s.ownBlocks = [] := by
  obtain rfl | ⟨span, rfl⟩ := h
  · exact ⟨[], by simp⟩
  · unfold orPass
    split
    · exact ⟨[], by simp⟩
    · exact ⟨[.pass span.forChild], rfl, by simp [Stmt.pass, Stmt.asComment?, Stmt.ownBlocks]⟩

theorem exists_of_mem_handlerBodies_tidy {out : List Stmt} :
    (hs : List Handler) → out ∈ handlerBodies (tidyHandlers hs) → ∃ ss ∈ handlerBodies hs, Tidied ss out
  | [], h => by cases h
  | .comment _ :: hs, h => exists_of_mem_handlerBodies_tidy hs h
  | .handler span type name body :: hs, h => by
    have htidy : tidyHandlers (.handler span type name body :: hs) =
        .handler span type name (orPass span (tidyStmts body)) :: tidyHandlers hs := rfl
    rw [htidy, handlerBodies, List.mem_cons] at h
    obtain rfl | h := h
    · exact ⟨body, List.mem_cons_self .., .inr ⟨span, rfl⟩⟩
    · obtain ⟨ss, hss, ht⟩ := exists_of_mem_handlerBodies_tidy hs h
      exact ⟨ss, List.mem_cons_of_mem _ hss, ht⟩

theorem exists_of_mem_caseBodies_tidy {out : List Stmt} :
    (cs : List Case) → out ∈ caseBodies (tidyCases cs) → ∃ ss ∈ caseBodies cs, Tidied ss out
  | [], h => by cases h
  | .comment _ :: cs, h => exists_of_mem_caseBodies_tidy cs h
  | .case lines pattern guard body :: cs, h => by
    have htidy : tidyCases (.case lines pattern guard body :: cs) =
        .case lines pattern guard (orPass Span.unset (tidyStmts body)) :: tidyCases cs := rfl
    rw [htidy, caseBodies, List.mem_cons] at h
    obtain rfl | h := h
    · exact ⟨body, List.mem_cons_self .., .inr ⟨Span.unset, rfl⟩⟩
    · obtain ⟨ss, hss, ht⟩ := exists_of_mem_caseBodies_tidy cs h
      exact ⟨ss, List.mem_cons_of_mem _ hss, ht⟩

theorem exists_of_mem_ownBlocks_tidy {s : Stmt} {out : List Stmt} (h : out ∈ s.tidy.ownBlocks) :
    ∃ ss ∈ s.ownBlocks, Tidied ss out := by
  cases s with
  | simple info what => cases h
  | comment k => cases h
  | block info head body =>
    rw [tidy_block, Stmt.ownBlocks, List.mem_singleton] at h
    exact ⟨body, List.mem_singleton_self _, .inr ⟨_, h⟩⟩
  | branch info head body orelse =>
    rw [tidy_branch, Stmt.ownBlocks, List.mem_cons, List.mem_singleton] at h
    obtain h | h := h
    · exact ⟨body, by simp [Stmt.ownBlocks], .inr ⟨_, h⟩⟩
    · exact ⟨orelse, by simp [Stmt.ownBlocks], .inl h⟩
  | attempt info isGroup body handlers orelse finalbody =>
    rw [tidy_attempt] at h
    simp only [Stmt.ownBlocks, List.mem_cons, List.mem_append, List.cons_append, List.not_mem_nil, or_false] at h
    obtain h | h | h | h := h
    · exact ⟨body, by simp [Stmt.ownBlocks], .inr ⟨_, h⟩⟩
    · obtain ⟨ss, hss, ht⟩ := exists_of_mem_handlerBodies_tidy handlers h
      exact ⟨ss, by simp [Stmt.ownBlocks, hss], ht⟩
    · exact ⟨orelse, by simp [Stmt.ownBlocks], .inl h⟩
    · refine ⟨finalbody, by simp [Stmt.ownBlocks], ?_⟩
      split at h
      · exact .inr ⟨_, h⟩
      · exact .inl h
  | select info subject cases =>
    rw [tidy_select] at h
    exact exists_of_mem_caseBodies_tidy cases h

section

variable {r : Rule}

theorem obeys_handlerBodies {ss : List Stmt} :
    (hs : List Handler) → handlersObey r hs → ss ∈ handlerBodies hs → stmtsObey r false ss
  | [], _, h => by cases h
  | .comment _ :: hs, ho, h => obeys_handlerBodies hs ho.2 h
  | .handler _ _ _ body :: hs, ho, h => by
    obtain rfl | h := List.mem_cons.1 h
    · exact ho.1.2
    · exact obeys_handlerBodies hs ho.2 h

theorem obeys_caseBodies {ss : List Stmt} :
    (cs : List Case) → casesObey r cs → ss ∈ caseBodies cs → stmtsObey r false ss
  | [], _, h => by cases h
  | .comment _ :: cs, ho, h => obeys_caseBodies cs ho.2 h
  | .case _ _ _ body :: cs, ho, h => by
    obtain rfl | h := List.mem_cons.1 h
    · exact ho.1.2
    · exact obeys_caseBodies cs ho.2 h

theorem obeys_ownBlocks {outer : Bool} {s : Stmt} {ss : List Stmt} (ho : s.Obeys r outer) (h : ss ∈ s.ownBlocks) :
    ∃ inner, stmtsObey r inner ss := by
  cases s with
  | simple info what => cases h
  | comment k => cases h
  | block info head body =>
    obtain rfl := List.mem_singleton.1 h
    exact ⟨_, ho.2.2⟩
  | branch info head body orelse =>
    obtain ⟨-, ⟨-, hb⟩, -, ho⟩ := ho
    simp only [Stmt.ownBlocks, List.mem_cons, List.not_mem_nil, or_false] at h
    obtain rfl | rfl := h
    · exact ⟨_, hb⟩
    · exact ⟨_, ho⟩
  | attempt info isGroup body handlers orelse finalbody =>
    obtain ⟨-, ⟨-, hb⟩, hh, ⟨-, ho⟩, -, hf⟩ := ho
    simp only [Stmt.ownBlocks, List.mem_cons, List.mem_append, List.cons_append, List.not_mem_nil, or_false] at h
    obtain rfl | h | rfl | rfl := h
    · exact ⟨_, hb⟩
    · exact ⟨_, obeys_handlerBodies handlers hh h⟩
    · exact ⟨_, ho⟩
    · exact ⟨_, hf⟩
  | select info subject cases => exact ⟨_, obeys_caseBodies cases ho.2 h⟩

end

namespace Conversion

variable {c : Conversion} {load : Loader} {around : Surroundings} {lib : Option Library}

/-- The loaders of a conversion, whatever the depth to which files are read in files. -/
inductive LoaderOf (c : Conversion) : Option Library → Loader → Prop
  | none : LoaderOf c none noLibrary
  | some (lib : Library) (depth : Nat) : LoaderOf c (some lib) (c.fromLibrary lib depth)

theorem loaderOf_loader (c : Conversion) (lib : Option Library) : c.LoaderOf lib (c.loader lib) := by
  cases lib with
  | none => exact .none
  | some lib => exact .some lib _

/-- The conversion keeps the one statement, and makes it the other one. -/
def Makes (c : Conversion) (lib : Option Library) (s t : Stmt) : Prop :=
  ∃ load around ns u, c.LoaderOf lib load ∧ (c.tailor load around s).Yields ns [u] ∧ u.isErased = false ∧ t = u.tidy

/-- The contents of the files of a library. -/
def FileOf (lib : Option Library) (body : List Stmt) : Prop :=
  ∃ l path name, lib = some l ∧ Library.load l.store path name = .ok body

/-- Every inline comment in a list of the converted tree is in one of the annotated lists. What it stands with is what
has been made of the statement that it stood with there, when only the given statements are looked at; and where it had
none of these before it, there is nothing before it. -/
def InlineFollow (c : Conversion) (lib : Option Library) (looked : Stmt → Bool) (t t' : Tree) : Prop :=
  ∀ out, ListIn (fun _ => False) t'.body out →
    ∀ before' k after', out = before' ++ .comment k :: after' → k.isInline = true →
      ∃ ss before after, ListIn (FileOf lib) t.body ss ∧ ss = before ++ .comment k :: after ∧
        Option.Rel (c.Makes lib) (companion? (before.filter looked)) (companion? before')

/-- A list comes of tailoring one of the blocks, or of reading a module. -/
def BlockOf (c : Conversion) (load : Loader) (blocks : List (List Stmt)) (out : List Stmt) : Prop :=
  (∃ ss ∈ blocks, ∃ around ns, (c.tailorStmts load around ss).Yields ns out) ∨
    ∃ around name explicit line ns, (load around name explicit line).Yields ns out

theorem BlockOf.mono {blocks more : List (List Stmt)} {out : List Stmt} (h : c.BlockOf load blocks out) (hsub : ∀ ss ∈ blocks, ss ∈ more) :
    c.BlockOf load more out := by
  obtain ⟨ss, hss, htailored⟩ | hloaded := h
  · exact .inl ⟨ss, hsub ss hss, htailored⟩
  · exact .inr hloaded

theorem exists_of_mem_handlerBodies_tailored {ns : List Note} {handlers : List Handler} {out : List Stmt} :
    (hs : List Handler) → (c.tailorHandlers load around hs).Yields ns handlers → out ∈ handlerBodies handlers →
      c.BlockOf load (handlerBodies hs) out
  | [], h, hout => by
    obtain ⟨rfl, rfl⟩ := Traced.pure_yields_iff.1 h
    cases hout
  | .comment k :: hs, h, hout => by
    obtain ⟨rest, hrest, rfl⟩ := Traced.bind_pure_yields_iff.1 h
    exact exists_of_mem_handlerBodies_tailored hs hrest hout
  | .handler span type name body :: hs, h, hout => by
    obtain ⟨ms, body', ks, rest, hbody, hrest, rfl, rfl⟩ := Traced.bind_bind_pure_yields_iff.1 h
    obtain rfl | hout := List.mem_cons.1 hout
    · exact .inl ⟨body, List.mem_cons_self .., around, ms, hbody⟩
    · exact (exists_of_mem_handlerBodies_tailored hs hrest hout).mono fun ss hss =>
        List.mem_cons_of_mem _ hss

theorem exists_of_mem_caseBodies_tailored {ns : List Note} {cases : List Case} {out : List Stmt} :
    (cs : List Case) → (c.tailorCases load around cs).Yields ns cases → out ∈ caseBodies cases →
      c.BlockOf load (caseBodies cs) out
  | [], h, hout => by
    obtain ⟨rfl, rfl⟩ := Traced.pure_yields_iff.1 h
    cases hout
  | .comment k :: cs, h, hout => by
    obtain ⟨rest, hrest, rfl⟩ := Traced.bind_pure_yields_iff.1 h
    exact exists_of_mem_caseBodies_tailored cs hrest hout
  | .case lines pattern guard body :: cs, h, hout => by
    obtain ⟨ms, body', ks, rest, hbody, hrest, rfl, rfl⟩ := Traced.bind_bind_pure_yields_iff.1 h
    obtain rfl | hout := List.mem_cons.1 hout
    · exact .inl ⟨body, List.mem_cons_self .., around, ms, hbody⟩
    · exact (exists_of_mem_caseBodies_tailored cs hrest hout).mono fun ss hss =>
        List.mem_cons_of_mem _ hss

/-- A statement that stays becomes one statement, and a comment stays as it is. The blocks of the new statement come of
those of the old one, or of a file. -/
theorem exists_tailored_own {s : Stmt} {ns : List Note} {out : List Stmt} (he : s.isErased = false)
    (hf : s.isFor c.variant.other = false) (h : (c.tailor load around s).Yields ns out) :
    ∃ u, out = [u] ∧ u.isErased = false ∧ u.asComment? = s.asComment? ∧
      ∀ block ∈ u.ownBlocks, c.BlockOf load s.ownBlocks block := by
  cases s with
  | comment k =>
    obtain ⟨rfl, rfl⟩ := Traced.pure_yields_iff.1 h
    exact ⟨_, rfl, rfl, rfl, by simp [Stmt.ownBlocks]⟩
  | simple info what =>
    rw [tailor_simple hf] at h
    obtain ⟨rfl, rfl⟩ := Traced.pure_yields_iff.1 h
    refine ⟨_, rfl, ?_, rfl, by simp [Stmt.ownBlocks]⟩
    rw [Stmt.isErased_eq_false_iff] at he ⊢
    simpa only [Stmt.role, role_retarget] using he
  | block info head body =>
    cases hm : head.role with
    | ordinary =>
      rw [tailor_block hf hm] at h
      obtain ⟨body', hbody, rfl⟩ := Traced.bind_pure_yields_iff.1 h
      refine ⟨_, rfl, rfl, rfl, fun block hb => .inl ⟨body, List.mem_singleton_self _, around, ns, ?_⟩⟩
      rwa [List.mem_singleton.1 hb]
    | module_ =>
      cases head with
      | module_ name =>
        obtain ⟨explicit, body', rfl, hbody⟩ := exists_tailored_module hf h
        refine ⟨_, rfl, rfl, rfl, fun block hb => ?_⟩
        rw [List.mem_singleton.1 hb]
        obtain ⟨_, hown⟩ | ⟨_, hloaded⟩ := hbody
        · exact .inl ⟨body, List.mem_singleton_self _, _, ns, hown⟩
        · exact .inr ⟨_, name, explicit, _, ns, hloaded⟩
      | _ => cases hm
    | erased => cases head <;> cases hm
  | branch info head body orelse =>
    rw [tailor_branch hf] at h
    obtain ⟨ms, body', ks, orelse', hbody, horelse, rfl, rfl⟩ := Traced.bind_bind_pure_yields_iff.1 h
    refine ⟨_, rfl, rfl, rfl, fun block hb => ?_⟩
    simp only [Stmt.ownBlocks, List.mem_cons, List.not_mem_nil, or_false] at hb
    obtain rfl | rfl := hb
    · exact .inl ⟨body, by simp [Stmt.ownBlocks], around, ms, hbody⟩
    · exact .inl ⟨orelse, by simp [Stmt.ownBlocks], around, ks, horelse⟩
  | attempt info isGroup body handlers orelse finalbody =>
    obtain ⟨mb, body', mh, handlers', mo, orelse', mf, finalbody', hbody, hhandlers, horelse, hfinal, rfl, rfl⟩ :=
      exists_tailored_attempt hf h
    refine ⟨_, rfl, rfl, rfl, fun block hb => ?_⟩
    simp only [Stmt.ownBlocks, List.mem_cons, List.mem_append, List.cons_append, List.not_mem_nil, or_false] at hb
    obtain rfl | hb | rfl | rfl := hb
    · exact .inl ⟨body, by simp [Stmt.ownBlocks], around, mb, hbody⟩
    · exact (exists_of_mem_handlerBodies_tailored handlers hhandlers hb).mono fun ss hss => by
        simp [Stmt.ownBlocks, hss]
    · exact .inl ⟨orelse, by simp [Stmt.ownBlocks], around, mo, horelse⟩
    · exact .inl ⟨finalbody, by simp [Stmt.ownBlocks], around, mf, hfinal⟩
  | select info subject cases =>
    rw [tailor_select hf] at h
    obtain ⟨cases', hcases, rfl⟩ := Traced.bind_pure_yields_iff.1 h
    exact ⟨_, rfl, rfl, rfl, fun block hb => exists_of_mem_caseBodies_tailored cases hcases hb⟩

/-- Of a statement for the other variant nothing is left when the tree is tidied. -/
theorem tidyStmts_of_other {s : Stmt} {ns : List Note} {out : List Stmt} (hf : s.isFor c.variant.other = true)
    (h : (c.tailor load around s).Yields ns out) : tidyStmts out = [] := by
  rw [tailor_of_other hf] at h
  cases h
  rw [tidyStmts_eq]
  cases s.isDeclaration <;> rfl

/-- What is left of a list: what is made of each item that is not for the other variant, in the same order. -/
theorem makes_each (hload : c.LoaderOf lib load) {ss out : List Stmt} {ns : List Note}
    (he : ∀ s ∈ ss, s.isErased = false) (h : (c.tailorStmts load around ss).Yields ns out) :
    List.Forall₂ (c.Makes lib) (ss.filter fun s => !s.isFor c.variant.other) (tidyStmts out) := by
  induction ss generalizing ns out with
  | nil =>
    obtain ⟨rfl, rfl⟩ := Traced.pure_yields_iff.1 h
    exact .nil
  | cons s ss ih =>
    obtain ⟨ms, first, ks, rest, hfirst, hrest, rfl, rfl⟩ := Traced.bind_bind_pure_yields_iff.1 h
    have ih := ih (fun t ht => he t (List.mem_cons_of_mem _ ht)) hrest
    rw [tidyStmts_append]
    cases hf : s.isFor c.variant.other with
    | true =>
      rw [List.filter_cons_of_neg (by simp [hf]), tidyStmts_of_other hf hfirst]
      exact ih
    | false =>
      obtain ⟨u, rfl, hu, -, -⟩ := exists_tailored_own (he s (List.mem_cons_self ..)) hf hfirst
      have htidy : tidyStmts [u] = [u.tidy] := by simp [tidyStmts_eq, hu]
      rw [List.filter_cons_of_pos (by simp [hf]), htidy]
      exact .cons ⟨load, around, ms, u, hload, hfirst, hu, rfl⟩ ih

section

variable {α β : Type} {r : α → β → Prop}

theorem rel_getLast? {xs : List α} {ys : List β} (h : List.Forall₂ r xs ys) :
    Option.Rel r xs.getLast? ys.getLast? := by
  have hlast := List.rel_reverse h
  rw [List.getLast?_eq_head?_reverse, List.getLast?_eq_head?_reverse]
  generalize xs.reverse = xs, ys.reverse = ys at hlast
  cases hlast with
  | nil => exact .none
  | cons hxy _ => exact .some hxy

theorem exists_split {xs : List α} {ys ys' : List β} {y : β} (h : List.Forall₂ r xs (ys ++ y :: ys')) :
    ∃ as x as', xs = as ++ x :: as' ∧ r x y ∧ List.Forall₂ r as ys := by
  obtain ⟨x, as', hx, -, hdrop⟩ := List.forall₂_cons_right_iff.1 (List.forall₂_drop_append _ _ _ h)
  refine ⟨xs.take ys.length, x, as', ?_, hx, List.forall₂_take_append _ _ _ h⟩
  rw [← hdrop, List.take_append_drop]

/-- What splits a list with more at its end splits the list, if it is not in what is more. -/
theorem exists_eq_append_cons {xs ys as more : List α} {a : α} (h : xs ++ a :: ys = as ++ more) (ha : a ∉ more) :
    ∃ rest, as = xs ++ a :: rest := by
  obtain ⟨bs, rfl, hbs⟩ | ⟨bs, -, rfl⟩ := List.append_eq_append_iff.1 h
  · cases bs with
    | nil =>
      rw [List.nil_append] at hbs
      exact absurd (hbs ▸ List.mem_cons_self ..) ha
    | cons b bs =>
      rw [List.cons_append, List.cons.injEq] at hbs
      exact ⟨bs, by rw [hbs.1]⟩
  · exact absurd (by simp) ha

end

theorem not_isFor_of_makes {s t : Stmt} (h : c.Makes lib s t) : s.isFor c.variant.other = false := by
  obtain ⟨load, around, ns, u, -, hu, hue, -⟩ := h
  cases hf : s.isFor c.variant.other with
  | true =>
    have hnone : tidyStmts [u] = [] := tidyStmts_of_other hf hu
    simp [tidyStmts_eq, hue] at hnone
  | false => rfl

theorem asComment?_of_makes {s t : Stmt} (h : c.Makes lib s t) : t.asComment? = s.asComment? := by
  have hf := not_isFor_of_makes h
  obtain ⟨load, around, ns, u, -, hu, -, rfl⟩ := h
  rw [Stmt.asComment?_tidy]
  cases s with
  | simple info what =>
    rw [tailor_simple hf] at hu
    obtain ⟨-, hu⟩ := Traced.pure_yields_iff.1 hu
    rw [List.singleton_inj.1 hu]
    rfl
  | _ =>
    obtain ⟨u', hu', -, hc, -⟩ := exists_tailored_own rfl hf hu
    rwa [List.singleton_inj.1 hu']

theorem eq_of_makes_comment {s : Stmt} {k : Comment} (h : c.Makes lib s (.comment k)) : s = .comment k :=
  Stmt.eq_comment_of_asComment? (asComment?_of_makes h).symm

theorem rel_companion? {ss out : List Stmt} (h : List.Forall₂ (c.Makes lib) ss out) :
    Option.Rel (c.Makes lib) (companion? ss) (companion? out) := by
  have hfilter : List.Forall₂ (c.Makes lib) (ss.filter fun s => !s.isInlineComment)
      (out.filter fun s => !s.isInlineComment) := by
    refine List.rel_filter (fun s t hst => ?_) h
    simp [Stmt.isInlineComment, asComment?_of_makes hst]
  exact rel_getLast? hfilter

/-- A comment in the one list is in the other, and what is made of the items before it stands before it. -/
theorem exists_before {kept : Stmt → Bool} {ss before' after' : List Stmt} {k : Comment}
    (h : List.Forall₂ (c.Makes lib) (ss.filter kept) (before' ++ .comment k :: after')) :
    ∃ before after, ss = before ++ .comment k :: after ∧ List.Forall₂ (c.Makes lib) (before.filter kept) before' := by
  obtain ⟨xs, s, xs', hsplit, hs, hbefore⟩ := exists_split h
  obtain rfl := eq_of_makes_comment hs
  obtain ⟨first, second, rfl, rfl, hsecond⟩ := List.filter_eq_append_iff.1 hsplit
  obtain ⟨gone, after, rfl, hgone, -, -⟩ := List.filter_eq_cons_iff.1 hsecond
  refine ⟨first ++ gone, after, by simp, ?_⟩
  rwa [List.filter_append, List.filter_eq_nil_iff.2 hgone, List.append_nil]

/-- A list of the converted tree: what is left of one of the annotated lists. -/
def Left (c : Conversion) (lib : Option Library) (root out : List Stmt) : Prop :=
  ∃ ss load around ns left, ListIn (FileOf lib) root ss ∧ (∃ outer, stmtsObey .attached outer ss) ∧
    c.LoaderOf lib load ∧ (c.tailorStmts load around ss).Yields ns left ∧ Tidied left out

theorem isErased_of_stmtsObey {outer : Bool} {ss : List Stmt} (h : stmtsObey .attached outer ss) {s : Stmt}
    (hs : s ∈ ss) : s.isErased = false := by
  have hs := stmtsObey_iff.1 h s hs
  cases s with
  | simple info what => exact Stmt.isErased_eq_false_iff.2 hs.1
  | _ => rfl

/-- What is read for a module is one of the files. -/
theorem left_of_load {root out left : List Stmt} (hload : c.LoaderOf lib load) {name : String}
    {explicit : Option String} {line : Option Nat} {ns : List Note}
    (h : (load around name explicit line).Yields ns left) (ht : Tidied left out) : c.Left lib root out := by
  cases hload with
  | none => exact absurd h (Traced.not_fail_yields _)
  | some lib depth =>
    cases depth with
    | zero => exact absurd h (Traced.not_fail_yields _)
    | succ depth =>
      obtain ⟨path, chain, loaded, ks, hloaded, htailor, -⟩ := exists_loaded_of_fromLibrary h
      exact ⟨loaded, _, _, ks, left, .file ⟨lib, path, name, rfl, hloaded⟩, ⟨true, Library.load_obeys hloaded⟩,
        .some lib depth, htailor, ht⟩

/-- The lists in what is left of an annotated list are left of annotated lists. -/
theorem left_inner {root out block : List Stmt} (h : c.Left lib root out) {t : Stmt} (ht : t ∈ out)
    (hb : block ∈ t.ownBlocks) : c.Left lib root block := by
  obtain ⟨ss, load, around, ns, left, hss, ⟨outer, hobeys⟩, hload, htailor, hout⟩ := h
  obtain ⟨more, rfl, hmore⟩ := hout.exists_append
  obtain ht | ht := List.mem_append.1 ht
  · obtain ⟨as, bs, hsplit⟩ := List.append_of_mem ht
    have heach := makes_each hload (fun s hs => isErased_of_stmtsObey hobeys hs) htailor
    rw [hsplit] at heach
    obtain ⟨xs, s, xs', hxs, ⟨load, around, ns, u, hload, hu, -, rfl⟩, -⟩ := exists_split heach
    have hs : s ∈ ss.filter fun s => !s.isFor c.variant.other := by
      rw [hxs]
      exact List.mem_append_right _ (List.mem_cons_self ..)
    obtain ⟨hs, hf⟩ := List.mem_filter.1 hs
    obtain ⟨u', hu', -, -, hblocks⟩ := exists_tailored_own (isErased_of_stmtsObey hobeys hs) (by simpa using hf) hu
    obtain rfl := List.singleton_inj.1 hu'
    obtain ⟨left, hleft, ht⟩ := exists_of_mem_ownBlocks_tidy hb
    obtain ⟨inner, hinner, around, ms, hms⟩ | ⟨around, name, explicit, line, ms, hms⟩ := hblocks left hleft
    · exact ⟨inner, load, around, ms, left, .inner hss hs hinner,
        obeys_ownBlocks (stmtsObey_iff.1 hobeys s hs) hinner, hload, hms, ht⟩
    · exact left_of_load hload hms ht
  · rw [(hmore t ht).2] at hb
    cases hb

theorem left_of_listIn {root root' out : List Stmt} (hroot : c.Left lib root root')
    (h : ListIn (fun _ => False) root' out) : c.Left lib root out := by
  induction h with
  | root => exact hroot
  | file h => exact h.elim
  | inner _ hs hb ih => exact left_inner ih hs hb

theorem left_body {origin : Option FilePath} {file source : String} {t t' : Tree}
    (hread : readSource file source = .ok t.body) (h : (c.convert lib origin t).result = .ok t') :
    c.Left lib t.body t'.body := by
  obtain ⟨around, left, htailor, rfl⟩ := exists_tailored_of_convert (Traced.yields_of_result h)
  refine ⟨t.body, _, around, _, left, .root, ⟨true, readSource_obeys hread⟩, loaderOf_loader c lib, htailor, ?_⟩
  simpa using (t.withBody left).tidied_finalize

/-- An inline comment of a converted tree stands with what has been made of the last item before it, in the list that it
is from, that is not for the other variant and no inline comment itself. -/
theorem inline_comments_follow (c : Conversion) (lib : Option Library) (origin : Option FilePath) (file source : String)
    (t t' : Tree) (hread : readSource file source = .ok t.body) (h : (c.convert lib origin t).result = .ok t') :
    c.InlineFollow lib (fun s => !s.isFor c.variant.other) t t' := by
  intro out hout before' k after' hsplit hk
  obtain ⟨ss, load, around, ns, left, hss, ⟨outer, hobeys⟩, hload, htailor, ht⟩ :=
    left_of_listIn (left_body hread h) hout
  obtain ⟨more, hmore, hnone⟩ := ht.exists_append
  have heach := makes_each hload (fun s hs => isErased_of_stmtsObey hobeys hs) htailor
  -- The comment is not what is added at the end.
  have hadded : Stmt.comment k ∉ more := fun hmem => by cases (hnone _ hmem).1
  obtain ⟨rest, hrest⟩ := exists_eq_append_cons (hsplit.symm.trans hmore) hadded
  rw [hrest] at heach
  obtain ⟨before, after, rfl, hbefore⟩ := exists_before heach
  exact ⟨_, before, after, hss, rfl, rel_companion? hbefore⟩

/-- The note is about `b`, which is for the other variant. -/
def noteAfterOther : String := "a\n# amphi: blocking\nb  # note\n"

def noteAfterOtherBody : List Stmt :=
  [.simple ⟨⟨some 1, some 0, some 1, some 1⟩, []⟩ (.expr (.name "a" .load)),
   .simple ⟨⟨some 3, some 0, some 3, some 1⟩, [⟨"amphi", "blocking", 2⟩]⟩ (.expr (.name "b" .load)),
   .comment ⟨"# note", true, ⟨some 3, some 3, some 3, some 9⟩⟩]

/-- The note is about `a`. -/
def noteAfterOtherLeft : List Stmt :=
  [.simple ⟨⟨some 1, some 0, some 1, some 1⟩, []⟩ (.expr (.name "a" .load)),
   .comment ⟨"# note", true, ⟨some 3, some 3, some 3, some 9⟩⟩]

/-- The text before its comments are put in. -/
def noteAfterOtherParsed : List Stmt :=
  [.simple ⟨⟨some 1, some 0, some 1, some 1⟩, []⟩ (.expr (.name "a" .load)),
   .simple ⟨⟨some 3, some 0, some 3, some 1⟩, []⟩ (.expr (.name "b" .load))]

def noteAfterOtherRemarks : List Comment :=
  [⟨"# amphi: blocking", false, ⟨some 2, some 0, some 2, some 17⟩⟩,
   ⟨"# note", true, ⟨some 3, some 3, some 3, some 9⟩⟩]

/-- The text before its directive takes effect. -/
def noteAfterOtherRead : List Stmt :=
  noteAfterOtherParsed.take 1 ++ (noteAfterOtherRemarks.take 1).map .comment ++ noteAfterOtherParsed.drop 1 ++
    (noteAfterOtherRemarks.drop 1).map .comment

set_option maxRecDepth 4096 in
theorem readSource_noteAfterOther : readSource "a.py" noteAfterOther = .ok noteAfterOtherBody := by
  have hparse : Grammar.parse noteAfterOther.toList = some noteAfterOtherParsed := by decide +kernel
  have hscan : Comments.scan noteAfterOther.toList = .ok noteAfterOtherRemarks := by decide +kernel
  have hattach : Comments.attach noteAfterOther.toList noteAfterOtherRemarks noteAfterOtherParsed =
      .ok noteAfterOtherRead := by cbv
  exact readSource_of_readAnnotated (readAnnotated_of_parse _ (by decide) hparse hscan hattach) (by decide +kernel)

theorem convert_noteAfterOther :
    ((⟨.asynchronous, "a", none⟩ : Conversion).convert none none (.file noteAfterOtherBody)).result =
      .ok (.file noteAfterOtherLeft) := rfl

theorem inline_comments_follow_noteAfterOther :
    readSource "a.py" noteAfterOther = .ok (Tree.file noteAfterOtherBody).body ∧
    ((⟨.asynchronous, "a", none⟩ : Conversion).convert none none (.file noteAfterOtherBody)).result =
      .ok (.file noteAfterOtherLeft) ∧
    (⟨.asynchronous, "a", none⟩ : Conversion).InlineFollow none (fun s => !s.isFor .blocking)
      (.file noteAfterOtherBody) (.file noteAfterOtherLeft) :=
  ⟨readSource_noteAfterOther, convert_noteAfterOther,
    inline_comments_follow ⟨.asynchronous, "a", none⟩ none none "a.py" noteAfterOther (.file noteAfterOtherBody)
      (.file noteAfterOtherLeft) readSource_noteAfterOther convert_noteAfterOther⟩

/-- In a list of statements without blocks there are no other lists. -/
theorem eq_root_of_listIn {files : List Stmt → Prop} {root ss : List Stmt} (hfiles : ∀ body, ¬ files body)
    (hroot : ∀ s ∈ root, s.ownBlocks = []) (h : ListIn files root ss) : ss = root := by
  induction h with
  | root => rfl
  | file h => exact absurd h (hfiles _)
  | inner _ hs hb ih =>
    subst ih
    rw [hroot _ hs] at hb
    cases hb

/-- Inline comments do not stay with the statements that they are about: they are kept where these are not. -/
theorem not_inline_comments_stay :
    ¬ ∀ (c : Conversion) (lib : Option Library) (origin : Option FilePath) (file source : String) (t t' : Tree),
      readSource file source = .ok t.body → (c.convert lib origin t).result = .ok t' →
        c.InlineFollow lib (fun _ => true) t t' := by
  intro h
  obtain ⟨ss, before, after, hss, hsplit, hrel⟩ :=
    h ⟨.asynchronous, "a", none⟩ none none "a.py" noteAfterOther (.file noteAfterOtherBody) (.file noteAfterOtherLeft)
      readSource_noteAfterOther convert_noteAfterOther noteAfterOtherLeft .root (noteAfterOtherLeft.take 1)
      ⟨"# note", true, ⟨some 3, some 3, some 3, some 9⟩⟩ [] rfl rfl
  obtain rfl : ss = noteAfterOtherBody :=
    eq_root_of_listIn (fun _ ⟨_, _, _, hnone, _⟩ => by cases hnone) (by simp [noteAfterOtherBody, Stmt.ownBlocks]) hss
  have hbefore : before = noteAfterOtherBody.take 2 := by
    obtain _ | ⟨x, _ | ⟨y, _ | ⟨z, rest⟩⟩⟩ := before <;> simp [noteAfterOtherBody] at hsplit ⊢
    exact ⟨hsplit.1.symm, hsplit.2.1.symm⟩
  subst hbefore
  cases hrel with
  | some hmakes => exact absurd (not_isFor_of_makes hmakes) (by decide)

end Conversion

end TwinModule
