import TwinModule.Proofs.Conversion.Tailor
import TwinModule.Proofs.Tree.Alike
/-!
A conversion that succeeds does so again, with the same result, where everything it found can still be found: with
fewer files being read around it, in a library that has grown, and with other statements that give what those in their
place gave.
-/
set_option autoImplicit false

namespace TwinModule

/-- The same modules around, and no other files being read around. -/
structure Surroundings.Within (a b : Surroundings) : Prop where
  modulePath : a.modulePath = b.modulePath
  files : ∀ e ∈ a.chain, e.1 ∈ b.chain.map Prod.fst

theorem Surroundings.Within.inside {a b : Surroundings} (h : a.Within b) (name : String) :
    Surroundings.Within { a with modulePath := a.modulePath ++ [name] }
      { b with modulePath := b.modulePath ++ [name] } :=
  ⟨congrArg (· ++ [name]) h.modulePath, h.files⟩

namespace Library

theorem enter_within {store store' : Store} {chain chain' longer : Chain} {path : FilePath} {name : String}
    (name' : String)
    (hreal : ∀ real, store.realPath path = .ok real → store'.realPath path = .ok real)
    (hfiles : ∀ e ∈ chain', e.1 ∈ chain.map Prod.fst) (h : enter store chain path name = .ok longer) :
    ∃ longer', enter store' chain' path name' = .ok longer' ∧ ∀ e ∈ longer', e.1 ∈ longer.map Prod.fst := by
  obtain ⟨real, hpath, hnone, rfl⟩ := enter_eq_ok h
  have hnone' : chain'.lookup real = none := by
    rw [List.lookup_eq_none_iff] at hnone ⊢
    intro e he
    obtain ⟨e', he', heq⟩ := List.mem_map.1 (hfiles e he)
    exact heq ▸ hnone e' he'
  refine ⟨chain' ++ [(real, name')], by simp only [enter, hreal real hpath, hnone'], fun e he => ?_⟩
  rw [List.map_append, List.mem_append]
  rcases List.mem_append.1 he with he | he
  · exact .inl (hfiles e he)
  · rw [List.mem_singleton.1 he]
    exact .inr (List.mem_singleton_self real)

end Library

namespace Conversion

open Traced

/-- What the first loader gives, with notes of a kind, the second one gives too. -/
def Loader.Extends (p : Note → Prop) (load load' : Loader) : Prop :=
  ∀ around around' name explicit line ns body, around'.Within around → (∀ n ∈ ns, p n) →
    (load around name explicit line).Yields ns body → (load' around' name explicit line).result = .ok body

variable {c : Conversion} {p : Note → Prop} {load load' : Loader} {r : List String → Stmt → Stmt → Prop}

/-- A related statement gives, with the second loader, what the statement gives with the first one. -/
def Replaces (c : Conversion) (p : Note → Prop) (load load' : Loader) (r : List String → Stmt → Stmt → Prop) : Prop :=
  ∀ around around' s s' ns out, r around.modulePath s s' → around'.Within around → (∀ n ∈ ns, p n) →
    (c.tailor load around s).Yields ns out → (c.tailor load' around' s').result = .ok out

variable {around around' : Surroundings} {ns : List Note}

/-- Statements that have the same tags and leave the same are for the other variant, or not, together. -/
theorem result_of_own {s s' : Stmt} {out : List Stmt} (h : (c.tailor load around s).Yields ns out)
    (htags : s'.tags = s.tags) (hspan : s'.span = s.span) (hdeclaration : s'.isDeclaration = s.isDeclaration)
    (hown : s.tags.any (Tag.names c.variant.other) = false → (c.tailor load' around' s').result = .ok out) :
    (c.tailor load' around' s').result = .ok out := by
  cases hf : s.tags.any (Tag.names c.variant.other) with
  | false => exact hown hf
  | true =>
    have hf' : s'.isFor c.variant.other = true := by
      rw [Stmt.isFor, htags]
      exact hf
    rw [← h.result, tailor_of_other hf, tailor_of_other hf', leave_result, leave_result, hspan, hdeclaration]

theorem result_module (hl : Loader.Extends p load load') (haround : around'.Within around) {info : Info} {name : String}
    {body body' out : List Stmt} (hf : info.tags.any (Tag.names c.variant.other) = false)
    (hinline : isInline body' = isInline body) (hp : ∀ n ∈ ns, p n)
    (ih : ∀ ms inner, (∀ n ∈ ms, p n) →
      (c.tailorStmts load { around with modulePath := around.modulePath ++ [name] } body).Yields ms inner →
      (c.tailorStmts load' { around' with modulePath := around'.modulePath ++ [name] } body').result = .ok inner)
    (h : (c.tailor load around (.block info (.module_ name) body)).Yields ns out) :
    (c.tailor load' around' (.block info (.module_ name) body')).result = .ok out := by
  simp only [tailor, keptTags_of_own hf, hinline] at h ⊢
  cases hin : isInline body with
  | false =>
    rw [hin, if_neg Bool.false_ne_true] at h
    rw [if_neg Bool.false_ne_true]
    obtain ⟨inner, hload, rfl⟩ := bind_pure_yields_iff.1 h
    rw [bind_result, hl _ _ _ _ _ _ _ (haround.inside name) hp hload]
    rfl
  | true =>
    rw [hin, if_pos rfl] at h
    rw [if_pos rfl]
    split at h
    · exact absurd h (not_fail_yields _)
    · obtain ⟨inner, hbody, rfl⟩ := bind_pure_yields_iff.1 h
      rw [bind_result, ih ns inner hp hbody]
      rfl

theorem result_block (hl : Loader.Extends p load load') (haround : around'.Within around) {info : Info}
    {head : BlockHead} {body body' out : List Stmt} (hinline : isInline body' = isInline body) (hp : ∀ n ∈ ns, p n)
    (ih : ∀ (a a' : Surroundings) ms inner, a.modulePath = head.inside around.modulePath → a'.Within a →
      (∀ n ∈ ms, p n) → (c.tailorStmts load a body).Yields ms inner →
      (c.tailorStmts load' a' body').result = .ok inner)
    (h : (c.tailor load around (.block info head body)).Yields ns out) :
    (c.tailor load' around' (.block info head body')).result = .ok out := by
  refine result_of_own h rfl rfl (by cases head <;> rfl) fun hf => ?_
  cases head with
  | module_ name =>
    exact result_module hl haround hf hinline hp (fun ms inner => ih _ _ ms inner rfl (haround.inside name)) h
  | _ =>
    rw [tailor_block hf rfl] at h ⊢
    obtain ⟨inner, hbody, rfl⟩ := bind_pure_yields_iff.1 h
    rw [bind_result, ih around around' ns inner rfl haround hp hbody]
    rfl

mutual

theorem result_of_alike (hl : Loader.Extends p load load') (hr : KeepsReal r) (hs : c.Replaces p load load' r)
    {around around' : Surroundings} {ns : List Note} {out : List Stmt} (haround : around'.Within around)
    (hp : ∀ n ∈ ns, p n) : (s s' : Stmt) → s.Alike r around.modulePath s' →
    (c.tailor load around s).Yields ns out → (c.tailor load' around' s').result = .ok out
  | .simple info what, s', h, hy => by
    rcases h with h | rfl
    · exact hs around around' _ _ ns out h haround hp hy
    · rw [← hy.result]
      simp only [tailor]
  | .comment k, s', h, hy => by
    rcases h with h | rfl
    · exact hs around around' _ _ ns out h haround hp hy
    · rw [← hy.result]
      rfl
  | .block info head body, s', h, hy => by
    rcases h with h | ⟨body', hb, rfl⟩
    · exact hs around around' _ _ ns out h haround hp hy
    · refine result_block hl haround (isInline_eq_of_alike hr hb) hp (fun a a' ms inner ha ha' hms hbody => ?_) hy
      exact tailorStmts_result_of_alike hl hr hs ha' hms body body' (ha ▸ hb) hbody
  | .branch info head body orelse, s', h, hy => by
    rcases h with h | ⟨body', orelse', hb, ho, rfl⟩
    · exact hs around around' _ _ ns out h haround hp hy
    · refine result_of_own hy rfl rfl rfl fun hf => ?_
      rw [tailor_branch hf] at hy ⊢
      obtain ⟨ms, _, ks, _, hbody, horelse, rfl, rfl⟩ := bind_bind_pure_yields_iff.1 hy
      obtain ⟨hms, hks⟩ := List.forall_mem_append.1 hp
      simp only [bind_result, tailorStmts_result_of_alike hl hr hs haround hms body body' hb hbody,
        tailorStmts_result_of_alike hl hr hs haround hks orelse orelse' ho horelse]
      rfl
  | .attempt info isGroup body handlers orelse finalbody, s', h, hy => by
    rcases h with h | ⟨body', handlers', orelse', finalbody', hb, hh, ho, hf, rfl⟩
    · exact hs around around' _ _ ns out h haround hp hy
    · refine result_of_own hy rfl rfl rfl fun hown => ?_
      obtain ⟨mb, _, mh, _, mo, _, mf, _, hbody, hhandlers, horelse, hfinal, rfl, rfl⟩ := exists_tailored_attempt hown hy
      simp only [List.forall_mem_append] at hp
      obtain ⟨hmb, hmh, hmo, hmf⟩ := hp
      rw [tailor_attempt hown]
      simp only [bind_result, tailorStmts_result_of_alike hl hr hs haround hmb body body' hb hbody,
        tailorHandlers_result_of_alike hl hr hs haround hmh handlers handlers' hh hhandlers,
        tailorStmts_result_of_alike hl hr hs haround hmo orelse orelse' ho horelse,
        tailorStmts_result_of_alike hl hr hs haround hmf finalbody finalbody' hf hfinal]
      rfl
  | .select info subject cases, s', h, hy => by
    rcases h with h | ⟨cases', hc, rfl⟩
    · exact hs around around' _ _ ns out h haround hp hy
    · refine result_of_own hy rfl rfl rfl fun hf => ?_
      rw [tailor_select hf] at hy ⊢
      obtain ⟨inner, hcases, rfl⟩ := bind_pure_yields_iff.1 hy
      rw [bind_result, tailorCases_result_of_alike hl hr hs haround hp cases cases' hc hcases]
      rfl
termination_by structural s => s

theorem tailorStmts_result_of_alike (hl : Loader.Extends p load load') (hr : KeepsReal r)
    (hs : c.Replaces p load load' r) {around around' : Surroundings} {ns : List Note} {out : List Stmt}
    (haround : around'.Within around) (hp : ∀ n ∈ ns, p n) : (ss ss' : List Stmt) →
    stmtsAlike r around.modulePath ss ss' → (c.tailorStmts load around ss).Yields ns out →
    (c.tailorStmts load' around' ss').result = .ok out
  | [], ss', h, hy => by
    rw [show ss' = [] from h, ← hy.result]
    rfl
  | s :: ss, ss', h, hy => by
    obtain ⟨s', rest, hfirst, hrest, rfl⟩ := h
    obtain ⟨ms, _, ks, _, hyfirst, hyrest, rfl, rfl⟩ := bind_bind_pure_yields_iff.1 hy
    obtain ⟨hms, hks⟩ := List.forall_mem_append.1 hp
    simp only [tailorStmts, bind_result, result_of_alike hl hr hs haround hms s s' hfirst hyfirst,
      tailorStmts_result_of_alike hl hr hs haround hks ss rest hrest hyrest]
    rfl
termination_by structural ss => ss

theorem tailorHandlers_result_of_alike (hl : Loader.Extends p load load') (hr : KeepsReal r)
    (ht : c.Replaces p load load' r) {around around' : Surroundings} {ns : List Note} {out : List Handler}
    (haround : around'.Within around) (hp : ∀ n ∈ ns, p n) : (hs hs' : List Handler) →
    handlersAlike r around.modulePath hs hs' → (c.tailorHandlers load around hs).Yields ns out →
    (c.tailorHandlers load' around' hs').result = .ok out
  | [], hs', h, hy => by
    rw [show hs' = [] from h, ← hy.result]
    rfl
  | .comment k :: hs, hs', h, hy => by
    obtain ⟨rest, hrest, rfl⟩ := h
    obtain ⟨_, hyrest, rfl⟩ := bind_pure_yields_iff.1 hy
    simp only [tailorHandlers, bind_result, tailorHandlers_result_of_alike hl hr ht haround hp hs rest hrest hyrest]
    rfl
  | .handler span type name body :: hs, hs', h, hy => by
    obtain ⟨body', rest, hb, hrest, rfl⟩ := h
    obtain ⟨ms, _, ks, _, hybody, hyrest, rfl, rfl⟩ := bind_bind_pure_yields_iff.1 hy
    obtain ⟨hms, hks⟩ := List.forall_mem_append.1 hp
    simp only [tailorHandlers, bind_result, tailorStmts_result_of_alike hl hr ht haround hms body body' hb hybody,
      tailorHandlers_result_of_alike hl hr ht haround hks hs rest hrest hyrest]
    rfl
termination_by structural hs => hs

theorem tailorCases_result_of_alike (hl : Loader.Extends p load load') (hr : KeepsReal r)
    (hs : c.Replaces p load load' r) {around around' : Surroundings} {ns : List Note} {out : List Case}
    (haround : around'.Within around) (hp : ∀ n ∈ ns, p n) : (cs cs' : List Case) →
    casesAlike r around.modulePath cs cs' → (c.tailorCases load around cs).Yields ns out →
    (c.tailorCases load' around' cs').result = .ok out
  | [], cs', h, hy => by
    rw [show cs' = [] from h, ← hy.result]
    rfl
  | .comment k :: cs, cs', h, hy => by
    obtain ⟨rest, hrest, rfl⟩ := h
    obtain ⟨_, hyrest, rfl⟩ := bind_pure_yields_iff.1 hy
    simp only [tailorCases, bind_result, tailorCases_result_of_alike hl hr hs haround hp cs rest hrest hyrest]
    rfl
  | .case lines pattern guard body :: cs, cs', h, hy => by
    obtain ⟨body', rest, hb, hrest, rfl⟩ := h
    obtain ⟨ms, _, ks, _, hybody, hyrest, rfl, rfl⟩ := bind_bind_pure_yields_iff.1 hy
    obtain ⟨hms, hks⟩ := List.forall_mem_append.1 hp
    simp only [tailorCases, bind_result, tailorStmts_result_of_alike hl hr hs haround hms body body' hb hybody,
      tailorCases_result_of_alike hl hr hs haround hks cs rest hrest hyrest]
    rfl
termination_by structural cs => cs

end

end Conversion

/-- What was found in the first library, with notes of a kind, is found in the second one too, and reads the same. -/
structure Library.Keeps (p : Note → Prop) (lib lib' : Library) : Prop where
  locate : ∀ names explicit path, p (.resolved names path) → lib.locate names explicit = .ok path →
    lib'.locate names explicit = .ok path
  realPath : ∀ names path real, p (.resolved names path) → lib.store.realPath path = .ok real →
    lib'.store.realPath path = .ok real
  load : ∀ names path name body, p (.resolved names path) → Library.load lib.store path name = .ok body →
    Library.load lib'.store path name = .ok body

theorem Library.Keeps.refl (p : Note → Prop) (lib : Library) : lib.Keeps p lib :=
  ⟨fun _ _ _ _ h => h, fun _ _ _ _ h => h, fun _ _ _ _ _ h => h⟩

namespace Conversion

variable {c : Conversion} {p : Note → Prop}

/-- No statement at all is related. -/
def Unrelated (_ : List String) (_ _ : Stmt) : Prop := False

theorem keepsReal_unrelated : KeepsReal Unrelated := fun _ _ _ h => h.elim

theorem tailorStmts_result_of_extends {load load' : Loader} {around around' : Surroundings} {ss out : List Stmt}
    {ns : List Note} (hl : Loader.Extends p load load') (haround : around'.Within around) (hp : ∀ n ∈ ns, p n)
    (h : (c.tailorStmts load around ss).Yields ns out) : (c.tailorStmts load' around' ss).result = .ok out :=
  tailorStmts_result_of_alike hl keepsReal_unrelated (fun _ _ _ _ _ _ h => h.elim) haround hp ss ss
    (stmtsAlike_refl _ ss) h

/-- A library that keeps what was found, read to the same depth or deeper, gives what was given. -/
theorem extends_fromLibrary {lib lib' : Library} (hkeeps : lib.Keeps p lib') {depth depth' : Nat}
    (hdepth : depth ≤ depth') : Loader.Extends p (c.fromLibrary lib depth) (c.fromLibrary lib' depth') := by
  induction depth generalizing depth' with
  | zero =>
    intro around around' name explicit line ns body _ _ h
    exact absurd h (Traced.not_fail_yields _)
  | succ depth ih =>
    intro around around' name explicit line ns body haround hp h
    obtain ⟨deeper, rfl⟩ : ∃ deeper, depth' = deeper + 1 := ⟨depth' - 1, by omega⟩
    obtain ⟨path, chain, loaded, ks, hpath, hchain, hload, hbody, rfl⟩ := fromLibrary_yields_iff.1 h
    obtain ⟨hresolved, hks⟩ := List.forall_mem_cons.1 hp
    obtain ⟨chain', hchain', hfiles⟩ :=
      Library.enter_within name (fun real => hkeeps.realPath _ path real hresolved) haround.files hchain
    have hinside : Surroundings.Within ⟨around'.modulePath, some path.text, chain'⟩
        ⟨around.modulePath, some path.text, chain⟩ := ⟨haround.modulePath, hfiles⟩
    have hresult := tailorStmts_result_of_extends (ih (by omega : depth ≤ deeper)) hinside hks hbody
    have hpath' : lib'.locate around'.modulePath explicit = .ok path := by
      rw [haround.modulePath]
      exact hkeeps.locate _ explicit path hresolved hpath
    exact (fromLibrary_yields_iff.2 ⟨path, chain', loaded, _, hpath', hchain',
      hkeeps.load _ path name loaded hresolved hload, Traced.yields_of_result hresult, rfl⟩).result

/-- A conversion that succeeds does so again, with the same tree, in a library that keeps what was found. -/
theorem convert_result_of_keeps {lib lib' : Library} {origin : FilePath} {t u : Tree} {ns : List Note}
    (hkeeps : lib.Keeps p lib') (hsize : lib.store.entries.length ≤ lib'.store.entries.length)
    (horigin : ∀ real, lib.store.realPath origin = .ok real → lib'.store.realPath origin = .ok real)
    (hp : ∀ n ∈ ns, p n) (h : (c.convert (some lib) (some origin) t).Yields ns u) :
    (c.convert (some lib') (some origin) t).result = .ok u := by
  obtain ⟨chain, body, hchain, hbody, rfl⟩ := convert_yields_iff.1 h
  have hextends : Loader.Extends p (c.loader (some lib)) (c.loader (some lib')) :=
    extends_fromLibrary hkeeps (Nat.succ_le_succ hsize)
  obtain ⟨chain', hchain', hfiles⟩ : ∃ chain', c.firstChain (some lib') (some origin) t = .ok chain' ∧
      ∀ e ∈ chain', e.1 ∈ chain.map Prod.fst := by
    cases t with
    | file body =>
      cases hchain
      exact ⟨[], rfl, by simp⟩
    | module_ info name body =>
      have henter : Library.enter lib.store [] origin c.rootName = .ok chain := hchain
      exact Library.enter_within c.rootName horigin (List.forall_mem_nil _) henter
  have hwithin : Surroundings.Within ⟨[c.rootName], some origin.text, chain'⟩ ⟨[c.rootName], some origin.text, chain⟩ :=
    ⟨rfl, hfiles⟩
  exact convert_result_of_tailorStmts hchain' (tailorStmts_result_of_extends hextends hwithin hp hbody)

/-- A conversion that succeeds gives the same tree when statements are replaced by others that give the same. -/
theorem convert_result_of_alike {r : List String → Stmt → Stmt → Prop} {lib lib' : Option Library}
    {origin : Option FilePath} {t t' u : Tree} {ns : List Note} (hr : KeepsReal r)
    (hl : Loader.Extends p (c.loader lib) (c.loader lib')) (ht : c.Replaces p (c.loader lib) (c.loader lib') r)
    (hfirst : ∀ chain, c.firstChain lib origin t = .ok chain →
      ∃ chain', c.firstChain lib' origin t' = .ok chain' ∧ ∀ e ∈ chain', e.1 ∈ chain.map Prod.fst)
    (hp : ∀ n ∈ ns, p n) (halike : t.Alike r [c.rootName] t') (h : (c.convert lib origin t).Yields ns u) :
    (c.convert lib' origin t').result = .ok u := by
  obtain ⟨chain, body, hchain, hbody, rfl⟩ := convert_yields_iff.1 h
  obtain ⟨chain', hfirst', hfiles⟩ := hfirst chain hchain
  obtain ⟨body', hss, rfl⟩ := halike
  have hwithin : Surroundings.Within ⟨[c.rootName], origin.map FilePath.text, chain'⟩
      ⟨[c.rootName], origin.map FilePath.text, chain⟩ := ⟨rfl, hfiles⟩
  have hresult : (c.tailorStmts (c.loader lib') ⟨[c.rootName], origin.map FilePath.text, chain'⟩
      (t.withBody body').body).result = .ok body := by
    rw [Tree.body_withBody]
    exact tailorStmts_result_of_alike hl hr ht hwithin hp t.body body' hss hbody
  rw [convert_result_of_tailorStmts hfirst' hresult, Tree.withBody_withBody]

end Conversion

end TwinModule
