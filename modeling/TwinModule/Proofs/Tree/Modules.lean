import TwinModule.Proofs.Conversion.Tailor
import TwinModule.Proofs.Directive.Attached
import TwinModule.Blocking
/-!
The modules in a tree by their names and lines. Modules stand only in modules, so that nothing else has to be looked
into. They come from directives, and converting keeps those that are there or fills in others from files.
-/
set_option autoImplicit false

namespace TwinModule

mutual

/-- Whether something holds of the name and the line of a module and of the modules in it, at every depth. -/
def Stmt.Modules (p : String → Option Nat → Prop) : Stmt → Prop
  | .block info (.module_ name) body => p name info.span.line ∧ stmtsModules p body
  | _ => True

def stmtsModules (p : String → Option Nat → Prop) : List Stmt → Prop
  | [] => True
  | s :: ss => s.Modules p ∧ stmtsModules p ss

end

variable {p : String → Option Nat → Prop}

theorem stmtsModules_iff {ss : List Stmt} : stmtsModules p ss ↔ ∀ s ∈ ss, s.Modules p := by
  induction ss with
  | nil => simp [stmtsModules]
  | cons s ss ih => simp [stmtsModules, ih]

@[simp] theorem stmtsModules_append (as bs : List Stmt) :
    stmtsModules p (as ++ bs) ↔ stmtsModules p as ∧ stmtsModules p bs := by
  simp only [stmtsModules_iff, List.forall_mem_append]

mutual

theorem Stmt.Modules.imp {q : String → Option Nat → Prop} (hpq : ∀ name line, p name line → q name line) :
    (s : Stmt) → s.Modules p → s.Modules q
  | .block _ (.module_ _) body, h => ⟨hpq _ _ h.1, stmtsModules_imp hpq body h.2⟩
  | .simple .., _ | .comment _, _ | .block _ (.function ..) _, _ | .block _ (.class_ ..) _, _
  | .block _ (.with_ ..) _, _ | .branch .., _ | .attempt .., _ | .select .., _ => trivial

theorem stmtsModules_imp {q : String → Option Nat → Prop} (hpq : ∀ name line, p name line → q name line) :
    (ss : List Stmt) → stmtsModules p ss → stmtsModules q ss
  | [], _ => trivial
  | s :: ss, h => ⟨h.1.imp hpq s, stmtsModules_imp hpq ss h.2⟩

end

theorem Stmt.modules_of_role {s : Stmt} (h : s.role ≠ .module_) : s.Modules p := by
  cases s with
  | block info head body =>
    cases head with
    | module_ name => exact absurd rfl h
    | _ => trivial
  | _ => trivial

theorem Stmt.modules_withTags {s : Stmt} (h : s.Modules p) (ts : List Tag) : (s.withTags ts).Modules p := by
  cases s with
  | block info head body => cases head <;> exact h
  | _ => trivial

def IsIdentifier (name : String) : Prop := Text.isIdentifier name.toList = true

/-- What is true of every module that is read from a text. -/
abbrev IsNamed (name : String) (_ : Option Nat) : Prop := IsIdentifier name

namespace Directive

theorem isIdentifier_of_moduleName {argument : List Char} {name : String} (h : moduleName argument = .ok name) :
    IsIdentifier name := by
  unfold moduleName at h
  split at h
  · rename_i hi
    cases h
    simpa [IsIdentifier] using hi
  · cases h

/-- A module is called by an identifier. -/
theorem isIdentifier_of_requestOf? {line : Nat} {family name : String} {argument : List Char} {request : Request}
    (h : requestOf? line family argument = .ok (some request))
    (hname : (Directive.mk line (String.ofList argument) request).moduleName? = some name) : IsIdentifier name := by
  simp only [requestOf?] at h
  repeat' split at h
  all_goals cases h
  -- Directives for variants and sources name no module.
  all_goals cases hname
  all_goals exact isIdentifier_of_moduleName ‹_›

theorem isIdentifier_of_ofComment? {line : Nat} {text name : String} {d : Directive}
    (h : ofComment? line text = .ok (some d)) (hname : d.moduleName? = some name) : IsIdentifier name := by
  simp only [ofComment?] at h
  split at h
  · cases h
  · split at h
    · cases h
    · rename_i request hr
      cases h
      exact isIdentifier_of_requestOf? hr hname
    · cases h

/-- A module is declared or begun by a comment of a text, on the line that the comment is on. -/
def DeclaredIn (source name : String) (line : Option Nat) : Prop :=
  ∃ c d, Comments.Scanned source c ∧ c.span.line = line ∧ ofComment? (c.span.line.getD 1) c.text = .ok (some d) ∧
    (d.request = .declare name ∨ d.request = .begin_ name)

theorem DeclaredIn.isNamed {source name : String} {line : Option Nat} (h : DeclaredIn source name line) :
    IsNamed name line := by
  obtain ⟨c, d, -, -, hd, hrequest⟩ := h
  refine isIdentifier_of_ofComment? hd ?_
  rcases hrequest with hrequest | hrequest <;> simp [moduleName?, hrequest]

/-- What is known of the modules that an item of a block is, or has in it. -/
def Item.Modules (p : String → Option Nat → Prop) : Item → Prop
  | .statement s => s.Modules p
  | .declare name place => p name place.line
  | .begin_ name line => p name (some line)
  | _ => True

/-- Where the inner blocks are done, the modules of a block come from its own comments. -/
theorem modules_of_ready {source : String} {s : Stmt} {i : Item} (h : Ready s)
    (hscanned : ∀ c, s = .comment c → Comments.Scanned source c) (hi : Item.of? s = some i) :
    i.Modules (DeclaredIn source) := by
  cases s with
  | comment c =>
    have hc := hscanned c rfl
    simp only [Item.of?] at hi
    split at hi
    · cases hi
      trivial
    · rename_i d hd
      cases hi
      have hof := ofComment?_of_inComment? hd
      obtain ⟨number, -, -, hline, -⟩ := hc.isOn
      have hdline : some d.line = c.span.line := by rw [ofComment?_line hof, hline, Option.getD_some]
      obtain ⟨line, argument, request⟩ := d
      cases request with
      | declare name => exact ⟨c, _, hc, rfl, hof, .inl rfl⟩
      | begin_ name => exact ⟨c, _, hc, hdline.symm, hof, .inr rfl⟩
      | _ => trivial
    · cases hi
  | _ =>
    simp only [Item.of?, Option.some.injEq] at hi
    subst hi
    exact Stmt.modules_of_role (by simp [(h rfl).1])

theorem modules_remarksOf (run : List Item) : stmtsModules p (remarksOf run) := by
  refine stmtsModules_iff.2 fun s hs => ?_
  obtain ⟨i, -, his⟩ := List.mem_filterMap.1 hs
  cases i with
  | remark c =>
    simp only [Item.remark?, Option.some.injEq] at his
    subst his
    trivial
  | _ => simp [Item.remark?] at his

theorem Derives.modules {w : List Item} {out : List Stmt} (h : Derives w out) (hw : ∀ i ∈ w, i.Modules p) :
    stmtsModules p out := by
  induction h with
  | nil => trivial
  | @remark c w out rest ih => exact ⟨trivial, ih fun i hi => hw i (by simp [hi])⟩
  | @statement run w s out lines noSource rest ih =>
    have hs : s.Modules p := hw (.statement s) (by simp)
    exact (stmtsModules_append ..).2
      ⟨modules_remarksOf run, Stmt.modules_withTags hs _, ih fun i hi => hw i (by simp [hi])⟩
  | @declare run w name place out lines rest ih =>
    have hname : p name place.line := hw (.declare name place) (by simp)
    exact (stmtsModules_append ..).2 ⟨modules_remarksOf run, ⟨hname, trivial⟩, ih fun i hi => hw i (by simp [hi])⟩
  | @inline run inner w name line place body out lines within rest ihWithin ih =>
    have hname : p name (some line) := hw (.begin_ name line) (by simp)
    have hbody := ihWithin fun i hi => hw i (by simp [hi])
    exact (stmtsModules_append ..).2 ⟨modules_remarksOf run, ⟨hname, hbody⟩, ih fun i hi => hw i (by simp [hi])⟩

end Directive

open Directive in
/-- In a source that has been read every module is declared by a comment of the source. -/
theorem readSource_modules {file source : String} {body : List Stmt} (h : readSource file source = .ok body) :
    stmtsModules (DeclaredIn source) body := by
  obtain ⟨inner, hready, hscanned, hgroup⟩ := exists_ready_of_readSource h
  obtain ⟨w, hw⟩ := exists_word_of_group hgroup
  refine ((group_eq_ok_iff hw).1 hgroup).1.modules fun i hi => ?_
  obtain ⟨s, hs, his⟩ := (mem_word_iff hw).1 hi
  exact modules_of_ready (hready s hs) (fun c hc => hscanned c (hc ▸ hs)) his

theorem Library.load_modules {store : Store} {path : FilePath} {name : String} {body : List Stmt}
    (h : Library.load store path name = .ok body) : stmtsModules IsNamed body := by
  obtain ⟨source, -, hsource⟩ := exists_readSource_of_load h
  exact stmtsModules_imp (fun _ _ => Directive.DeclaredIn.isNamed) body (readSource_modules hsource)

namespace Conversion

open Traced

variable {c : Conversion} {load : Loader} {around : Surroundings} {ns : List Note}

/-- What a loader gives has modules of a kind. -/
def Loader.Modules (p : String → Option Nat → Prop) (load : Loader) : Prop :=
  ∀ around name explicit line ns body, (load around name explicit line).Yields ns body → stmtsModules p body

theorem modules_leave {s : Stmt} {out : List Stmt} (h : (c.leave s).Yields ns out) : stmtsModules p out := by
  have hr := h.result
  rw [leave_result] at hr
  cases hr
  split
  · trivial
  · exact ⟨trivial, trivial⟩

/-- No module comes of anything but a module. -/
theorem modules_of_tailor_ordinary {s : Stmt} {out : List Stmt} (hs : s.role ≠ .module_)
    (h : (c.tailor load around s).Yields ns out) : stmtsModules p out := by
  cases hf : s.isFor c.variant.other with
  | true =>
    rw [tailor_of_other hf] at h
    exact modules_leave h
  | false =>
    cases s with
    | comment k =>
      obtain ⟨-, rfl⟩ := pure_yields_iff.1 h
      exact ⟨trivial, trivial⟩
    | simple info what =>
      rw [tailor_simple hf] at h
      obtain ⟨-, rfl⟩ := pure_yields_iff.1 h
      exact ⟨trivial, trivial⟩
    | block info head body =>
      have hm : head.role = .ordinary := by
        cases head with
        | module_ name => exact absurd rfl hs
        | _ => rfl
      rw [tailor_block hf hm] at h
      obtain ⟨body', -, rfl⟩ := bind_pure_yields_iff.1 h
      exact ⟨Stmt.modules_of_role hs, trivial⟩
    | branch info head body orelse =>
      rw [tailor_branch hf] at h
      obtain ⟨_, _, _, _, -, -, -, rfl⟩ := bind_bind_pure_yields_iff.1 h
      exact ⟨trivial, trivial⟩
    | attempt info isGroup body handlers orelse finalbody =>
      obtain ⟨_, _, _, _, _, _, _, _, -, -, -, -, -, rfl⟩ := exists_tailored_attempt hf h
      exact ⟨trivial, trivial⟩
    | select info subject cases =>
      rw [tailor_select hf] at h
      obtain ⟨_, -, rfl⟩ := bind_pure_yields_iff.1 h
      exact ⟨trivial, trivial⟩

mutual

theorem modules_of_tailor (hl : Loader.Modules p load) {around : Surroundings} {ns : List Note} {out : List Stmt} :
    (s : Stmt) → s.Modules p → (c.tailor load around s).Yields ns out → stmtsModules p out
  | .block info head body, hs, h => by
    cases head with
    | module_ name =>
      cases hf : info.tags.any (Tag.names c.variant.other) with
      | true =>
        rw [tailor_of_other (s := .block info (.module_ name) body) hf] at h
        exact modules_leave h
      | false =>
        obtain ⟨explicit, body', rfl, ⟨-, hbody⟩ | ⟨-, hbody⟩⟩ := exists_tailored_module hf h
        · exact ⟨⟨hs.1, modules_of_tailorStmts hl body hs.2 hbody⟩, trivial⟩
        · exact ⟨⟨hs.1, hl _ _ _ _ _ _ hbody⟩, trivial⟩
    | _ => exact modules_of_tailor_ordinary (by simp [Stmt.role, BlockHead.role]) h
  | .simple info what, _, h =>
    modules_of_tailor_ordinary (by cases what <;> simp [Stmt.role, Simple.role]) h
  | .comment k, _, h => modules_of_tailor_ordinary (by simp [Stmt.role]) h
  | .branch .., _, h => modules_of_tailor_ordinary (by simp [Stmt.role]) h
  | .attempt .., _, h => modules_of_tailor_ordinary (by simp [Stmt.role]) h
  | .select .., _, h => modules_of_tailor_ordinary (by simp [Stmt.role]) h
termination_by structural s => s

theorem modules_of_tailorStmts (hl : Loader.Modules p load) {around : Surroundings} {ns : List Note} {out : List Stmt} :
    (ss : List Stmt) → stmtsModules p ss → (c.tailorStmts load around ss).Yields ns out → stmtsModules p out
  | [], _, h => by
    obtain ⟨-, rfl⟩ := pure_yields_iff.1 h
    trivial
  | s :: ss, ⟨hs, hss⟩, h => by
    obtain ⟨_, first, _, rest, hfirst, hrest, -, rfl⟩ := bind_bind_pure_yields_iff.1 h
    exact (stmtsModules_append ..).2 ⟨modules_of_tailor hl s hs hfirst, modules_of_tailorStmts hl ss hss hrest⟩
termination_by structural ss => ss

end

theorem modules_fromLibrary (lib : Library) (depth : Nat) : Loader.Modules IsNamed (c.fromLibrary lib depth) := by
  induction depth with
  | zero => exact fun _ _ _ _ _ _ h => absurd h (not_fail_yields _)
  | succ depth ih =>
    intro around name explicit line ns body h
    obtain ⟨path, chain, loaded, ks, hload, hbody, -⟩ := exists_loaded_of_fromLibrary h
    exact modules_of_tailorStmts ih loaded (Library.load_modules hload) hbody

theorem modules_loader (lib : Option Library) : Loader.Modules IsNamed (c.loader lib) := by
  cases lib with
  | none => exact fun _ _ _ _ _ _ h => absurd h (not_fail_yields _)
  | some lib => exact modules_fromLibrary lib (maxDepth lib)

end Conversion

/-- A pass over blocks that adds or takes away no modules keeps those that are there. -/
structure BlockMap.KeepsModules (w : BlockMap) (p : String → Option Nat → Prop) : Prop where
  block : ∀ owner slot ss, stmtsModules p ss → stmtsModules p (w.block owner slot ss)

theorem keepsModules_dropErased : BlockMap.dropErased.KeepsModules p where
  block _ _ _ h := stmtsModules_iff.2 fun s hs => stmtsModules_iff.1 h s (List.mem_filter.1 hs).1

theorem keepsModules_pad : BlockMap.pad.KeepsModules p where
  block owner slot ss h := by
    simp only [BlockMap.pad]
    split
    · exact h
    · cases hf : BlockMap.filler? owner slot with
      | none => simpa using h
      | some s =>
        refine (stmtsModules_append ..).2 ⟨h, ?_, trivial⟩
        unfold BlockMap.filler? at hf
        split at hf <;> cases hf
        all_goals trivial

mutual

theorem modules_mapBlocks {w : BlockMap} (hw : w.KeepsModules p) : (s : Stmt) → s.Modules p → (s.mapBlocks w).Modules p
  | .block _ head body, hs => by
    cases head with
    | module_ name => exact ⟨hs.1, hw.block _ _ _ (modules_mapStmts hw body hs.2)⟩
    | _ => trivial
  | .simple .., _ | .comment _, _ | .branch .., _ | .attempt .., _ | .select .., _ => trivial

theorem modules_mapStmts {w : BlockMap} (hw : w.KeepsModules p) : (ss : List Stmt) → stmtsModules p ss →
    stmtsModules p (mapStmts w ss)
  | [], _ => trivial
  | s :: ss, ⟨hs, hss⟩ => ⟨modules_mapBlocks hw s hs, modules_mapStmts hw ss hss⟩

end

theorem modules_mapBlocks_tree {w : BlockMap} (hw : w.KeepsModules p) {t : Tree} (h : stmtsModules p t.body) :
    stmtsModules p (t.mapBlocks w).body := by
  cases t with
  | file body => exact hw.block _ _ _ (modules_mapStmts hw body h)
  | module_ info name body => exact hw.block _ _ _ (modules_mapStmts hw body h)

mutual

theorem modules_blocking : (s : Stmt) → s.Modules p → s.blocking.Modules p
  | .block _ head body, hs => by
    cases head with
    | module_ name => exact ⟨hs.1, modules_blockingStmts body hs.2⟩
    | _ => trivial
  | .simple .., _ | .comment _, _ | .branch .., _ | .attempt .., _ | .select .., _ => trivial

theorem modules_blockingStmts : (ss : List Stmt) → stmtsModules p ss → stmtsModules p (blockingStmts ss)
  | [], _ => trivial
  | s :: ss, ⟨hs, hss⟩ => ⟨modules_blocking s hs, modules_blockingStmts ss hss⟩

end

/-- In a converted tree modules are called by identifiers if they were so before. -/
theorem Conversion.modules_of_convert {c : Conversion} {lib : Option Library} {origin : Option FilePath} {t t' : Tree}
    {ns : List Note} (ht : stmtsModules IsNamed t.body) (h : (c.convert lib origin t).Yields ns t') :
    stmtsModules IsNamed t'.body := by
  obtain ⟨chain, body, -, hbody, rfl⟩ := convert_yields_iff.1 h
  refine modules_mapBlocks_tree keepsModules_pad (modules_mapBlocks_tree keepsModules_dropErased ?_)
  rw [Tree.body_withBody]
  exact modules_of_tailorStmts (modules_loader lib) t.body ht hbody

end TwinModule
