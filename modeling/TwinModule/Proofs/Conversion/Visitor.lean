import TwinModule.Proofs.Conversion.Tailor
/-!
The walk of a conversion, apart from what it does where it stops: at statements for the other variant, at modules, and
at what is to be read from files. Two walks that do alike there do alike on every tree, so what is to be shown of a
conversion is shown of these places only.
-/
set_option autoImplicit false

namespace TwinModule

/-- What is done where a walk over a tree stops. -/
structure Visitor (m : Type → Type) where
  /-- With a statement for the other variant. -/
  leave : Stmt → m (List Stmt)
  /-- With a module that has a body and a path, given by its name, the path and its line. -/
  refuse : String → String → Option Nat → m (List Stmt)
  /-- Around the body of a module. -/
  inside : String → m (List Stmt) → m (List Stmt)
  /-- For the body of a module in a file. -/
  load : String → Option String → Option Nat → m (List Stmt)

namespace Conversion

section

variable {m : Type → Type} [Monad m]

mutual

def visit (c : Conversion) (v : Visitor m) : Stmt → m (List Stmt)
  | .comment k => pure [.comment k]
  | .simple info what =>
    match c.keptTags info.tags with
    | none => v.leave (.simple info what)
    | some tags => pure [.simple { info with tags } (c.retarget what)]
  | .block info (.module_ name) body =>
    match c.keptTags info.tags with
    | none => v.leave (.block info (.module_ name) body)
    | some tags => do
      let (explicit, tags) := Tag.take Tag.sourceFamily tags
      if isInline body then
        match explicit with
        | some path => v.refuse name path info.span.line
        | none =>
          let body ← v.inside name (visitStmts c v body)
          return [.block { info with tags } (.module_ name) body]
      else
        let body ← v.inside name (v.load name explicit info.span.line)
        return [.block { info with tags } (.module_ name) body]
  | .block info head body =>
    match c.keptTags info.tags with
    | none => v.leave (.block info head body)
    | some tags => do
      let body ← visitStmts c v body
      return [.block { info with tags } head body]
  | .branch info head body orelse =>
    match c.keptTags info.tags with
    | none => v.leave (.branch info head body orelse)
    | some tags => do
      let body ← visitStmts c v body
      let orelse ← visitStmts c v orelse
      return [.branch { info with tags } head body orelse]
  | .attempt info isGroup body handlers orelse finalbody =>
    match c.keptTags info.tags with
    | none => v.leave (.attempt info isGroup body handlers orelse finalbody)
    | some tags => do
      let body ← visitStmts c v body
      let handlers ← visitHandlers c v handlers
      let orelse ← visitStmts c v orelse
      let finalbody ← visitStmts c v finalbody
      return [.attempt { info with tags } isGroup body handlers orelse finalbody]
  | .select info subject cases =>
    match c.keptTags info.tags with
    | none => v.leave (.select info subject cases)
    | some tags => do
      let cases ← visitCases c v cases
      return [.select { info with tags } subject cases]

def visitStmts (c : Conversion) (v : Visitor m) : List Stmt → m (List Stmt)
  | [] => pure []
  | s :: ss => do
    let first ← visit c v s
    let rest ← visitStmts c v ss
    return first ++ rest

def visitHandlers (c : Conversion) (v : Visitor m) : List Handler → m (List Handler)
  | [] => pure []
  | .comment k :: hs => do
    let rest ← visitHandlers c v hs
    return .comment k :: rest
  | .handler span type name body :: hs => do
    let body ← visitStmts c v body
    let rest ← visitHandlers c v hs
    return .handler span type name body :: rest

def visitCases (c : Conversion) (v : Visitor m) : List Case → m (List Case)
  | [] => pure []
  | .comment k :: cs => do
    let rest ← visitCases c v cs
    return .comment k :: rest
  | .case lines pattern guard body :: cs => do
    let body ← visitStmts c v body
    let rest ← visitCases c v cs
    return .case lines pattern guard body :: rest

end

end

theorem visit_of_other {m : Type → Type} [Monad m] (c : Conversion) (v : Visitor m) {s : Stmt}
    (h : s.isFor c.variant.other = true) : c.visit v s = v.leave s := by
  cases s with
  | comment k => cases h
  | block info head body =>
    have hk : c.keptTags info.tags = none := keptTags_of_other h
    cases head <;> simp only [visit, hk]
  | simple info | branch info | attempt info | select info =>
    have hk : c.keptTags info.tags = none := keptTags_of_other h
    simp only [visit, hk]

/-- Two walks do alike: a relation of computations is kept by sequences and holds of what is done where they stop. -/
structure Related {m m' : Type → Type} [Monad m] [Monad m'] (R : ⦃α : Type⦄ → m α → m' α → Prop) (v : Visitor m)
    (v' : Visitor m') : Prop where
  pure : ∀ {α : Type} (a : α), R (pure a) (pure a)
  bind : ∀ {α β : Type} {x : m α} {x' : m' α} {f : α → m β} {f' : α → m' β}, R x x' → (∀ a, R (f a) (f' a)) →
    R (x >>= f) (x' >>= f')
  leave : ∀ s, R (v.leave s) (v'.leave s)
  refuse : ∀ name path line, R (v.refuse name path line) (v'.refuse name path line)
  inside : ∀ name {x x'}, R x x' → R (v.inside name x) (v'.inside name x')
  load : ∀ name explicit line, R (v.inside name (v.load name explicit line)) (v'.inside name (v'.load name explicit line))

section

variable {m m' : Type → Type} [Monad m] [Monad m'] {R : ⦃α : Type⦄ → m α → m' α → Prop} {v : Visitor m}
  {v' : Visitor m'}

mutual

theorem related_visit (c : Conversion) (h : Related R v v') : (s : Stmt) → R (c.visit v s) (c.visit v' s)
  | .comment _ => h.pure _
  | .simple info what => by
    simp only [visit]
    split
    · exact h.leave _
    · exact h.pure _
  | .block info head body => by
    have hbody := related_visitStmts c h body
    cases head with
    | module_ name =>
      simp only [visit]
      split
      · exact h.leave _
      · split
        · split
          · exact h.refuse ..
          · exact h.bind (h.inside name hbody) fun _ => h.pure _
        · exact h.bind (h.load ..) fun _ => h.pure _
    | _ =>
      simp only [visit]
      split
      · exact h.leave _
      · exact h.bind hbody fun _ => h.pure _
  | .branch info head body orelse => by
    simp only [visit]
    split
    · exact h.leave _
    · exact h.bind (related_visitStmts c h body) fun _ => h.bind (related_visitStmts c h orelse) fun _ => h.pure _
  | .attempt info isGroup body handlers orelse finalbody => by
    simp only [visit]
    split
    · exact h.leave _
    · exact h.bind (related_visitStmts c h body) fun _ => h.bind (related_visitHandlers c h handlers) fun _ =>
        h.bind (related_visitStmts c h orelse) fun _ => h.bind (related_visitStmts c h finalbody) fun _ => h.pure _
  | .select info subject cases => by
    simp only [visit]
    split
    · exact h.leave _
    · exact h.bind (related_visitCases c h cases) fun _ => h.pure _
termination_by structural s => s

theorem related_visitStmts (c : Conversion) (h : Related R v v') :
    (ss : List Stmt) → R (c.visitStmts v ss) (c.visitStmts v' ss)
  | [] => h.pure _
  | s :: ss => h.bind (related_visit c h s) fun _ => h.bind (related_visitStmts c h ss) fun _ => h.pure _
termination_by structural ss => ss

theorem related_visitHandlers (c : Conversion) (h : Related R v v') :
    (hs : List Handler) → R (c.visitHandlers v hs) (c.visitHandlers v' hs)
  | [] => h.pure _
  | .comment _ :: hs => h.bind (related_visitHandlers c h hs) fun _ => h.pure _
  | .handler _ _ _ body :: hs =>
    h.bind (related_visitStmts c h body) fun _ => h.bind (related_visitHandlers c h hs) fun _ => h.pure _
termination_by structural hs => hs

theorem related_visitCases (c : Conversion) (h : Related R v v') :
    (cs : List Case) → R (c.visitCases v cs) (c.visitCases v' cs)
  | [] => h.pure _
  | .comment _ :: cs => h.bind (related_visitCases c h cs) fun _ => h.pure _
  | .case _ _ _ body :: cs =>
    h.bind (related_visitStmts c h body) fun _ => h.bind (related_visitCases c h cs) fun _ => h.pure _
termination_by structural cs => cs

end

end

/-- All of a walk is of a kind: what is done where it stops is, and sequences of such computations are. -/
abbrev Throughout {m : Type → Type} [Monad m] (P : ⦃α : Type⦄ → m α → Prop) (v : Visitor m) : Prop :=
  Related (fun _ x _ => P x) v v

/-- A conversion as a walk: its surroundings are handed down. -/
def reader (c : Conversion) (load : Loader) : Visitor (ReaderT Surroundings Traced) where
  leave s := fun _ => c.leave s
  refuse name path line := fun _ => Traced.fail (.complaint (.bodyAndPath name path) none line)
  inside name x := fun around => x { around with modulePath := around.modulePath ++ [name] }
  load name explicit line := fun around => load around name explicit line

mutual

theorem tailor_eq_visit (c : Conversion) (load : Loader) (around : Surroundings) :
    (s : Stmt) → c.tailor load around s = c.visit (c.reader load) s around
  | .comment _ => rfl
  | .simple info what => by
    simp only [tailor, visit]
    cases c.keptTags info.tags <;> rfl
  | .block info head body => by
    cases head with
    | module_ name =>
      simp only [tailor, visit, tailorStmts_eq_visitStmts c load _ body]
      cases c.keptTags info.tags with
      | none => rfl
      | some tags =>
        dsimp only
        cases isInline body with
        | false => rfl
        | true => cases (Tag.take Tag.sourceFamily tags).1 <;> rfl
    | _ =>
      simp only [tailor, visit, tailorStmts_eq_visitStmts c load around body]
      cases c.keptTags info.tags <;> rfl
  | .branch info head body orelse => by
    simp only [tailor, visit, tailorStmts_eq_visitStmts c load around body,
      tailorStmts_eq_visitStmts c load around orelse]
    cases c.keptTags info.tags <;> rfl
  | .attempt info isGroup body handlers orelse finalbody => by
    simp only [tailor, visit, tailorStmts_eq_visitStmts c load around body,
      tailorHandlers_eq_visitHandlers c load around handlers, tailorStmts_eq_visitStmts c load around orelse,
      tailorStmts_eq_visitStmts c load around finalbody]
    cases c.keptTags info.tags <;> rfl
  | .select info subject cases => by
    simp only [tailor, visit, tailorCases_eq_visitCases c load around cases]
    cases c.keptTags info.tags <;> rfl
termination_by structural s => s

theorem tailorStmts_eq_visitStmts (c : Conversion) (load : Loader) (around : Surroundings) :
    (ss : List Stmt) → c.tailorStmts load around ss = c.visitStmts (c.reader load) ss around
  | [] => rfl
  | s :: ss => by
    simp only [tailorStmts, visitStmts, tailor_eq_visit c load around s, tailorStmts_eq_visitStmts c load around ss]
    rfl
termination_by structural ss => ss

theorem tailorHandlers_eq_visitHandlers (c : Conversion) (load : Loader) (around : Surroundings) :
    (hs : List Handler) → c.tailorHandlers load around hs = c.visitHandlers (c.reader load) hs around
  | [] => rfl
  | .comment _ :: hs => by
    simp only [tailorHandlers, visitHandlers, tailorHandlers_eq_visitHandlers c load around hs]
    rfl
  | .handler _ _ _ body :: hs => by
    simp only [tailorHandlers, visitHandlers, tailorStmts_eq_visitStmts c load around body,
      tailorHandlers_eq_visitHandlers c load around hs]
    rfl
termination_by structural hs => hs

theorem tailorCases_eq_visitCases (c : Conversion) (load : Loader) (around : Surroundings) :
    (cs : List Case) → c.tailorCases load around cs = c.visitCases (c.reader load) cs around
  | [] => rfl
  | .comment _ :: cs => by
    simp only [tailorCases, visitCases, tailorCases_eq_visitCases c load around cs]
    rfl
  | .case _ _ _ body :: cs => by
    simp only [tailorCases, visitCases, tailorStmts_eq_visitStmts c load around body,
      tailorCases_eq_visitCases c load around cs]
    rfl
termination_by structural cs => cs

end

/-- Two computations do alike in a file, whatever modules are around. -/
def AgreeIn (file : Option String) (chain : Chain) ⦃α : Type⦄ (x x' : ReaderT Surroundings Traced α) : Prop :=
  ∀ names, x ⟨names, file, chain⟩ = x' ⟨names, file, chain⟩

theorem related_agreeIn (c : Conversion) {load load' : Loader} {file : Option String} {chain : Chain}
    (h : ∀ names name explicit line,
      load ⟨names, file, chain⟩ name explicit line = load' ⟨names, file, chain⟩ name explicit line) :
    Related (AgreeIn file chain) (c.reader load) (c.reader load') where
  pure _ _ := rfl
  bind {_ _ x x' f f'} hx hf names := by
    show (x _ >>= fun a => f a _) = (x' _ >>= fun a => f' a _)
    rw [hx names, funext fun a => hf a names]
  leave _ _ := rfl
  refuse _ _ _ _ := rfl
  inside name _ _ hx names := hx (names ++ [name])
  load name explicit line names := h (names ++ [name]) name explicit line

/-- With loaders that agree on what a file declares, its statements give the same. -/
theorem tailorStmts_congr (c : Conversion) {load load' : Loader} {file : Option String} {chain : Chain}
    (h : ∀ names name explicit line,
      load ⟨names, file, chain⟩ name explicit line = load' ⟨names, file, chain⟩ name explicit line)
    (names : List String) (ss : List Stmt) :
    c.tailorStmts load ⟨names, file, chain⟩ ss = c.tailorStmts load' ⟨names, file, chain⟩ ss := by
  rw [tailorStmts_eq_visitStmts, tailorStmts_eq_visitStmts]
  exact related_visitStmts c (c.related_agreeIn h) ss names

end Conversion

end TwinModule
