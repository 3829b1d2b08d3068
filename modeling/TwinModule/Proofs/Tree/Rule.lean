import TwinModule.Blocks.Tidy
import TwinModule.Directive.Attach
/-!
Rules that a tree obeys at every depth. A rule says what statements, comments and blocks may be like, each by
itself; a statement obeys it if all that is in it does.
-/
set_option autoImplicit false

namespace TwinModule

namespace Tag

/-- Whether the tag names the variant. -/
def names (v : Variant) (t : Tag) : Bool := t.family == variantFamily && t.argument == v.name

theorem family_of_names {v : Variant} {t : Tag} (h : t.names v = true) : t.family = variantFamily := by
  simp only [names, Bool.and_eq_true, beq_iff_eq] at h
  exact h.1

def IsVariant (t : Tag) : Prop := ∃ v, t.names v = true

def IsSource (t : Tag) : Prop := t.family = sourceFamily

end Tag

/-- What a statement is to the passes over a tree. -/
inductive Role where
  | ordinary | module_ | erased
  deriving DecidableEq, Repr

def Simple.role : Simple → Role
  | .erased => .erased
  | _ => .ordinary

def BlockHead.role : BlockHead → Role
  | .module_ _ => .module_
  | _ => .ordinary

theorem BlockHead.isModule_of_ordinary {head : BlockHead} (h : head.role = .ordinary) : head.isModule = false := by
  cases head with
  | module_ name => cases h
  | _ => rfl

def Stmt.role : Stmt → Role
  | .simple _ what => what.role
  | .block _ head _ => head.role
  | _ => .ordinary

structure Rule where
  /-- Statements, by whether they stand right in a file or a module, their role and their tags. -/
  stmt : Bool → Role → List Tag → Prop
  comment : Comment → Prop
  /-- Blocks, by whether they are the body of a module and by what they belong to. -/
  block : Bool → Owner → Slot → List Stmt → Prop

mutual

/-- Whether a statement, which stands right in a file or a module if `outer`, obeys a rule at every depth. -/
def Stmt.Obeys (r : Rule) (outer : Bool) : Stmt → Prop
  | .simple info what => r.stmt outer what.role info.tags
  | .comment c => r.comment c
  | .block info head body =>
    r.stmt outer head.role info.tags ∧ r.block head.isModule (.item info.span false) .body body ∧
      stmtsObey r head.isModule body
  | .branch info _ body orelse =>
    r.stmt outer .ordinary info.tags ∧
      (r.block false (.item info.span false) .body body ∧ stmtsObey r false body) ∧
      (r.block false (.item info.span false) .orelse orelse ∧ stmtsObey r false orelse)
  | .attempt info isGroup body handlers orelse finalbody =>
    r.stmt outer .ordinary info.tags ∧
      (r.block false (.item info.span (!isGroup && handlers.isEmpty)) .body body ∧ stmtsObey r false body) ∧
      handlersObey r handlers ∧
      (r.block false (.item info.span (!isGroup && handlers.isEmpty)) .orelse orelse ∧ stmtsObey r false orelse) ∧
      (r.block false (.item info.span (!isGroup && handlers.isEmpty)) .finalbody finalbody ∧
        stmtsObey r false finalbody)
  | .select info _ cases => r.stmt outer .ordinary info.tags ∧ casesObey r cases

def stmtsObey (r : Rule) (outer : Bool) : List Stmt → Prop
  | [] => True
  | s :: ss => s.Obeys r outer ∧ stmtsObey r outer ss

def handlersObey (r : Rule) : List Handler → Prop
  | [] => True
  | .comment c :: hs => r.comment c ∧ handlersObey r hs
  | .handler span _ _ body :: hs =>
    (r.block false (.item span false) .body body ∧ stmtsObey r false body) ∧ handlersObey r hs

def casesObey (r : Rule) : List Case → Prop
  | [] => True
  | .comment c :: cs => r.comment c ∧ casesObey r cs
  | .case _ _ _ body :: cs =>
    (r.block false (.item Span.unset false) .body body ∧ stmtsObey r false body) ∧ casesObey r cs

end

@[simp] theorem stmtsObey_nil (r : Rule) (outer : Bool) : stmtsObey r outer [] := trivial

@[simp] theorem stmtsObey_cons (r : Rule) (outer : Bool) (s : Stmt) (ss : List Stmt) :
    stmtsObey r outer (s :: ss) ↔ s.Obeys r outer ∧ stmtsObey r outer ss := Iff.rfl

theorem stmtsObey_iff {r : Rule} {outer : Bool} {ss : List Stmt} :
    stmtsObey r outer ss ↔ ∀ s ∈ ss, s.Obeys r outer := by
  induction ss with
  | nil => simp
  | cons s ss ih => simp [ih]

@[simp] theorem stmtsObey_append (r : Rule) (outer : Bool) (as bs : List Stmt) :
    stmtsObey r outer (as ++ bs) ↔ stmtsObey r outer as ∧ stmtsObey r outer bs := by
  simp only [stmtsObey_iff, List.mem_append]
  constructor
  · intro h
    exact ⟨fun s hs => h s (.inl hs), fun s hs => h s (.inr hs)⟩
  · rintro ⟨ha, hb⟩ s (hs | hs)
    · exact ha s hs
    · exact hb s hs

/-- What a handler obeys that is no comment. -/
def Handler.Obeys (r : Rule) : Handler → Prop
  | .comment c => r.comment c
  | .handler span _ _ body => r.block false (.item span false) .body body ∧ stmtsObey r false body

def Case.Obeys (r : Rule) : Case → Prop
  | .comment c => r.comment c
  | .case _ _ _ body => r.block false (.item Span.unset false) .body body ∧ stmtsObey r false body

theorem handlersObey_iff {r : Rule} {hs : List Handler} : handlersObey r hs ↔ ∀ h ∈ hs, h.Obeys r := by
  induction hs with
  | nil => simp [handlersObey]
  | cons h hs ih => cases h <;> simp [handlersObey, Handler.Obeys, ih]

theorem casesObey_iff {r : Rule} {cs : List Case} : casesObey r cs ↔ ∀ c ∈ cs, c.Obeys r := by
  induction cs with
  | nil => simp [casesObey]
  | cons c cs ih => cases c <;> simp [casesObey, Case.Obeys, ih]

theorem Stmt.Obeys.stmt {r : Rule} {outer : Bool} {s : Stmt} (h : s.Obeys r outer) (hs : s.isReal = true) :
    r.stmt outer s.role s.tags := by
  cases s with
  | simple info what => exact h
  | comment c => simp [Stmt.isReal, Stmt.isComment] at hs
  | _ => exact h.1

/-- Only the statement itself may mind where it stands. -/
theorem Stmt.Obeys.move {r : Rule} {outer outer' : Bool} {s : Stmt} (h : s.Obeys r outer)
    (hs : s.isReal = true → r.stmt outer' s.role s.tags) : s.Obeys r outer' := by
  cases s with
  | simple info what => exact hs rfl
  | comment c => exact h
  | _ => exact ⟨hs rfl, h.2⟩

theorem Stmt.Obeys.retag {r : Rule} {outer outer' : Bool} {s : Stmt} {ts : List Tag}
    (h : s.Obeys r outer) (hs : s.isReal = true) (ht : r.stmt outer' s.role ts) :
    (s.withTags ts).Obeys r outer' := by
  cases s with
  | simple info what => exact ht
  | comment c => simp [Stmt.isReal, Stmt.isComment] at hs
  | block info head body => exact ⟨ht, h.2⟩
  | branch info head body orelse => exact ⟨ht, h.2⟩
  | attempt info isGroup body handlers orelse finalbody => exact ⟨ht, h.2⟩
  | select info subject cases => exact ⟨ht, h.2⟩

theorem Stmt.isErased_eq_false_iff {s : Stmt} : s.isErased = false ↔ s.role ≠ .erased := by
  cases s with
  | simple info what => cases what <;> simp [isErased, role, Simple.role]
  | block info head body => cases head <;> simp [isErased, role, BlockHead.role]
  | _ => simp [isErased, role]

/-- What obeys the first rule, has nothing erased in it and has no modules unless `modules`, obeys the second rule. -/
structure Rule.Implies (modules : Bool) (r r' : Rule) : Prop where
  stmt : ∀ outer role tags, (outer = true → modules = true) → role ≠ .erased → r.stmt outer role tags →
    r'.stmt outer role tags
  module_ : ∀ outer tags, (outer = true → modules = true) → r.stmt outer .module_ tags → modules = true
  comment : ∀ c, r.comment c → r'.comment c
  block : ∀ inner owner slot ss, r.block inner owner slot ss → r'.block inner owner slot ss
  whole : ∀ inner owner slot ss, r.block inner owner slot ss → stmtsObey r inner ss → ss.any Stmt.isErased = false

section

variable {modules : Bool} {r r' : Rule}

theorem Rule.Implies.blockObeys (hr : r.Implies modules r') {inner : Bool} {owner : Owner} {slot : Slot}
    {ss : List Stmt} (hf : r.block inner owner slot ss) (hss : stmtsObey r inner ss)
    (ih : ss.any Stmt.isErased = false → stmtsObey r' inner ss) :
    r'.block inner owner slot ss ∧ stmtsObey r' inner ss :=
  ⟨hr.block _ _ _ _ hf, ih (hr.whole _ _ _ _ hf hss)⟩

mutual

theorem Stmt.Obeys.mono {outer : Bool} (hr : r.Implies modules r') (ho : outer = true → modules = true) :
    (s : Stmt) → s.isErased = false → s.Obeys r outer → s.Obeys r' outer
  | .simple _ _, he, h => hr.stmt _ _ _ ho (Stmt.isErased_eq_false_iff.1 he) h
  | .comment c, _, h => hr.comment c h
  | .block info head body, he, ⟨hi, hf, hb⟩ => by
    have hm : head.isModule = true → modules = true := by
      intro h
      cases head with
      | module_ name => exact hr.module_ _ _ ho hi
      | _ => exact absurd h (by simp [BlockHead.isModule])
    exact ⟨hr.stmt _ _ _ ho (Stmt.isErased_eq_false_iff.1 he) hi,
      hr.blockObeys hf hb fun he => stmtsObey_mono hr hm body he hb⟩
  | .branch info head body orelse, _, ⟨hi, ⟨hf, hb⟩, hfo, ho'⟩ =>
    ⟨hr.stmt _ _ _ ho (by simp) hi, hr.blockObeys hf hb fun he => stmtsObey_mono hr (by simp) body he hb,
      hr.blockObeys hfo ho' fun he => stmtsObey_mono hr (by simp) orelse he ho'⟩
  | .attempt info isGroup body handlers orelse finalbody, _, ⟨hi, ⟨hf, hb⟩, hh, ⟨hfo, ho'⟩, hff, hfb⟩ =>
    ⟨hr.stmt _ _ _ ho (by simp) hi, hr.blockObeys hf hb fun he => stmtsObey_mono hr (by simp) body he hb,
      handlersObey_mono hr handlers hh, hr.blockObeys hfo ho' fun he => stmtsObey_mono hr (by simp) orelse he ho',
      hr.blockObeys hff hfb fun he => stmtsObey_mono hr (by simp) finalbody he hfb⟩
  | .select info subject cases, _, ⟨hi, hc⟩ => ⟨hr.stmt _ _ _ ho (by simp) hi, casesObey_mono hr cases hc⟩

theorem stmtsObey_mono {outer : Bool} (hr : r.Implies modules r') (ho : outer = true → modules = true) :
    (ss : List Stmt) → ss.any Stmt.isErased = false → stmtsObey r outer ss → stmtsObey r' outer ss
  | [], _, _ => trivial
  | s :: ss, he, ⟨hs, hss⟩ => by
    rw [List.any_cons, Bool.or_eq_false_iff] at he
    exact ⟨Stmt.Obeys.mono hr ho s he.1 hs, stmtsObey_mono hr ho ss he.2 hss⟩

theorem handlersObey_mono (hr : r.Implies modules r') : (hs : List Handler) → handlersObey r hs → handlersObey r' hs
  | [], _ => trivial
  | .comment c :: hs, ⟨hc, hhs⟩ => ⟨hr.comment c hc, handlersObey_mono hr hs hhs⟩
  | .handler _ _ _ body :: hs, ⟨⟨hf, hb⟩, hhs⟩ =>
    ⟨hr.blockObeys hf hb fun he => stmtsObey_mono hr (by simp) body he hb, handlersObey_mono hr hs hhs⟩

theorem casesObey_mono (hr : r.Implies modules r') : (cs : List Case) → casesObey r cs → casesObey r' cs
  | [], _ => trivial
  | .comment c :: cs, ⟨hc, hcs⟩ => ⟨hr.comment c hc, casesObey_mono hr cs hcs⟩
  | .case _ _ _ body :: cs, ⟨⟨hf, hb⟩, hcs⟩ =>
    ⟨hr.blockObeys hf hb fun he => stmtsObey_mono hr (by simp) body he hb, casesObey_mono hr cs hcs⟩

end

end

/-- A sequence gives a result if its first part does and then the rest. -/
theorem bind_eq_ok_iff {ε α β : Type} {x : Except ε α} {f : α → Except ε β} {b : β} :
    x >>= f = .ok b ↔ ∃ a, x = .ok a ∧ f a = .ok b := by
  cases x with
  | error e => simp [Bind.bind, Except.bind]
  | ok a => simp [Bind.bind, Except.bind]

end TwinModule
