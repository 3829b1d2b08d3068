import TwinModule.Directive.Attach
/-!
What a tree says, whatever its places are and whatever its ordinary comments say.
-/
set_option autoImplicit false

namespace TwinModule

/-- A comment that has not the shape of a directive. -/
def Comment.isOrdinary (c : Comment) : Bool := (Directive.Shape.of? (Text.trim c.text.toList)).isNone

/-- A comment without its place. -/
def Comment.gist (c : Comment) : Comment := { c with span := Span.unset }

/-- A tag without the line of its comment. -/
def Tag.gist (t : Tag) : Tag := { t with line := 0 }

def Info.gist (info : Info) : Info := ⟨Span.unset, info.tags.map Tag.gist⟩

def Decorator.gist (d : Decorator) : Decorator := { d with line := 0 }

def BlockHead.gist : BlockHead → BlockHead
  | .function isAsync name params decorators returns typeComment =>
    .function isAsync name params (decorators.map Decorator.gist) returns typeComment
  | .class_ name bases keywords decorators => .class_ name bases keywords (decorators.map Decorator.gist)
  | .with_ isAsync items typeComment => .with_ isAsync items typeComment
  | .module_ name => .module_ name

/-- An ordinary comment. -/
def Stmt.isRemark : Stmt → Bool
  | .comment c => c.isOrdinary
  | _ => false

mutual

/-- A statement without places and ordinary comments, at any depth. -/
def Stmt.gist : Stmt → Stmt
  | .simple info what => .simple info.gist what
  | .comment c => .comment c.gist
  | .block info head body => .block info.gist head.gist (stmtsGist body)
  | .branch info head body orelse => .branch info.gist head (stmtsGist body) (stmtsGist orelse)
  | .attempt info isGroup body handlers orelse finalbody =>
    .attempt info.gist isGroup (stmtsGist body) (handlersGist handlers) (stmtsGist orelse) (stmtsGist finalbody)
  | .select info subject cases => .select info.gist subject (casesGist cases)

def stmtsGist : List Stmt → List Stmt
  | [] => []
  | s :: ss => if s.isRemark then stmtsGist ss else s.gist :: stmtsGist ss

def handlersGist : List Handler → List Handler
  | [] => []
  | .comment c :: hs => if c.isOrdinary then handlersGist hs else .comment c.gist :: handlersGist hs
  | .handler _ type name body :: hs => .handler Span.unset type name (stmtsGist body) :: handlersGist hs

def casesGist : List Case → List Case
  | [] => []
  | .comment c :: cs => if c.isOrdinary then casesGist cs else .comment c.gist :: casesGist cs
  | .case _ pattern guard body :: cs => .case (0, 0) pattern guard (stmtsGist body) :: casesGist cs

end

@[simp] theorem stmtsGist_nil : stmtsGist [] = [] := rfl

theorem stmtsGist_cons (s : Stmt) (ss : List Stmt) :
    stmtsGist (s :: ss) = if s.isRemark then stmtsGist ss else s.gist :: stmtsGist ss := rfl

theorem stmtsGist_append (ss us : List Stmt) : stmtsGist (ss ++ us) = stmtsGist ss ++ stmtsGist us := by
  induction ss with
  | nil => rfl
  | cons s ss ih =>
    rw [List.cons_append, stmtsGist_cons, stmtsGist_cons]
    split <;> simp [ih]

@[simp] theorem Comment.isOrdinary_gist (c : Comment) : c.gist.isOrdinary = c.isOrdinary := rfl

@[simp] theorem Comment.gist_gist (c : Comment) : c.gist.gist = c.gist := rfl

@[simp] theorem Stmt.isRemark_gist (s : Stmt) : s.gist.isRemark = s.isRemark := by
  cases s <;> rfl

theorem Stmt.isRemark_eq_of_gist {s t : Stmt} (h : s.gist = t.gist) : s.isRemark = t.isRemark := by
  rw [← s.isRemark_gist, h, t.isRemark_gist]

/-- The gist of a block depends only on those of its parts. -/
theorem stmtsGist_cons_congr {s t : Stmt} {ss us : List Stmt} (h : s.gist = t.gist) (hs : stmtsGist ss = stmtsGist us) :
    stmtsGist (s :: ss) = stmtsGist (t :: us) := by
  rw [stmtsGist_cons, stmtsGist_cons, Stmt.isRemark_eq_of_gist h, h, hs]

@[simp] theorem BlockHead.isModule_gist (head : BlockHead) : head.gist.isModule = head.isModule := by
  cases head <;> rfl

@[simp] theorem Tag.gist_gist (t : Tag) : t.gist.gist = t.gist := rfl

@[simp] theorem Info.gist_gist (info : Info) : info.gist.gist = info.gist := by
  simp [Info.gist]

@[simp] theorem BlockHead.gist_gist (head : BlockHead) : head.gist.gist = head.gist := by
  cases head <;> simp [BlockHead.gist, Decorator.gist]

theorem Stmt.gist_withTags (s : Stmt) (ts : List Tag) : (s.withTags ts).gist = s.gist.withTags (ts.map Tag.gist) := by
  cases s <;> rfl

theorem Stmt.tags_gist (s : Stmt) : s.gist.tags = s.tags.map Tag.gist := by
  cases s <;> rfl

theorem Stmt.withTags_congr {s t : Stmt} {ts us : List Tag} (h : s.gist = t.gist)
    (ht : ts.map Tag.gist = us.map Tag.gist) : (s.withTags ts).gist = (t.withTags us).gist := by
  rw [Stmt.gist_withTags, Stmt.gist_withTags, h, ht]

mutual

@[simp] theorem Stmt.gist_gist : (s : Stmt) → s.gist.gist = s.gist
  | .simple info what => by simp [Stmt.gist]
  | .comment c => rfl
  | .block info head body => by simp [Stmt.gist, stmtsGist_gist body]
  | .branch info head body orelse => by simp [Stmt.gist, stmtsGist_gist body, stmtsGist_gist orelse]
  | .attempt info isGroup body handlers orelse finalbody => by
    simp [Stmt.gist, stmtsGist_gist body, handlersGist_gist handlers, stmtsGist_gist orelse, stmtsGist_gist finalbody]
  | .select info subject cases => by simp [Stmt.gist, casesGist_gist cases]

@[simp] theorem stmtsGist_gist : (ss : List Stmt) → stmtsGist (stmtsGist ss) = stmtsGist ss
  | [] => rfl
  | s :: ss => by
    rw [stmtsGist_cons]
    split
    · exact stmtsGist_gist ss
    · rename_i h
      rw [stmtsGist_cons, Stmt.isRemark_gist, if_neg h, Stmt.gist_gist s, stmtsGist_gist ss]

@[simp] theorem handlersGist_gist : (hs : List Handler) → handlersGist (handlersGist hs) = handlersGist hs
  | [] => rfl
  | .comment c :: hs => by
    cases h : c.isOrdinary <;> simp [handlersGist, h, handlersGist_gist hs]
  | .handler _ _ _ body :: hs => by simp [handlersGist, stmtsGist_gist body, handlersGist_gist hs]

@[simp] theorem casesGist_gist : (cs : List Case) → casesGist (casesGist cs) = casesGist cs
  | [] => rfl
  | .comment c :: cs => by
    cases h : c.isOrdinary <;> simp [casesGist, h, casesGist_gist cs]
  | .case _ _ _ body :: cs => by simp [casesGist, stmtsGist_gist body, casesGist_gist cs]

end

end TwinModule
