import TwinModule.Directive.Attach
/-!
The grammar of blocks. A block is read as a word of items; a run of lines holds tags and comments, and a
statement or a module takes the tags of the run before it. The tree of a derivation is the block with its
directives in effect.
-/
set_option autoImplicit false

namespace TwinModule.Directive

/-- One item of a block. -/
inductive Item where
  /-- A comment that is no directive. -/
  | remark (c : Comment)
  | statement (s : Stmt)
  | variant (argument : String) (line : Nat)
  | source (path : String) (line : Nat)
  | declare (name : String) (place : Span)
  | begin_ (name : String) (line : Nat)
  | end_ (name : String) (place : Span)

namespace Item

/-- The item that a directive is. -/
def ofDirective (d : Directive) (place : Span) : Item :=
  match d.request with
  | .variant _ => .variant d.argument d.line
  | .source path => .source path d.line
  | .declare name => .declare name place
  | .begin_ name => .begin_ name d.line
  | .end_ name => .end_ name place

/-- The item that a statement or a comment is; nothing for a directive that is malformed or inline. -/
def of? : Stmt → Option Item
  | .comment c =>
    match inComment? c with
    | .ok none => some (.remark c)
    | .ok (some d) => some (ofDirective d c.span)
    | .error _ => none
  | s => some (.statement s)

/-- Whether the item may stand in a run of lines. -/
def isLine : Item → Bool
  | remark _ => true
  | variant .. => true
  | source .. => true
  | _ => false

def isSource : Item → Bool
  | source .. => true
  | _ => false

/-- Whether the item declares, begins or ends a module. -/
def isModule : Item → Bool
  | declare .. => true
  | begin_ .. => true
  | end_ .. => true
  | _ => false

def tag? : Item → Option Tag
  | variant argument line => some ⟨Tag.variantFamily, argument, line⟩
  | source path line => some ⟨Tag.sourceFamily, path, line⟩
  | _ => none

def remark? : Item → Option Stmt
  | remark c => some (.comment c)
  | _ => none

end Item

/-- The word of a block, if its directive comments are well-formed and on lines of their own. -/
def word? (ss : List Stmt) : Option (List Item) := ss.mapM Item.of?

theorem word?_cons_eq_some_iff {s : Stmt} {ss : List Stmt} {w : List Item} :
    word? (s :: ss) = some w ↔ ∃ i, Item.of? s = some i ∧ ∃ v, word? ss = some v ∧ i :: v = w := by
  simp only [word?, List.mapM_cons, Option.pure_def, Option.bind_eq_bind, Option.bind_eq_some_iff, Option.some.injEq]

/-- The tags in a run of lines. -/
def tagsOf (run : List Item) : List Tag := run.filterMap Item.tag?

/-- The comments in a run of lines. -/
def remarksOf (run : List Item) : List Stmt := run.filterMap Item.remark?

/-- Words of blocks with the trees of their derivations. -/
inductive Derives : List Item → List Stmt → Prop
  | nil : Derives [] []
  | remark {c : Comment} {w : List Item} {out : List Stmt} (rest : Derives w out) :
      Derives (.remark c :: w) (.comment c :: out)
  | statement {run w : List Item} {s : Stmt} {out : List Stmt} (lines : ∀ i ∈ run, i.isLine = true)
      (noSource : ∀ i ∈ run, i.isSource = false) (rest : Derives w out) :
      Derives (run ++ .statement s :: w) (remarksOf run ++ s.withTags (s.tags ++ tagsOf run) :: out)
  | declare {run w : List Item} {name : String} {place : Span} {out : List Stmt}
      (lines : ∀ i ∈ run, i.isLine = true) (rest : Derives w out) :
      Derives (run ++ .declare name place :: w) (remarksOf run ++ declaredModule name (tagsOf run) place :: out)
  | inline {run inner w : List Item} {name : String} {line : Nat} {place : Span} {body out : List Stmt}
      (lines : ∀ i ∈ run, i.isLine = true) (within : Derives inner body) (rest : Derives w out) :
      Derives (run ++ .begin_ name line :: inner ++ .end_ name place :: w)
        (remarksOf run ++ inlineModule name line (tagsOf run) body place :: out)

@[simp] theorem tagsOf_nil : tagsOf [] = [] := rfl

@[simp] theorem remarksOf_nil : remarksOf [] = [] := rfl

@[simp] theorem tagsOf_cons (i : Item) (w : List Item) : tagsOf (i :: w) = i.tag?.toList ++ tagsOf w := by
  cases i <;> rfl

@[simp] theorem remarksOf_cons (i : Item) (w : List Item) :
    remarksOf (i :: w) = i.remark?.toList ++ remarksOf w := by
  cases i <;> rfl

@[simp] theorem tagsOf_append (v w : List Item) : tagsOf (v ++ w) = tagsOf v ++ tagsOf w := by
  simp [tagsOf]

@[simp] theorem remarksOf_append (v w : List Item) : remarksOf (v ++ w) = remarksOf v ++ remarksOf w := by
  simp [remarksOf]

/-- Comments in front of a word are comments in front of its tree. -/
theorem Derives.remarks {run w : List Item} {out : List Stmt} (lines : ∀ i ∈ run, i.isLine = true)
    (untagged : tagsOf run = []) (h : Derives w out) : Derives (run ++ w) (remarksOf run ++ out) := by
  induction run with
  | nil => simpa using h
  | cons i run ih =>
    obtain ⟨_, later⟩ : i.tag?.toList = [] ∧ tagsOf run = [] := by simpa using untagged
    have rest := ih (fun j hj => lines j (by simp [hj])) later
    cases i with
    | remark c => exact .remark rest
    | variant argument line => simp [Item.tag?] at untagged
    | source path line => simp [Item.tag?] at untagged
    | statement s => simpa [Item.isLine] using lines _ (List.mem_cons_self ..)
    | declare name place => simpa [Item.isLine] using lines _ (List.mem_cons_self ..)
    | begin_ name line => simpa [Item.isLine] using lines _ (List.mem_cons_self ..)
    | end_ name place => simpa [Item.isLine] using lines _ (List.mem_cons_self ..)

/-- A word that goes on after lines holding the given tags: whatever the lines are, they may stand before it. -/
def Continues (pending : List Tag) (w : List Item) (out : List Stmt) : Prop :=
  ∀ run : List Item, (∀ i ∈ run, i.isLine = true) → tagsOf run = pending →
    Derives (run ++ w) (remarksOf run ++ out)

namespace Continues

variable {pending : List Tag} {w : List Item} {out : List Stmt}

theorem of_derives (h : Derives w out) : Continues [] w out :=
  fun _ lines untagged => h.remarks lines untagged

theorem derives (h : Continues [] w out) : Derives w out := by
  simpa using h [] (by simp) rfl

/-- One more line, which holds a tag or is a comment. -/
theorem line {i : Item} (hi : i.isLine = true)
    (h : Continues (pending ++ i.tag?.toList) w out) :
    Continues pending (i :: w) (i.remark?.toList ++ out) := by
  intro run lines ht
  have hw := h (run ++ [i]) (by
    intro j hj
    rcases List.mem_append.1 hj with hj | hj
    · exact lines j hj
    · rw [List.mem_singleton.1 hj]; exact hi) (by
    simp [ht])
  simpa using hw

theorem remark {c : Comment} (h : Continues pending w out) :
    Continues pending (.remark c :: w) (.comment c :: out) := by
  have hl : Item.isLine (.remark c) = true := rfl
  simpa [Item.remark?] using line hl (by simpa [Item.tag?] using h)

/-- Tags that name a source have no place before a statement. -/
theorem statement {s : Stmt} (noSource : ∀ t ∈ pending, t.family ≠ Tag.sourceFamily)
    (h : Continues [] w out) :
    Continues pending (.statement s :: w) (s.withTags (s.tags ++ pending) :: out) := by
  intro run lines ht
  subst ht
  refine .statement lines (fun i hi => ?_) h.derives
  cases i with
  | source path line =>
    have : ⟨Tag.sourceFamily, path, line⟩ ∈ tagsOf run := List.mem_filterMap.2 ⟨_, hi, rfl⟩
    exact absurd rfl (noSource _ this)
  | _ => rfl

theorem declare {name : String} {place : Span} (h : Continues [] w out) :
    Continues pending (.declare name place :: w) (declaredModule name pending place :: out) := by
  intro run lines ht
  subst ht
  exact .declare lines h.derives

theorem inline {inner : List Item} {body : List Stmt} {name : String} {line : Nat} {place : Span}
    (within : Continues [] inner body) (h : Continues [] w out) :
    Continues pending (.begin_ name line :: inner ++ .end_ name place :: w)
      (inlineModule name line pending body place :: out) := by
  intro run lines ht
  subst ht
  simpa using Derives.inline lines within.derives h.derives

end Continues

end TwinModule.Directive
