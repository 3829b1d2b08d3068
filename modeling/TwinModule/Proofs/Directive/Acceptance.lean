import TwinModule.Proofs.Directive.Derivation
/-!
Attaching directives accepts the grammar of blocks. A block with its directives in effect is the tree of a
derivation of its word, and a word without a derivation is refused with a complaint.
-/
set_option autoImplicit false

namespace TwinModule.Directive

/-- What an item does to the open modules of a block, if it is allowed there. -/
def Item.advance (modules : Bool) (o : OpenBlocks) : Item → Option OpenBlocks
  | .remark c => some ⟨o.top.push (.comment c), o.below⟩
  | .statement s =>
    if o.top.pending.any fun t => t.family == Tag.sourceFamily then none
    else some ⟨o.top.pushTagged s, o.below⟩
  | .variant argument line => some ⟨o.top.await ⟨Tag.variantFamily, argument, line⟩, o.below⟩
  | .source path line => some ⟨o.top.await ⟨Tag.sourceFamily, path, line⟩, o.below⟩
  | .declare name place =>
    if modules then
      some ⟨{ o.top with body := o.top.body ++ [declaredModule name o.top.pending place], pending := [] }, o.below⟩
    else none
  | .begin_ name line =>
    if modules then
      some ⟨OpenBlock.fresh (some (name, line)) o.top.pending, { o.top with pending := [] } :: o.below⟩
    else none
  | .end_ name place =>
    match modules, o.top.start, o.below with
    | true, some (started, line), outer :: below =>
      if started = name ∧ o.top.pending = [] then
        some ⟨outer.push (inlineModule started line o.top.tags o.top.body place), below⟩
      else none
    | _, _, _ => none

def advanceAll (modules : Bool) (o : OpenBlocks) (w : List Item) : Option OpenBlocks :=
  w.foldlM (fun o i => i.advance modules o) o

@[simp] theorem advanceAll_nil (modules : Bool) (o : OpenBlocks) : advanceAll modules o [] = some o := rfl

@[simp] theorem advanceAll_cons (modules : Bool) (o : OpenBlocks) (i : Item) (w : List Item) :
    advanceAll modules o (i :: w) = (i.advance modules o).bind fun next => advanceAll modules next w := rfl

theorem advanceAll_append (modules : Bool) (o : OpenBlocks) (v w : List Item) :
    advanceAll modules o (v ++ w) = (advanceAll modules o v).bind fun next => advanceAll modules next w := by
  simp [advanceAll, List.foldlM_append]

/-- The block once its word is read, if nothing is left open. -/
def closeAll (o : OpenBlocks) : Option (List Stmt) :=
  if o.top.start = none ∧ o.top.pending = [] then some o.top.body else none

theorem checkSources_eq_ok_iff (s : Stmt) (pending : List Tag) :
    checkSources s pending = .ok () ↔ (pending.any fun t => t.family == Tag.sourceFamily) = false := by
  unfold checkSources
  split
  · rename_i t ht
    have hm := List.mem_of_find?_eq_some ht
    have hf := List.find?_some ht
    simp only [complain, reduceCtorEq, false_iff, Bool.not_eq_false, List.any_eq_true]
    exact ⟨t, hm, hf⟩
  · rename_i hn
    simpa [List.find?_eq_none] using hn

theorem step_statement (modules : Bool) (o : OpenBlocks) {s : Stmt} (hs : s.isReal = true) :
    (step modules o s).toOption = (Item.statement s).advance modules o := by
  have hc := checkSources_eq_ok_iff s o.top.pending
  unfold step
  split
  · simp [Stmt.isReal, Stmt.isComment] at hs
  · split
    · rename_i hr
      simp only [hr, reduceCtorEq, false_iff, Bool.not_eq_false] at hc
      simp [Item.advance, hc, Except.toOption]
    · rename_i hr
      simp only [hr, true_iff] at hc
      simp [Item.advance, hc, Except.toOption]

theorem close_toOption (name : String) (line : Nat) (place : Span) (o : OpenBlocks) :
    (close name line place o).toOption = (Item.end_ name place).advance true o := by
  cases hs : o.top.start with
  | none => simp [close, Item.advance, hs, complain, Except.toOption]
  | some start =>
    obtain ⟨started, startLine⟩ := start
    cases hb : o.below with
    | nil => simp [close, Item.advance, hs, hb, complain, Except.toOption]
    | cons outer below =>
      by_cases hn : started = name
      · cases hp : o.top.pending with
        | nil => simp [close, Item.advance, hs, hb, hn, hp, checkDangling, Except.toOption]
        | cons t ts => simp [close, Item.advance, hs, hb, hn, hp, checkDangling, complain, Except.toOption]
      · simp [close, Item.advance, hs, hb, hn, complain, Except.toOption]

theorem apply_toOption (modules : Bool) (d : Directive) (place : Span) (o : OpenBlocks) :
    (apply modules d place o).toOption = (Item.ofDirective d place).advance modules o := by
  cases d with
  | mk line argument request =>
    cases request with
    | variant v => rfl
    | source path => rfl
    | declare name => cases modules <;> rfl
    | begin_ name => cases modules <;> rfl
    | end_ name =>
      cases modules with
      | false => rfl
      | true => exact close_toOption name line place o

theorem step_toOption (modules : Bool) (o : OpenBlocks) {s : Stmt} {i : Item} (h : Item.of? s = some i) :
    (step modules o s).toOption = i.advance modules o := by
  cases s with
  | comment c =>
    cases hc : inComment? c with
    | error f => simp [Item.of?, hc] at h
    | ok found =>
      cases found with
      | none =>
        simp only [Item.of?, hc, Option.some.injEq] at h
        subst h
        simp [step, hc, Item.advance, Except.toOption]
      | some d =>
        simp only [Item.of?, hc, Option.some.injEq] at h
        subst h
        simp [step, hc, apply_toOption]
  | _ =>
    simp only [Item.of?, Option.some.injEq] at h
    subst h
    exact step_statement modules o rfl

theorem steps_toOption (modules : Bool) (o : OpenBlocks) {ss : List Stmt} {w : List Item}
    (h : word? ss = some w) : (steps modules o ss).toOption = advanceAll modules o w := by
  induction ss generalizing o w with
  | nil =>
    simp only [word?, List.mapM_nil, Option.pure_def, Option.some.injEq] at h
    subst h
    rfl
  | cons s ss ih =>
    obtain ⟨i, hi, v, hv, rfl⟩ := word?_cons_eq_some_iff.1 h
    have hs := step_toOption modules o hi
    cases hr : step modules o s with
    | error f =>
      rw [advanceAll_cons, ← hs, hr]
      simp [steps, hr, Except.toOption]
    | ok next =>
      rw [advanceAll_cons, ← hs, hr]
      simp only [steps, hr]
      exact ih next hv

theorem finish_toOption (o : OpenBlocks) : (finish o).toOption = closeAll o := by
  cases hs : o.top.start with
  | some start => simp [finish, closeAll, hs, complain, Except.toOption]
  | none =>
    cases hp : o.top.pending with
    | nil => simp [finish, closeAll, hs, hp, checkDangling, Except.toOption]
    | cons t ts => simp [finish, closeAll, hs, hp, checkDangling, complain, Except.toOption]

/-- A block where no module is allowed is read like any other, as long as its word has none. -/
theorem advanceAll_false_eq_some_iff {o next : OpenBlocks} {w : List Item} :
    advanceAll false o w = some next ↔ advanceAll true o w = some next ∧ ∀ i ∈ w, i.isModule = false := by
  induction w generalizing o with
  | nil => simp
  | cons i w ih =>
    cases i with
    | remark c => simp [Item.advance, Item.isModule, ih]
    | statement s =>
      by_cases hp : (o.top.pending.any fun t => t.family == Tag.sourceFamily) = true
      · simp [Item.advance, hp]
      · simp [Item.advance, hp, Item.isModule, ih]
    | variant argument line => simp [Item.advance, Item.isModule, ih]
    | source path line => simp [Item.advance, Item.isModule, ih]
    | declare name place => simp [Item.advance, Item.isModule]
    | begin_ name line => simp [Item.advance, Item.isModule]
    | end_ name place => simp [Item.advance, Item.isModule]

section

variable {start : Option (String × Nat)} {tags pending : List Tag} {body : List Stmt} {below : List OpenBlock}

theorem advance_statement (s : Stmt) (noSource : ∀ t ∈ pending, t.family ≠ Tag.sourceFamily) :
    (Item.statement s).advance true ⟨⟨start, tags, body, pending⟩, below⟩ =
      some ⟨⟨start, tags, body ++ [s.withTags (s.tags ++ pending)], []⟩, below⟩ := by
  have h : (pending.any fun t => t.family == Tag.sourceFamily) = false := by simpa using noSource
  simp only [Item.advance, h, OpenBlock.pushTagged]
  rfl

/-- A run of lines adds its comments to the block and its tags to those that wait. -/
theorem advanceAll_lines {run : List Item} (lines : ∀ i ∈ run, i.isLine = true) :
    advanceAll true ⟨⟨start, tags, body, pending⟩, below⟩ run =
      some ⟨⟨start, tags, body ++ remarksOf run, pending ++ tagsOf run⟩, below⟩ := by
  induction run generalizing body pending with
  | nil => simp
  | cons i run ih =>
    have later : ∀ j ∈ run, j.isLine = true := fun j hj => lines j (by simp [hj])
    cases i with
    | remark c => simp [Item.advance, OpenBlock.push, Item.remark?, Item.tag?, ih later]
    | variant argument line => simp [Item.advance, OpenBlock.await, Item.remark?, Item.tag?, ih later]
    | source path line => simp [Item.advance, OpenBlock.await, Item.remark?, Item.tag?, ih later]
    | statement s => simpa [Item.isLine] using lines _ (List.mem_cons_self ..)
    | declare name place => simpa [Item.isLine] using lines _ (List.mem_cons_self ..)
    | begin_ name line => simpa [Item.isLine] using lines _ (List.mem_cons_self ..)
    | end_ name place => simpa [Item.isLine] using lines _ (List.mem_cons_self ..)

theorem family_of_mem_tagsOf {run : List Item} (noSource : ∀ i ∈ run, i.isSource = false) :
    ∀ t ∈ tagsOf run, t.family ≠ Tag.sourceFamily := by
  intro t ht
  obtain ⟨i, hi, hit⟩ := List.mem_filterMap.1 ht
  cases i with
  | variant argument line =>
    simp only [Item.tag?, Option.some.injEq] at hit
    subst hit
    simp [Tag.variantFamily, Tag.sourceFamily]
  | source path line => simpa [Item.isSource] using noSource _ hi
  | _ => simp [Item.tag?] at hit

/-- What is derived is read, whatever modules are open around it. -/
theorem advanceAll_of_derives {w : List Item} {out : List Stmt} (h : Derives w out) :
    advanceAll true ⟨⟨start, tags, body, []⟩, below⟩ w = some ⟨⟨start, tags, body ++ out, []⟩, below⟩ := by
  induction h generalizing start tags body below with
  | nil => simp
  | @remark c w out rest ih => simp [Item.advance, OpenBlock.push, ih]
  | @statement run w s out lines noSource rest ih =>
    have hs := family_of_mem_tagsOf noSource
    simp [advanceAll_append, advanceAll_lines lines, advance_statement s hs, ih]
  | @declare run w name place out lines rest ih =>
    simp [advanceAll_append, advanceAll_lines lines, Item.advance, ih]
  | @inline run inner w name line place body out lines within rest ihWithin ih =>
    simp [advanceAll_append, advanceAll_lines lines, Item.advance, OpenBlock.fresh, ihWithin, OpenBlock.push, ih]

end

/-- The modules that are open around a block are the ones below it. -/
def Nested : OpenBlock → List OpenBlock → Prop
  | b, [] => b.start = none
  | b, outer :: below => b.start.isSome = true ∧ Nested outer below

theorem Nested.congr {b c : OpenBlock} {below : List OpenBlock} (h : Nested b below)
    (hs : b.start = c.start) : Nested c below := by
  cases below with
  | nil => exact hs.symm.trans h
  | cons outer below => exact ⟨hs ▸ h.1, h.2⟩

/-- A word that ends the open modules one after the other, each after items that may stand in it, and what the
block is then. -/
def Completes : List OpenBlock → OpenBlock → List Item → List Stmt → Prop
  | [], top, w, result => ∃ out, Continues top.pending w out ∧ result = top.body ++ out
  | outer :: below, top, w, result =>
    ∃ name line inner place rest out, top.start = some (name, line) ∧ w = inner ++ .end_ name place :: rest ∧
      Continues top.pending inner out ∧
      Completes below (outer.push (inlineModule name line top.tags (top.body ++ out) place)) rest result

/-- Items in front are read first. -/
theorem Completes.prepend {below : List OpenBlock} {top next : OpenBlock} {w : List Item} {result : List Stmt}
    (h : Completes below next w result) (v : List Item) (front : List Stmt) (hs : next.start = top.start)
    (ht : next.tags = top.tags) (hb : next.body = top.body ++ front)
    (hv : ∀ u out, Continues next.pending u out → Continues top.pending (v ++ u) (front ++ out)) :
    Completes below top (v ++ w) result := by
  cases below with
  | nil =>
    obtain ⟨out, hw, hr⟩ := h
    exact ⟨front ++ out, hv _ _ hw, by simp [hr, hb]⟩
  | cons outer below =>
    obtain ⟨name, line, inner, place, rest, out, hstart, hw, hinner, hrest⟩ := h
    refine ⟨name, line, v ++ inner, place, rest, front ++ out, hs ▸ hstart, by simp [hw], hv _ _ hinner, ?_⟩
    simpa [hb, ht] using hrest

theorem completes_of_advanceAll {top : OpenBlock} {below : List OpenBlock} {next : OpenBlocks} {w : List Item}
    {result : List Stmt} (hw : advanceAll true ⟨top, below⟩ w = some next) (hc : closeAll next = some result)
    (hn : Nested top below) : Completes below top w result := by
  -- By the word, from its front: the stack tells which ends are still to come, one for each block below the first.
  induction w generalizing top below with
  | nil =>
    simp only [advanceAll_nil, Option.some.injEq] at hw
    subst hw
    simp only [closeAll, Option.ite_none_right_eq_some, Option.some.injEq] at hc
    obtain ⟨⟨hs, hp⟩, rfl⟩ := hc
    cases below with
    | nil => exact ⟨[], hp ▸ .of_derives .nil, by simp⟩
    | cons outer below => simp [Nested, hs] at hn
  | cons i w ih =>
    simp only [advanceAll_cons, Option.bind_eq_some_iff] at hw
    obtain ⟨mid, hi, hw⟩ := hw
    cases i with
    | remark c =>
      simp only [Item.advance, Option.some.injEq] at hi
      subst hi
      have hrest := ih hw (hn.congr rfl)
      exact hrest.prepend [.remark c] [.comment c] rfl rfl rfl fun _ _ h => h.remark
    | statement s =>
      simp only [Item.advance, Option.ite_none_left_eq_some, Option.some.injEq] at hi
      obtain ⟨noSource, rfl⟩ := hi
      have families : ∀ t ∈ top.pending, t.family ≠ Tag.sourceFamily := by simpa using noSource
      have hrest := ih hw (hn.congr rfl)
      exact hrest.prepend [.statement s] [s.withTags (s.tags ++ top.pending)] rfl rfl rfl
        fun _ _ h => h.statement families
    | variant argument line =>
      simp only [Item.advance, Option.some.injEq] at hi
      subst hi
      have hrest := ih hw (hn.congr rfl)
      exact hrest.prepend [.variant argument line] [] rfl rfl (by simp [OpenBlock.await]) fun _ _ h => .line rfl h
    | source path line =>
      simp only [Item.advance, Option.some.injEq] at hi
      subst hi
      have hrest := ih hw (hn.congr rfl)
      exact hrest.prepend [.source path line] [] rfl rfl (by simp [OpenBlock.await]) fun _ _ h => .line rfl h
    | declare name place =>
      simp only [Item.advance, if_true, Option.some.injEq] at hi
      subst hi
      have hrest := ih hw (hn.congr rfl)
      exact hrest.prepend [.declare name place] [declaredModule name top.pending place] rfl rfl rfl
        fun _ _ h => h.declare
    | begin_ name line =>
      simp only [Item.advance, if_true, Option.some.injEq] at hi
      subst hi
      -- The rest of the word ends this module first, and what comes after its end belongs to the module around it.
      obtain ⟨_, _, inner, place, rest, out, hs, rfl, hinner, hrest⟩ := ih hw ⟨rfl, hn.congr rfl⟩
      simp only [OpenBlock.fresh, Option.some.injEq, Prod.mk.injEq] at hs
      obtain ⟨rfl, rfl⟩ := hs
      have hall : Completes below top ((.begin_ name line :: inner ++ [.end_ name place]) ++ rest) result :=
        hrest.prepend _ [inlineModule name line top.pending out place] rfl rfl rfl
          fun u later h => by simpa using hinner.inline h
      simpa using hall
    | end_ name place =>
      cases hs : top.start with
      | none => simp [Item.advance, hs] at hi
      | some start =>
        obtain ⟨started, line⟩ := start
        cases below with
        | nil => simp [Item.advance, hs] at hi
        | cons outer below =>
          simp only [Item.advance, hs, Option.ite_none_right_eq_some, Option.some.injEq] at hi
          obtain ⟨⟨rfl, hp⟩, rfl⟩ := hi
          have hrest := ih hw (hn.2.congr rfl)
          refine ⟨started, line, [], place, w, [], hs, rfl, hp ▸ .of_derives .nil, ?_⟩
          simpa using hrest

/-- A block is read as its word is. -/
theorem group_toOption (modules : Bool) {ss : List Stmt} {w : List Item} (hw : word? ss = some w) :
    (group modules ss).toOption = (advanceAll modules ⟨OpenBlock.fresh none [], []⟩ w).bind closeAll := by
  have hs := steps_toOption modules ⟨OpenBlock.fresh none [], []⟩ hw
  simp only [group]
  rw [← hs]
  split
  · rename_i f hf
    simp [hf, Except.toOption]
  · rename_i o ho
    rw [ho]
    exact finish_toOption o

/-- A block has its directives in effect if its word is derived, and the derivation says how. -/
theorem group_eq_ok_iff {modules : Bool} {ss : List Stmt} {w : List Item} {out : List Stmt}
    (hw : word? ss = some w) :
    group modules ss = .ok out ↔ Derives w out ∧ (modules = false → ∀ i ∈ w, i.isModule = false) := by
  have hg := group_toOption modules hw
  have hsome : group modules ss = .ok out ↔ (group modules ss).toOption = some out := by
    cases group modules ss <;> simp [Except.toOption]
  have hread : (advanceAll true ⟨OpenBlock.fresh none [], []⟩ w).bind closeAll = some out ↔ Derives w out := by
    constructor
    · intro h
      obtain ⟨next, hn, hc⟩ := Option.bind_eq_some_iff.1 h
      obtain ⟨_, hd, rfl⟩ := completes_of_advanceAll hn hc rfl
      simpa [OpenBlock.fresh] using hd.derives
    · intro h
      rw [OpenBlock.fresh, advanceAll_of_derives h]
      simp [closeAll]
  rw [hsome, hg]
  cases modules with
  | true => simpa using hread
  | false =>
    rw [← hread]
    simp only [Option.bind_eq_some_iff, advanceAll_false_eq_some_iff, true_implies]
    constructor
    · rintro ⟨next, ⟨hn, hi⟩, hc⟩
      exact ⟨⟨next, hn, hc⟩, hi⟩
    · rintro ⟨⟨next, hn, hc⟩, hi⟩
      exact ⟨next, ⟨hn, hi⟩, hc⟩

/-- A complaint about a directive or about what it is put on, with its line. -/
def IsRefusal (f : Failure) : Prop :=
  ∃ what line, f = .complaint what none (some line) ∧ (what.kind = .malformed ∨ what.kind = .target)

theorem isRefusal_of_complain {α : Type} {line : Nat} {what : Complaint} {f : Failure}
    (hk : what.kind = .malformed ∨ what.kind = .target)
    (h : (complain line what : Except Failure α) = .error f) : IsRefusal f := by
  cases h
  exact ⟨what, line, rfl, hk⟩

theorem isRefusal_of_checkDangling {pending : List Tag} {before : DanglingEnd} {f : Failure}
    (h : checkDangling pending before = .error f) : IsRefusal f := by
  cases pending with
  | nil => cases h
  | cons t ts => exact isRefusal_of_complain (.inl rfl) h

theorem isRefusal_of_checkSources {s : Stmt} {pending : List Tag} {f : Failure}
    (h : checkSources s pending = .error f) : IsRefusal f := by
  unfold checkSources at h
  split at h
  · exact isRefusal_of_complain (.inr rfl) h
  · cases h

theorem isRefusal_of_close {name : String} {line : Nat} {place : Span} {o : OpenBlocks} {f : Failure}
    (h : close name line place o = .error f) : IsRefusal f := by
  unfold close at h
  split at h
  · split at h
    · split at h
      · rename_i hd
        cases h
        exact isRefusal_of_checkDangling hd
      · cases h
    · exact isRefusal_of_complain (.inl rfl) h
  · exact isRefusal_of_complain (.inl rfl) h

theorem isRefusal_of_apply {modules : Bool} {d : Directive} {place : Span} {o : OpenBlocks} {f : Failure}
    (h : apply modules d place o = .error f) : IsRefusal f := by
  unfold apply at h
  split at h
  · cases h
  · split at h
    · exact isRefusal_of_complain (.inr rfl) h
    · split at h
      · cases h
      · cases h
      · exact isRefusal_of_close h
      · cases h

theorem isRefusal_of_step {modules : Bool} {o : OpenBlocks} {s : Stmt} {i : Item} {f : Failure}
    (hi : Item.of? s = some i) (h : step modules o s = .error f) : IsRefusal f := by
  unfold step at h
  split at h
  · split at h
    · rename_i hc
      simp [Item.of?, hc] at hi
    · exact isRefusal_of_apply h
    · cases h
  · split at h
    · rename_i hs
      cases h
      exact isRefusal_of_checkSources hs
    · cases h

theorem isRefusal_of_steps {modules : Bool} {o : OpenBlocks} {ss : List Stmt} {w : List Item} {f : Failure}
    (hw : word? ss = some w) (h : steps modules o ss = .error f) : IsRefusal f := by
  induction ss generalizing o w with
  | nil => cases h
  | cons s ss ih =>
    obtain ⟨i, hi, v, hv, rfl⟩ := word?_cons_eq_some_iff.1 hw
    simp only [steps] at h
    split at h
    · rename_i hs
      cases h
      exact isRefusal_of_step hi hs
    · exact ih hv h

theorem isRefusal_of_finish {o : OpenBlocks} {f : Failure} (h : finish o = .error f) : IsRefusal f := by
  unfold finish at h
  split at h
  · exact isRefusal_of_complain (.inl rfl) h
  · split at h
    · rename_i hd
      cases h
      exact isRefusal_of_checkDangling hd
    · cases h

/-- Attaching accepts the words of the grammar, those with modules only where modules are allowed, and gives the
tree of the derivation. It refuses all other words. -/
theorem group_accepts_grammar (modules : Bool) (ss : List Stmt) (w : List Item) (hw : word? ss = some w) :
    (∀ out, group modules ss = .ok out ↔
      Derives w out ∧ (modules = false → ∀ i ∈ w, i.isModule = false)) ∧
    (∀ f, group modules ss = .error f → IsRefusal f) := by
  refine ⟨fun out => group_eq_ok_iff hw, fun f h => ?_⟩
  unfold group at h
  split at h
  · rename_i hs
    cases h
    exact isRefusal_of_steps hw hs
  · exact isRefusal_of_finish h

/-- A module with a statement for one variant in it, the whole module being for the other one. -/
def taggedModule : List Stmt :=
  [.comment ⟨"# amphi: asynchronous", false, ⟨some 1, some 0, some 1, some 21⟩⟩,
   .comment ⟨"# amphi-begin: a", false, ⟨some 2, some 0, some 2, some 16⟩⟩,
   .comment ⟨"# amphi: blocking", false, ⟨some 3, some 0, some 3, some 17⟩⟩,
   .comment ⟨"# plain", false, ⟨some 4, some 0, some 4, some 7⟩⟩,
   .pass ⟨some 5, some 0, some 5, some 4⟩,
   .comment ⟨"# amphi-end: a", false, ⟨some 6, some 0, some 6, some 14⟩⟩]

def taggedModuleWord : List Item :=
  [.variant "asynchronous" 1, .begin_ "a" 2, .variant "blocking" 3,
   .remark ⟨"# plain", false, ⟨some 4, some 0, some 4, some 7⟩⟩,
   .statement (.pass ⟨some 5, some 0, some 5, some 4⟩), .end_ "a" ⟨some 6, some 0, some 6, some 14⟩]

set_option maxRecDepth 4096 in
theorem group_accepts_taggedModule :
    word? taggedModule = some taggedModuleWord ∧
    group true taggedModule = .ok [.block ⟨⟨some 2, some 0, some 6, some 14⟩, [⟨"amphi", "asynchronous", 1⟩]⟩
      (.module_ "a") [.comment ⟨"# plain", false, ⟨some 4, some 0, some 4, some 7⟩⟩,
        .simple ⟨⟨some 5, some 0, some 5, some 4⟩, [⟨"amphi", "blocking", 3⟩]⟩ .pass]] := by
  have hw : word? taggedModule = some taggedModuleWord := by rfl
  refine ⟨hw, ((group_accepts_grammar true taggedModule taggedModuleWord hw).1 _).2 ⟨?_, by simp⟩⟩
  have outside : ∀ i ∈ [Item.variant "asynchronous" 1], i.isLine = true := by simp [Item.isLine]
  have lines : ∀ i ∈ [Item.variant "blocking" 3, .remark ⟨"# plain", false, ⟨some 4, some 0, some 4, some 7⟩⟩],
      i.isLine = true := by simp [Item.isLine]
  exact .inline outside
    (.statement lines (by simp [Item.isSource]) .nil) .nil

end TwinModule.Directive
