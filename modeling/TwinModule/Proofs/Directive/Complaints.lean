import TwinModule.Proofs.Directive.Attached
/-!
What complaints about the directives of a text are about: each names the line of a comment that is refused, or that is
the directive in question.
-/
set_option autoImplicit false

namespace TwinModule

/-- Whether a directive is the one that a complaint is about, or declares the module that it is about. -/
def Complaint.Regards (d : Directive) : Complaint → Prop
  | .moduleInBlock argument => d.moduleName?.isSome = true ∧ d.argument = argument
  | .pathOnStatement .. => ∃ path, d.request = .source path
  | .dangling _ line => d.tag?.isSome = true ∧ d.line = line
  | .misplaced family argument => d.family = family ∧ d.argument = argument
  | .inlineDirective line => d.line = line
  | .endWithoutStart name line => d.request = .end_ name ∧ d.line = line
  | .endOfOther name line .. => d.request = .end_ name ∧ d.line = line
  | .neverEnded name line => d.request = .begin_ name ∧ d.line = line
  | .bodyAndPath name _ | .noSourceRoot name | .notFound name _ | .cycle name _ =>
    d.request = .declare name ∨ d.request = .begin_ name
  | _ => False

/-- Whether a complaint about a line is about the comment on it: that is refused as a directive, or it is the directive
in question. -/
def Complaint.IsAbout (what : Complaint) (line : Nat) (text : String) : Prop :=
  Directive.ofComment? line text = .error (.complaint what none (some line)) ∨
    ∃ d, Directive.ofComment? line text = .ok (some d) ∧ what.Regards d

/-- What is not complained about before a tree is converted: a module that has a body and is to be read from a file. -/
def Complaint.isBodyAndPath : Complaint → Bool
  | .bodyAndPath .. => true
  | _ => false

/-- What is complained about when the directives of a text are read: how they are written, and where they stand. -/
def Complaint.isOfDirectives (what : Complaint) : Bool :=
  (what.kind == .malformed || what.kind == .target) && !what.isBodyAndPath

theorem Complaint.isBodyAndPath_eq_false {what : Complaint} (h : what.isOfDirectives = true) : what.isBodyAndPath = false := by
  simp only [isOfDirectives, Bool.and_eq_true, Bool.not_eq_true'] at h
  exact h.2

theorem Complaint.kind_of_isOfDirectives {what : Complaint} (h : what.isOfDirectives = true) :
    what.kind = .malformed ∨ what.kind = .target := by
  simpa only [isOfDirectives, Bool.and_eq_true, Bool.or_eq_true, beq_iff_eq] using (Bool.and_eq_true_iff.1 h).1

/-- A complaint has no file yet, and names the line of a comment that it is about. Any other failure is that of a
comment that is refused. -/
structure Failure.Cites (p : Comment → Prop) (f : Failure) : Prop where
  complaint : ∀ what file line, f = .complaint what file line →
    file = none ∧ what.isOfDirectives = true ∧
      ∃ c, p c ∧ line = some (c.span.line.getD 1) ∧ what.IsAbout (c.span.line.getD 1) c.text
  other : f.isComplaint = false → ∃ c line, p c ∧ Directive.ofComment? line c.text = .error f

namespace Directive

variable {p : Comment → Prop} {c : Comment} {d : Directive} {f : Failure}

theorem isOfDirectives_of_moduleName {argument : List Char} {what : Complaint}
    (h : moduleName argument = .error what) : what.isOfDirectives = true := by
  unfold moduleName at h
  split at h
  · cases h
  · cases h
    rfl

theorem complaint_of_requestOf? {line : Nat} {family : String} {argument : List Char} {what : Complaint}
    {file : Option String} {at_ : Option Nat}
    (h : requestOf? line family argument = .error (.complaint what file at_)) :
    file = none ∧ what.isOfDirectives = true ∧ at_ = some line := by
  simp only [requestOf?] at h
  repeat' split at h
  all_goals cases h
  -- A name that is refused is complained about in one place for all families.
  all_goals first | exact ⟨rfl, rfl, rfl⟩ | exact ⟨rfl, isOfDirectives_of_moduleName ‹_›, rfl⟩

/-- A comment that is refused is refused on its line. -/
theorem complaint_of_ofComment? {line : Nat} {text : String} {what : Complaint} {file : Option String}
    {at_ : Option Nat} (h : ofComment? line text = .error (.complaint what file at_)) :
    file = none ∧ what.isOfDirectives = true ∧ at_ = some line := by
  simp only [ofComment?] at h
  split at h
  · cases h
  · split at h
    · rename_i hrequest
      cases h
      exact complaint_of_requestOf? hrequest
    · cases h
    · cases h
      exact ⟨rfl, rfl, rfl⟩

/-- A complaint about a directive is about the comment that it is in. -/
theorem cites_of_regards {what : Complaint} (hc : p c) (hd : inComment? c = .ok (some d))
    (hwhat : what.isOfDirectives = true) (h : what.Regards d) :
    (Failure.complaint what none (some d.line)).Cites p := by
  have hof := ofComment?_of_inComment? hd
  refine ⟨?_, by simp [Failure.isComplaint]⟩
  rintro _ _ _ ⟨⟩
  exact ⟨rfl, hwhat, c, hc, by rw [ofComment?_line hof], .inr ⟨d, hof, h⟩⟩

theorem cites_of_inComment? (hc : p c) (h : inComment? c = .error f) : f.Cites p := by
  cases hof : ofComment? (c.span.line.getD 1) c.text with
  | error refused =>
    simp only [inComment?, hof] at h
    cases h
    refine ⟨?_, fun _ => ⟨c, _, hc, hof⟩⟩
    rintro what file line rfl
    obtain ⟨rfl, hwhat, rfl⟩ := complaint_of_ofComment? hof
    exact ⟨rfl, hwhat, c, hc, rfl, .inl hof⟩
  | ok found =>
    cases found with
    | none => simp [inComment?, hof] at h
    | some d =>
      simp only [inComment?, hof] at h
      split at h
      · cases h
        refine ⟨?_, by simp [Failure.isComplaint]⟩
        rintro _ _ _ ⟨⟩
        exact ⟨rfl, rfl, c, hc, rfl, .inr ⟨d, hof, ofComment?_line hof⟩⟩
      · cases h

/-- A result is of a kind, and a failure cites a comment. -/
def Checked {α : Type} (p : Comment → Prop) (q : α → Prop) : Except Failure α → Prop
  | .ok a => q a
  | .error f => f.Cites p

theorem Checked.bind {α β : Type} {q : α → Prop} {q' : β → Prop} {x : Except Failure α} {g : α → Except Failure β}
    (hx : Checked p q x) (hg : ∀ a, q a → Checked p q' (g a)) : Checked p q' (x >>= g) := by
  cases x with
  | error f => exact hx
  | ok a => exact hg a hx

theorem checked_inComment? (hc : p c) : Checked p (fun found => inComment? c = .ok found) (inComment? c) := by
  cases h : inComment? c with
  | error f => exact cites_of_inComment? hc h
  | ok found => exact rfl

/-- A directive that is in a comment of a kind. -/
def Given (p : Comment → Prop) (d : Directive) : Prop := ∃ c, p c ∧ inComment? c = .ok (some d)

theorem Given.cites {what : Complaint} (hd : Given p d) (hwhat : what.isOfDirectives = true) (h : what.Regards d) :
    (Failure.complaint what none (some d.line)).Cites p := by
  obtain ⟨c, hc, hd⟩ := hd
  exact cites_of_regards hc hd hwhat h

def TagsFrom (p : Comment → Prop) (ts : List Tag) : Prop := ∀ t ∈ ts, ∃ d, Given p d ∧ d.tag? = some t

/-- The tags that wait and the begin of an open module come from comments of a kind. -/
structure BlockFrom (p : Comment → Prop) (b : OpenBlock) : Prop where
  pending : TagsFrom p b.pending
  start : ∀ name line, b.start = some (name, line) → ∃ d, Given p d ∧ d.request = .begin_ name ∧ d.line = line

def BlocksFrom (p : Comment → Prop) (o : OpenBlocks) : Prop := BlockFrom p o.top ∧ ∀ b ∈ o.below, BlockFrom p b

theorem tagsFrom_nil : TagsFrom p [] := by simp [TagsFrom]

theorem line_of_tag? {t : Tag} (h : d.tag? = some t) : t.line = d.line := by
  obtain ⟨line, argument, request⟩ := d
  cases request <;> cases h <;> rfl

theorem moduleName?_of_tag? (h : d.tag? = none) : d.moduleName?.isSome = true := by
  obtain ⟨line, argument, request⟩ := d
  cases request with
  | variant v => cases h
  | source path => cases h
  | _ => rfl

theorem source_of_tag? {t : Tag} (h : d.tag? = some t) (hfamily : t.family = Tag.sourceFamily) :
    ∃ path, d.request = .source path := by
  obtain ⟨line, argument, request⟩ := d
  cases request with
  | variant v =>
    cases h
    exact absurd hfamily (show Tag.variantFamily ≠ Tag.sourceFamily by decide)
  | source path => exact ⟨path, rfl⟩
  | _ => cases h

theorem checked_checkSources {s : Stmt} {pending : List Tag} (hp : TagsFrom p pending) :
    Checked p (fun _ => True) (checkSources s pending) := by
  unfold checkSources
  split
  · rename_i t ht
    obtain ⟨d, hd, htag⟩ := hp t (List.mem_of_find?_eq_some ht)
    have hfamily : t.family = Tag.sourceFamily := by simpa using List.find?_some ht
    rw [line_of_tag? htag]
    exact hd.cites rfl (source_of_tag? htag hfamily)
  · trivial

theorem checked_checkDangling (before : DanglingEnd) {pending : List Tag} (hp : TagsFrom p pending) :
    Checked p (fun _ => True) (checkDangling pending before) := by
  unfold checkDangling
  split
  · rename_i t rest
    obtain ⟨d, hd, htag⟩ := hp t (List.mem_cons_self ..)
    rw [line_of_tag? htag]
    exact hd.cites rfl ⟨by simp [htag], rfl⟩
  · trivial

variable {o : OpenBlocks}

theorem checked_close {name : String} (hd : Given p d) (hrequest : d.request = .end_ name) (ho : BlocksFrom p o)
    (place : Span) : Checked p (BlocksFrom p) (close name d.line place o) := by
  unfold close
  split
  · rename_i started startLine outer below hstart hbelow
    split
    · have hdangling := checked_checkDangling (.module_ started) ho.1.pending
      split
      · rename_i hcheck
        rwa [hcheck] at hdangling
      · have hall := ho.2
        rw [hbelow] at hall
        obtain ⟨houter, hrest⟩ := List.forall_mem_cons.1 hall
        exact ⟨⟨houter.pending, houter.start⟩, hrest⟩
    · exact hd.cites rfl ⟨hrequest, rfl⟩
  · exact hd.cites rfl ⟨hrequest, rfl⟩

theorem checked_apply (modules : Bool) (hd : Given p d) (ho : BlocksFrom p o) (place : Span) :
    Checked p (BlocksFrom p) (apply modules d place o) := by
  unfold apply
  split
  · rename_i t ht
    refine ⟨⟨?_, ho.1.start⟩, ho.2⟩
    intro u hu
    rcases List.mem_append.1 hu with hu | hu
    · exact ho.1.pending u hu
    · rw [List.mem_singleton.1 hu]
      exact ⟨d, hd, ht⟩
  · rename_i hnone
    split
    · exact hd.cites rfl ⟨moduleName?_of_tag? hnone, rfl⟩
    · split
      · exact ⟨⟨tagsFrom_nil, ho.1.start⟩, ho.2⟩
      · rename_i name hrequest
        refine ⟨⟨tagsFrom_nil, ?_⟩, List.forall_mem_cons.2 ⟨⟨tagsFrom_nil, ho.1.start⟩, ho.2⟩⟩
        rintro _ _ ⟨⟩
        exact ⟨d, hd, hrequest, rfl⟩
      · rename_i name hrequest
        exact checked_close hd hrequest ho place
      · exact ho

theorem checked_step (modules : Bool) {s : Stmt} (hs : ∀ c, s = .comment c → p c) (ho : BlocksFrom p o) :
    Checked p (BlocksFrom p) (step modules o s) := by
  unfold step
  split
  · rename_i c
    have hcomment := checked_inComment? (hs c rfl)
    split
    · rename_i hfound
      rwa [hfound] at hcomment
    · rename_i d hfound
      exact checked_apply modules ⟨c, hs c rfl, hfound⟩ ho c.span
    · exact ⟨⟨ho.1.pending, ho.1.start⟩, ho.2⟩
  · have hsources := checked_checkSources (s := s) ho.1.pending
    split
    · rename_i hcheck
      rwa [hcheck] at hsources
    · exact ⟨⟨tagsFrom_nil, ho.1.start⟩, ho.2⟩

/-- What is true of the comments right in a block. -/
def CommentsOf (p : Comment → Prop) (ss : List Stmt) : Prop := ∀ s ∈ ss, ∀ c, s = .comment c → p c

theorem checked_steps (modules : Bool) {ss : List Stmt} (hss : CommentsOf p ss) (ho : BlocksFrom p o) :
    Checked p (BlocksFrom p) (steps modules o ss) := by
  induction ss generalizing o with
  | nil => exact ho
  | cons s ss ih =>
    obtain ⟨hs, hss⟩ := List.forall_mem_cons.1 hss
    have hstep := checked_step modules hs ho
    unfold steps
    split
    · rename_i hnext
      rwa [hnext] at hstep
    · rename_i next hnext
      rw [hnext] at hstep
      exact ih hss hstep

theorem checked_finish (ho : BlocksFrom p o) : Checked p (fun _ => True) (finish o) := by
  unfold finish
  split
  · rename_i name line hstart
    obtain ⟨d, hd, hrequest, rfl⟩ := ho.1.start name line hstart
    exact hd.cites rfl ⟨hrequest, rfl⟩
  · have hdangling := checked_checkDangling .block ho.1.pending
    split
    · rename_i hcheck
      rwa [hcheck] at hdangling
    · trivial

theorem checked_group (modules : Bool) {ss : List Stmt} (hss : CommentsOf p ss) :
    Checked p (fun _ => True) (group modules ss) := by
  have hfresh : BlocksFrom p ⟨OpenBlock.fresh none [], []⟩ := ⟨⟨tagsFrom_nil, nofun⟩, by simp⟩
  have hsteps := checked_steps modules hss hfresh
  unfold group
  split
  · rename_i hopen
    rwa [hopen] at hsteps
  · rename_i open_ hopen
    rw [hopen] at hsteps
    exact checked_finish hsteps

theorem checked_checkLoose (hc : p c) : Checked p (fun _ => True) (checkLoose c) := by
  have hcomment := checked_inComment? hc
  unfold checkLoose
  split
  · rename_i hfound
    rwa [hfound] at hcomment
  · trivial
  · rename_i d hfound
    exact cites_of_regards hc hfound rfl ⟨rfl, rfl⟩

theorem checked_checkHandlers {hs : List Handler} (h : ∀ c, .comment c ∈ hs → p c) :
    Checked p (fun _ => True) (checkHandlers hs) := by
  induction hs with
  | nil => trivial
  | cons a hs ih =>
    have hrest := ih fun c hc => h c (List.mem_cons_of_mem _ hc)
    cases a with
    | comment c => exact (checked_checkLoose (h c (List.mem_cons_self ..))).bind fun _ _ => hrest
    | handler span type name body => exact hrest

theorem checked_checkCases {cs : List Case} (h : ∀ c, .comment c ∈ cs → p c) :
    Checked p (fun _ => True) (checkCases cs) := by
  induction cs with
  | nil => trivial
  | cons a cs ih =>
    have hrest := ih fun c hc => h c (List.mem_cons_of_mem _ hc)
    cases a with
    | comment c => exact (checked_checkLoose (h c (List.mem_cons_self ..))).bind fun _ _ => hrest
    | case lines pattern guard body => exact hrest

open Comments

mutual

/-- Whatever goes wrong when the directives in a statement are put into effect is about a comment in it. -/
theorem checked_attach {outer : Bool} : (s : Stmt) → s.Obeys (commented p) outer →
    Checked p (fun s' => ∀ c, s' = .comment c → p c) s.attach
  | .simple info what, _ => nofun
  | .comment c, h => by
    rintro _ ⟨⟩
    exact h
  | .block info head body, ⟨_, _, hb⟩ =>
    (checked_attachStmts body hb).bind fun _ hbody => (checked_group head.isModule hbody).bind fun _ _ => nofun
  | .branch info head body orelse, ⟨_, ⟨_, hb⟩, _, ho⟩ =>
    (checked_attachStmts body hb).bind fun _ hbody => (checked_group false hbody).bind fun _ _ =>
      (checked_attachStmts orelse ho).bind fun _ horelse => (checked_group false horelse).bind fun _ _ => nofun
  | .attempt info isGroup body handlers orelse finalbody, ⟨_, ⟨_, hb⟩, hh, ⟨_, ho⟩, _, hf⟩ =>
    (checked_attachStmts body hb).bind fun _ hbody => (checked_group false hbody).bind fun _ _ =>
      (checked_attachHandlers handlers hh).bind fun _ hhandlers =>
        (checked_checkHandlers hhandlers).bind fun _ _ =>
          (checked_attachStmts orelse ho).bind fun _ horelse => (checked_group false horelse).bind fun _ _ =>
            (checked_attachStmts finalbody hf).bind fun _ hfinal => (checked_group false hfinal).bind fun _ _ => nofun
  | .select info subject cases, ⟨_, hc⟩ =>
    (checked_attachCases cases hc).bind fun _ hcases => (checked_checkCases hcases).bind fun _ _ => nofun

theorem checked_attachStmts {outer : Bool} : (ss : List Stmt) → stmtsObey (commented p) outer ss →
    Checked p (CommentsOf p) (attachStmts ss)
  | [], _ => by simp [attachStmts, Checked, CommentsOf]
  | s :: ss, ⟨hs, hss⟩ =>
    (checked_attach s hs).bind fun _ hfirst => (checked_attachStmts ss hss).bind fun _ hrest =>
      List.forall_mem_cons.2 ⟨hfirst, hrest⟩

theorem checked_attachHandlers : (hs : List Handler) → handlersObey (commented p) hs →
    Checked p (fun out => ∀ c, .comment c ∈ out → p c) (attachHandlers hs)
  | [], _ => by simp [attachHandlers, Checked]
  | .comment c :: hs, ⟨hc, hhs⟩ => by
    refine (checked_attachHandlers hs hhs).bind fun _ hrest k hk => ?_
    rcases List.mem_cons.1 hk with e | hk
    · cases e
      exact hc
    · exact hrest k hk
  | .handler span type name body :: hs, ⟨⟨_, hb⟩, hhs⟩ => by
    refine (checked_attachStmts body hb).bind fun _ hbody => (checked_group false hbody).bind fun _ _ =>
      (checked_attachHandlers hs hhs).bind fun _ hrest k hk => ?_
    rcases List.mem_cons.1 hk with e | hk
    · cases e
    · exact hrest k hk

theorem checked_attachCases : (cs : List Case) → casesObey (commented p) cs →
    Checked p (fun out => ∀ c, .comment c ∈ out → p c) (attachCases cs)
  | [], _ => by simp [attachCases, Checked]
  | .comment c :: cs, ⟨hc, hcs⟩ => by
    refine (checked_attachCases cs hcs).bind fun _ hrest k hk => ?_
    rcases List.mem_cons.1 hk with e | hk
    · cases e
      exact hc
    · exact hrest k hk
  | .case lines pattern guard body :: cs, ⟨⟨_, hb⟩, hcs⟩ => by
    refine (checked_attachStmts body hb).bind fun _ hbody => (checked_group false hbody).bind fun _ _ =>
      (checked_attachCases cs hcs).bind fun _ hrest k hk => ?_
    rcases List.mem_cons.1 hk with e | hk
    · cases e
    · exact hrest k hk

end

theorem checked_attachBody {body : List Stmt} (h : stmtsObey (commented p) true body) :
    Checked p (fun _ => True) (attachBody body) :=
  (checked_attachStmts body h).bind fun _ hinner => checked_group true hinner

end Directive

/-- A complaint points into a text: the line that it names holds a comment that it is about. -/
def Complaint.PointsInto (what : Complaint) (source : String) (line : Nat) : Prop :=
  ∃ c text, Comments.Scanned source c ∧ (Text.allLines source.toList)[line - 1]? = some text ∧
    Comments.IsOn line text c ∧ what.IsAbout line c.text

theorem Complaint.pointsInto_of_scanned {what : Complaint} {source : String} {c : Comment}
    (hc : Comments.Scanned source c) (h : what.IsAbout (c.span.line.getD 1) c.text) :
    what.PointsInto source (c.span.line.getD 1) := by
  obtain ⟨number, text, htext, hon⟩ := hc.isOn
  rw [hon.1, Option.getD_some] at h ⊢
  exact ⟨c, text, hc, htext, hon, h⟩

/-- Before the directives come into effect nothing is complained about. -/
theorem readAnnotated_ne_complaint {file : String} {source : List Char} {what : Complaint} {file' : Option String}
    {line : Option Nat} : readAnnotated file source ≠ .error (.complaint what file' line) := by
  unfold readAnnotated
  repeat' split
  all_goals exact nofun

open Directive in
/-- A complaint about a source that is read has the file of the source, and points into the source. -/
theorem pointsInto_of_readSource {file source : String} {what : Complaint} {file' : Option String} {line : Option Nat}
    (h : readSource file source = .error (.complaint what file' line)) :
    file' = some file ∧ what.isOfDirectives = true ∧ ∃ n, line = some n ∧ what.PointsInto source n := by
  unfold readSource at h
  split at h
  · rename_i hannotated
    cases h
    exact absurd hannotated readAnnotated_ne_complaint
  · rename_i annotated hannotated
    have hchecked := checked_attachBody (obeys_of_readAnnotated hannotated)
    split at h
    · rename_i f hf
      rw [hf] at hchecked
      cases f with
      | complaint what' at_ line' =>
        obtain ⟨rfl, hwhat, c, hc, rfl, habout⟩ := hchecked.complaint what' at_ line' rfl
        cases h
        exact ⟨rfl, hwhat, _, rfl, Complaint.pointsInto_of_scanned hc habout⟩
      | _ => cases h
    · cases h

end TwinModule
