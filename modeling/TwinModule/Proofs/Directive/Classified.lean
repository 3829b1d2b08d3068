import Mathlib
import TwinModule.Proofs.Directive.Complaints
import TwinModule.Proofs.Directive.Rendered
/-!
Which comments are directives. A comment is one if it is spelled as one, its family is known and its argument is right for
the family; spelled so and not right it is refused, and spelled in any other way it is just a comment. A path whose
argument has a set or a mapping with items that cannot be in one fails in another way.
-/
set_option autoImplicit false

namespace TwinModule

namespace Text

variable {cs ds : List Char}

theorem trimLeft_append (h : ∀ c ∈ cs, isBlank c = true) (ds : List Char) : trimLeft (cs ++ ds) = trimLeft ds :=
  List.dropWhile_append_of_pos h

theorem exists_blanks_trimLeft (cs : List Char) : ∃ bs, (∀ c ∈ bs, isBlank c = true) ∧ cs = bs ++ trimLeft cs :=
  ⟨cs.takeWhile isBlank, fun _ => List.mem_takeWhile_imp, List.takeWhile_append_dropWhile.symm⟩

theorem getLast?_trimRight {c : Char} (h : (trimRight cs).getLast? = some c) : isBlank c = false := by
  rw [trimRight, List.getLast?_reverse] at h
  exact head?_trimLeft cs.reverse c h

/-- A trimmed text is one that neither starts nor ends with a blank. -/
theorem trim_eq_self_iff : trim cs = cs ↔
    (∀ c, cs.head? = some c → isBlank c = false) ∧ ∀ c, cs.getLast? = some c → isBlank c = false := by
  constructor
  · intro h
    have hlast : ∀ c, cs.getLast? = some c → isBlank c = false := fun c hc => getLast?_trimRight (h.symm ▸ hc)
    refine ⟨fun c hc => ?_, hlast⟩
    have hleft : trimLeft cs = cs := by
      refine (List.dropWhile_suffix isBlank).eq_of_length_le ?_
      calc cs.length = (trim cs).length := by rw [h]
        _ ≤ (trimLeft cs).length := by
          rw [trim, trimRight, List.length_reverse, ← @List.length_reverse _ (trimLeft cs)]
          exact (List.dropWhile_suffix isBlank).length_le
    exact head?_trimLeft cs c (hleft.symm ▸ hc)
  · rintro ⟨hhead, hlast⟩
    rw [trim, trimLeft_eq_self hhead, trimRight_eq_self hlast]

theorem trim_trim (cs : List Char) : trim (trim cs) = trim cs := by
  refine trim_eq_self_iff.2 ⟨fun c hc => ?_, fun c hc => getLast?_trimRight hc⟩
  obtain ⟨bs, hbs⟩ : trim cs <+: trimLeft cs := by
    rw [trim, trimRight, ← List.reverse_suffix, List.reverse_reverse]
    exact List.dropWhile_suffix isBlank
  refine head?_trimLeft cs c ?_
  rw [← hbs, List.head?_append, hc, Option.some_or]

end Text

namespace Directive
open Text

/-- `amphi`, or that with a hyphen and one or more letters or underscores after it. -/
def IsFamily (family : List Char) : Prop :=
  family = "amphi".toList ∨
    ∃ part, part ≠ [] ∧ (∀ c ∈ part, isFamilyPart c = true) ∧ family = "amphi-".toList ++ part

/-- A text is spelled as a directive: a hash mark, a family, a colon and an argument that is on one line, each with
blanks before it or none. -/
inductive Spelled : List Char → Shape → Prop where
  | mk {before family after lead argument : List Char} (blanks : ∀ c ∈ before ++ after ++ lead, isBlank c = true)
      (isFamily : IsFamily family) (trimmed : trim argument = argument) (online : '\n' ∉ argument) :
      Spelled ('#' :: (before ++ (family ++ (after ++ ':' :: (lead ++ argument))))) ⟨String.ofList family, argument⟩

/-- What is after the family of a directive starts with a blank or a colon. -/
def IsFamilyEnd (cs : List Char) : Prop := ∀ c, cs.head? = some c → isBlank c = true ∨ c = ':'

theorem isFamilyEnd_append {after : List Char} (h : ∀ c ∈ after, isBlank c = true) (cs : List Char) :
    IsFamilyEnd (after ++ ':' :: cs) := by
  intro c hc
  cases after with
  | nil => exact .inr (by simpa using hc.symm)
  | cons d after =>
    obtain rfl : d = c := by simpa using hc
    exact .inl (h d (by simp))

theorem not_isFamilyPart_of_isFamilyEnd {cs : List Char} (h : IsFamilyEnd cs) (c : Char) (hc : cs.head? = some c) :
    isFamilyPart c = false := by
  rcases h c hc with hblank | rfl
  · cases hpart : isFamilyPart c with
    | false => rfl
    | true =>
      have hidentifier : isIdentifier [c] = true := by
        simp only [isFamilyPart, Bool.or_eq_true] at hpart
        rcases hpart with hpart | hpart <;> simp [isIdentifier, isIdentifierStart, hpart]
      exact absurd (isBlank_of_mem_isIdentifier hidentifier (List.mem_singleton_self c)) (by simp [hblank])
  · decide

section

variable {p : Char → Bool} {part rest : List Char}

theorem takeWhile_append_end (h : ∀ c ∈ part, p c = true) (hend : ∀ c, rest.head? = some c → p c = false) :
    (part ++ rest).takeWhile p = part := by
  rw [List.takeWhile_append_of_pos h]
  cases rest with
  | nil => simp
  | cons c rest => simp [hend c rfl]

theorem dropWhile_append_end (h : ∀ c ∈ part, p c = true) (hend : ∀ c, rest.head? = some c → p c = false) :
    (part ++ rest).dropWhile p = rest := by
  rw [List.dropWhile_append_of_pos h]
  cases rest with
  | nil => rfl
  | cons c rest => simp [hend c rfl]

end

theorem familyTail_of_end {cs : List Char} (h : IsFamilyEnd cs) : familyTail cs = ([], cs) := by
  unfold familyTail
  split
  · exact absurd (h '-' rfl) (by decide)
  · rfl

theorem familyTail_part {part cs : List Char} (hne : part ≠ []) (hpart : ∀ c ∈ part, isFamilyPart c = true)
    (h : IsFamilyEnd cs) : familyTail ('-' :: (part ++ cs)) = ('-' :: part, cs) := by
  have hend := not_isFamilyPart_of_isFamilyEnd h
  have hempty : part.isEmpty = false := List.isEmpty_eq_false_iff.2 hne
  rw [familyTail, takeWhile_append_end hpart hend, dropWhile_append_end hpart hend]
  simp [hempty]

/-- What is taken for the end of a family is one, and nothing is lost. -/
theorem familyTail_spec (cs : List Char) :
    (familyTail cs).1 ++ (familyTail cs).2 = cs ∧ IsFamily ("amphi".toList ++ (familyTail cs).1) := by
  unfold familyTail
  split
  · rename_i cs
    split
    · exact ⟨rfl, .inl rfl⟩
    · rename_i hne
      have hne : cs.takeWhile isFamilyPart ≠ [] := by simpa using hne
      exact ⟨by simp, .inr ⟨_, hne, fun _ => List.mem_takeWhile_imp, rfl⟩⟩
  · exact ⟨rfl, .inl rfl⟩

theorem argumentAfter?_append {after lead argument : List Char} (hafter : ∀ c ∈ after, isBlank c = true)
    (hlead : ∀ c ∈ lead, isBlank c = true) (htrim : trim argument = argument) (online : '\n' ∉ argument) :
    argumentAfter? (after ++ ':' :: (lead ++ argument)) = some argument := by
  have hcolon : trimLeft (':' :: (lead ++ argument)) = ':' :: (lead ++ argument) := trimLeft_of_not_blank (by decide)
  have hargument : trimLeft argument = argument := trimLeft_eq_self (trim_eq_self_iff.1 htrim).1
  rw [argumentAfter?, trimLeft_append hafter, hcolon]
  simp [trimLeft_append hlead, hargument, online]

theorem exists_of_argumentAfter? {cs argument : List Char} (h : argumentAfter? cs = some argument) :
    ∃ after lead, (∀ c ∈ after ++ lead, isBlank c = true) ∧ cs = after ++ ':' :: (lead ++ argument) ∧
      trimLeft argument = argument ∧ '\n' ∉ argument := by
  unfold argumentAfter? at h
  split at h
  · rename_i rest hcolon
    split at h
    · cases h
    · rename_i hnewline
      cases h
      obtain ⟨after, hafter, hcs⟩ := exists_blanks_trimLeft cs
      obtain ⟨lead, hlead, hrest⟩ := exists_blanks_trimLeft rest
      refine ⟨after, lead, List.forall_mem_append.2 ⟨hafter, hlead⟩, ?_, trimLeft_eq_self (head?_trimLeft rest), ?_⟩
      · rw [← hrest, ← hcolon, ← hcs]
      · simpa using hnewline
  · cases h

/-- A trimmed text is read as a directive exactly if it is spelled as one. -/
theorem shape_eq_some_iff {text : List Char} {shape : Shape} (h : trim text = text) :
    Shape.of? text = some shape ↔ Spelled text shape := by
  constructor
  · intro hshape
    unfold Shape.of? at hshape
    split at hshape
    · rename_i cs
      split at hshape
      · rename_i rest hname
        obtain ⟨argument, hargument, rfl⟩ := Option.map_eq_some_iff.1 hshape
        obtain ⟨before, hbefore, hcs⟩ := exists_blanks_trimLeft cs
        obtain ⟨after, lead, hblanks, hrest, hleft, online⟩ := exists_of_argumentAfter? hargument
        obtain ⟨hsplit, hfamily⟩ := familyTail_spec rest
        have htext : '#' :: cs = '#' :: (before ++ ("amphi".toList ++ (familyTail rest).1 ++
            (after ++ ':' :: (lead ++ argument)))) := by
          rw [hname] at hcs
          rw [← hrest, List.append_assoc, hsplit]
          exact congrArg ('#' :: ·) hcs
        have hlast : ∀ c, argument.getLast? = some c → isBlank c = false := by
          intro c hc
          refine (trim_eq_self_iff.1 h).2 c ?_
          rw [htext]
          simp [List.getLast?_cons, List.getLast?_append, hc]
        have htrim : trim argument = argument := by rw [trim, hleft, trimRight_eq_self hlast]
        rw [htext]
        have hall : ∀ c ∈ before ++ after ++ lead, isBlank c = true := by
          rw [List.append_assoc]
          exact List.forall_mem_append.2 ⟨hbefore, hblanks⟩
        exact .mk hall hfamily htrim online
      · cases hshape
    · cases hshape
  · rintro ⟨hblanks, hfamily, htrim, online⟩
    rename_i before family after lead argument
    rw [List.append_assoc, List.forall_mem_append, List.forall_mem_append] at hblanks
    obtain ⟨hbefore, hafter, hlead⟩ := hblanks
    have hargument := argumentAfter?_append hafter hlead htrim online
    have hend := isFamilyEnd_append hafter (lead ++ argument)
    have hname (rest : List Char) : trimLeft (before ++ ("amphi".toList ++ rest)) = "amphi".toList ++ rest := by
      rw [trimLeft_append hbefore]
      exact trimLeft_of_not_blank (by decide)
    rcases hfamily with rfl | ⟨part, hne, hpart, rfl⟩
    · simp only [Shape.of?, hname]
      simp [familyTail_of_end hend, hargument]
    · have hsplit (rest : List Char) : "amphi-".toList ++ part ++ rest = "amphi".toList ++ '-' :: (part ++ rest) := by
        simp
      simp only [Shape.of?, hsplit, hname]
      simp [familyTail_part hne hpart hend, hargument]

/-- An argument is right for what is asked for: the name of the variant, a literal for the path, or the name of the
module, which is an identifier. -/
def Fits (argument : String) : Request → Prop
  | .variant v => argument = v.name
  | .source path => Constant.read argument.toList = .ok (.text path)
  | .declare name | .begin_ name | .end_ name => argument = name ∧ IsIdentifier name

/-- A comment is a given directive: it is spelled with its family and its argument, which there is and which is right. -/
structure IsGiven (comment : String) (d : Directive) : Prop where
  spelled : Spelled (trim comment.toList) ⟨d.family, d.argument.toList⟩
  nonempty : d.argument ≠ ""
  fits : Fits d.argument d.request

theorem moduleName_eq_ok_iff {argument : List Char} {name : String} :
    moduleName argument = .ok name ↔ String.ofList argument = name ∧ IsIdentifier name := by
  unfold moduleName
  constructor
  · intro h
    split at h
    · rename_i hidentifier
      cases h
      exact ⟨rfl, by simpa [IsIdentifier] using hidentifier⟩
    · cases h
  · rintro ⟨rfl, hidentifier⟩
    have hidentifier : isIdentifier argument = true := by simpa [IsIdentifier] using hidentifier
    rw [if_pos hidentifier]

theorem readText?_eq_ok_some_iff {argument : List Char} {path : String} :
    Constant.readText? argument = .ok (some path) ↔ Constant.read argument = .ok (.text path) := by
  unfold Constant.readText?
  constructor
  · intro h
    split at h <;> cases h
    assumption
  · intro h
    simp [h]

theorem readText?_eq_error_iff {argument : List Char} {kind : String} :
    Constant.readText? argument = .error kind ↔ Constant.read argument = .error (.unhashable kind) := by
  unfold Constant.readText?
  constructor
  · intro h
    split at h <;> cases h
    assumption
  · intro h
    simp [h]

/-- What comes of a family and an argument: a request that fits, a complaint, or another failure for a path that is a set
or a mapping of what cannot be in one. -/
def Answers (line : Nat) (family : String) (argument : List Char) : Except Failure (Option Request) → Prop
  | .ok none => family ∉ families
  | .ok (some request) => (Directive.mk line (String.ofList argument) request).family = family ∧ argument ≠ [] ∧
      Fits (String.ofList argument) request
  | .error f => (∃ what, f = .complaint what none (some line) ∧ what.kind = .malformed) ∨
      ∃ kind, f = .unhashable kind ∧ family = Tag.sourceFamily ∧ Constant.read argument = .error (.unhashable kind)

section

variable {line : Nat} {family : String} {argument : List Char}

theorem answers_complain {what : Complaint} (h : what.kind = .malformed) :
    Answers line family argument (complain line what) :=
  .inl ⟨what, rfl, h⟩

theorem answers_given {r : Except Failure (Option Request)} (h : argument ≠ [] → Answers line family argument r) :
    Answers line family argument (if argument.isEmpty then complain line (.noArgument family) else r) := by
  split
  · exact answers_complain rfl
  · rename_i hne
    exact h (by simpa using hne)

/-- What declares, begins or ends a module fits if it is given a name. -/
theorem answers_named {request : String → Request}
    (hfamily : ∀ name, (Directive.mk line (String.ofList argument) (request name)).family = family)
    (hfits : ∀ name, Fits (String.ofList argument) (request name) ↔ moduleName argument = .ok name)
    (hne : argument ≠ []) : Answers line family argument
      (match moduleName argument with
        | .ok name => .ok (some (request name))
        | .error c => complain line c) := by
  cases hname : moduleName argument with
  | ok name => exact ⟨hfamily name, hne, (hfits name).2 hname⟩
  | error c =>
    refine answers_complain ?_
    unfold moduleName at hname
    split at hname <;> cases hname
    rfl

theorem answers_requestOf? (line : Nat) (family : String) (argument : List Char) :
    Answers line family argument (requestOf? line family argument) := by
  unfold requestOf?
  dsimp only
  split
  · rename_i hfamily
    refine answers_given fun hne => ?_
    split
    · rename_i v hv
      exact ⟨hfamily.symm, hne, Variant.ofName?_eq_some_iff.1 hv⟩
    · exact answers_complain rfl
  split
  · rename_i hfamily
    refine answers_given fun hne => ?_
    split
    · rename_i path hpath
      exact ⟨hfamily.symm, hne, by simpa [Fits] using readText?_eq_ok_some_iff.1 hpath⟩
    · exact answers_complain rfl
    · rename_i kind hkind
      exact .inr ⟨kind, rfl, hfamily, readText?_eq_error_iff.1 hkind⟩
  split
  · rename_i hfamily
    exact answers_given (answers_named (fun _ => hfamily.symm) fun _ => moduleName_eq_ok_iff.symm)
  split
  · rename_i hfamily
    exact answers_given (answers_named (fun _ => hfamily.symm) fun _ => moduleName_eq_ok_iff.symm)
  split
  · rename_i hfamily
    exact answers_given (answers_named (fun _ => hfamily.symm) fun _ => moduleName_eq_ok_iff.symm)
  · rename_i hvariant hsource hdeclare hbegin hend
    simp [Answers, families, hvariant, hsource, hdeclare, hbegin, hend]

/-- A request is given for an argument exactly if it fits and is of the family. -/
theorem requestOf?_eq_ok_some_iff {request : Request} : requestOf? line family argument = .ok (some request) ↔
    (Directive.mk line (String.ofList argument) request).family = family ∧ argument ≠ [] ∧
      Fits (String.ofList argument) request := by
  constructor
  · intro h
    have hanswers := answers_requestOf? line family argument
    rwa [h] at hanswers
  · rintro ⟨rfl, hne, hfits⟩
    have hempty : argument.isEmpty = false := List.isEmpty_eq_false_iff.2 hne
    cases request with
    | variant v =>
      have hv : Variant.ofName? (String.ofList argument) = some v := Variant.ofName?_eq_some_iff.2 hfits
      simp [requestOf?, Directive.family, hempty, hv]
    | source path =>
      have hpath : Constant.readText? argument = .ok (some path) :=
        readText?_eq_ok_some_iff.2 (by simpa [Fits] using hfits)
      simp [requestOf?, Directive.family, hempty, hpath, Tag.sourceFamily, Tag.variantFamily]
    | declare name =>
      simp [requestOf?, Directive.family, hempty, moduleName_eq_ok_iff.2 hfits, declareFamily, Tag.sourceFamily,
        Tag.variantFamily]
    | begin_ name =>
      simp [requestOf?, Directive.family, hempty, moduleName_eq_ok_iff.2 hfits, beginFamily, declareFamily,
        Tag.sourceFamily, Tag.variantFamily]
    | end_ name =>
      simp [requestOf?, Directive.family, hempty, moduleName_eq_ok_iff.2 hfits, endFamily, beginFamily, declareFamily,
        Tag.sourceFamily, Tag.variantFamily]

end

theorem spelled_iff {comment : String} {shape : Shape} :
    Spelled (trim comment.toList) shape ↔ Shape.of? (trim comment.toList) = some shape :=
  (shape_eq_some_iff (trim_trim _)).symm

theorem isGiven_iff {comment : String} {d : Directive} : IsGiven comment d ↔
    ∃ shape, Shape.of? (trim comment.toList) = some shape ∧
      requestOf? d.line shape.family shape.argument = .ok (some d.request) ∧ d.argument = String.ofList shape.argument := by
  constructor
  · rintro ⟨hspelled, hne, hfits⟩
    refine ⟨_, spelled_iff.1 hspelled, requestOf?_eq_ok_some_iff.2 ⟨?_, ?_, ?_⟩, ?_⟩
    · rfl
    · simpa using hne
    · simpa using hfits
    · simp
  · rintro ⟨⟨family, argument⟩, hshape, hrequest, hargument⟩
    obtain ⟨line, _, request⟩ := d
    obtain rfl : _ = String.ofList argument := hargument
    dsimp only at hrequest
    obtain ⟨rfl, hne, hfits⟩ := requestOf?_eq_ok_some_iff.1 hrequest
    refine ⟨spelled_iff.2 ?_, by simpa using hne, hfits⟩
    simpa using hshape

section

variable {line : Nat} {comment : String}

theorem ofComment?_eq_none_iff : ofComment? line comment = .ok none ↔ Shape.of? (trim comment.toList) = none := by
  unfold ofComment?
  dsimp only
  cases Shape.of? (trim comment.toList) with
  | none => simp
  | some shape =>
    dsimp only
    split <;> simp [complain]

theorem ofComment?_eq_some_iff {d : Directive} :
    ofComment? line comment = .ok (some d) ↔ d.line = line ∧ IsGiven comment d := by
  rw [isGiven_iff]
  constructor
  · intro h
    refine ⟨ofComment?_line h, ?_⟩
    unfold ofComment? at h
    dsimp only at h
    split at h
    · cases h
    · rename_i shape hshape
      split at h
      · cases h
      · rename_i request hrequest
        cases h
        exact ⟨shape, hshape, hrequest, rfl⟩
      · cases h
  · rintro ⟨rfl, shape, hshape, hrequest, hargument⟩
    simp only [ofComment?, hshape, hrequest, ← hargument]

end

theorem ofComment?_eq_none_iff_not_spelled {line : Nat} {comment : String} :
    ofComment? line comment = .ok none ↔ ¬∃ shape, Spelled (trim comment.toList) shape := by
  simp [ofComment?_eq_none_iff, spelled_iff, Option.eq_none_iff_forall_ne_some]

theorem exists_spelled_of_isAbout {what : Complaint} {line : Nat} {comment : String} (h : what.IsAbout line comment) :
    ∃ shape, Spelled (trim comment.toList) shape := by
  by_contra hnone
  have hordinary : ofComment? line comment = .ok none := ofComment?_eq_none_iff_not_spelled.2 hnone
  rcases h with hrefused | ⟨d, hd, -⟩
  · cases hrefused.symm.trans hordinary
  · cases hd.symm.trans hordinary

/-- A comment of a text that is spelled as a directive and begins on a line of it, counted from 1. -/
structure IsSpelledOn (source : String) (line : Nat) (c : Comment) : Prop where
  scanned : Comments.Scanned source c
  there : ∃ i text, line = i + 1 ∧ (allLines source.toList)[i]? = some text ∧ Comments.IsOn line text c
  spelled : ∃ shape, Spelled (trim c.text.toList) shape

/-- Whatever is wrong with the directives of a text, however deep in its blocks, the complaint has the name of the file
and the line of a comment that is spelled as a directive: the one that is refused or that is in question. -/
theorem complaint_of_readSource {file source : String} {what : Complaint} {file' : Option String} {line : Option Nat}
    (h : readSource file source = .error (.complaint what file' line)) :
    (what.kind = .malformed ∨ what.kind = .target) ∧ file' = some file ∧
      ∃ n c, line = some n ∧ IsSpelledOn source n c ∧ what.IsAbout n c.text := by
  obtain ⟨hfile, hwhat, n, hline, c, text, hscanned, -, hon, habout⟩ := pointsInto_of_readSource h
  refine ⟨Complaint.kind_of_isOfDirectives hwhat, hfile, n, c, hline, ⟨hscanned, ?_, ?_⟩, habout⟩
  · obtain ⟨i, text, htext, hi⟩ := hscanned.isOn
    obtain rfl : n = i + 1 := Option.some.inj (hon.1.symm.trans hi.1)
    exact ⟨i, text, rfl, htext, hi⟩
  · exact exists_spelled_of_isAbout habout

/-- A module declared in a block, where there can be none. -/
def innerModule : String := "if x:\n    # amphi-mod: m\n    y\n"

def innerRemark : Comment := ⟨"# amphi-mod: m", false, ⟨some 2, some 4, some 2, some 18⟩⟩

def innerBranch (body : List Stmt) : List Stmt :=
  [.branch ⟨⟨some 1, some 0, some 3, some 5⟩, []⟩ (.if_ (.name "x" .load)) body []]

def innerName : Stmt := .simple ⟨⟨some 3, some 4, some 3, some 5⟩, []⟩ (.expr (.name "y" .load))

set_option maxRecDepth 4096 in
theorem readSource_innerModule :
    readSource "a.py" innerModule = .error (.complaint (.moduleInBlock "m") (some "a.py") (some 2)) := by
  have hparse : Grammar.parse innerModule.toList = some (innerBranch [innerName]) := by decide +kernel
  have hscan : Comments.scan innerModule.toList = .ok [innerRemark] := by decide +kernel
  have hattach : Comments.attach innerModule.toList [innerRemark] (innerBranch [innerName]) =
      .ok (innerBranch [.comment innerRemark, innerName]) := by cbv
  have hbody : attachBody (innerBranch [.comment innerRemark, innerName]) =
      .error (.complaint (.moduleInBlock "m") none (some 2)) := by cbv
  simp only [readSource, readAnnotated_of_parse "a.py" (by decide) hparse hscan hattach, hbody]
  rfl

theorem complaint_of_readSource_inner :
    readSource "a.py" innerModule = .error (.complaint (.moduleInBlock "m") (some "a.py") (some 2)) ∧
      ∃ n c, some 2 = some n ∧ IsSpelledOn innerModule n c ∧ (Complaint.moduleInBlock "m").IsAbout n c.text :=
  ⟨readSource_innerModule, (complaint_of_readSource readSource_innerModule).2.2⟩

end Directive

end TwinModule
