import TwinModule.Proofs.Grammar.Quoted
import TwinModule.Proofs.Print.WrittenOut
import TwinModule.Proofs.Tree.Modules
/-!
Directives that are written as comments are read as what they are.
-/
set_option autoImplicit false

namespace TwinModule

namespace Text

variable {c : Char} {cs : List Char}

theorem trimRight_eq_self (h : ∀ c, cs.getLast? = some c → isBlank c = false) : trimRight cs = cs := by
  rcases List.eq_nil_or_concat cs with rfl | ⟨ds, c, rfl⟩
  · rfl
  · have hc : isBlank c = false := h c (by simp)
    simp [trimRight, hc]

theorem trimLeft_eq_self (h : ∀ c, cs.head? = some c → isBlank c = false) : trimLeft cs = cs := by
  cases cs with
  | nil => rfl
  | cons c cs => exact trimLeft_of_not_blank (h c rfl)

/-- The code points of blanks. -/
def blankCodes : List Nat :=
  List.range' 9 5 ++ List.range' 28 5 ++ [0x85, 0xa0, 0x1680] ++ List.range' 0x2000 11 ++
    [0x2028, 0x2029, 0x202f, 0x205f, 0x3000]

theorem mem_blankCodes (h : isBlank c = true) : c.toNat ∈ blankCodes := by
  simp only [isBlank, Bool.or_eq_true, Bool.and_eq_true, decide_eq_true_eq, beq_iff_eq] at h
  simp only [blankCodes, List.mem_append, List.mem_range'_1, List.mem_cons, List.not_mem_nil, or_false]
  omega

theorem not_isIdentifier_of_mem_blankCodes :
    ∀ n ∈ blankCodes, isIdentifierStart (Char.ofNat n) = false ∧ isIdentifierPart (Char.ofNat n) = false := by
  decide +kernel

/-- There is no blank in an identifier. -/
theorem isBlank_of_mem_isIdentifier (h : isIdentifier cs = true) (hc : c ∈ cs) : isBlank c = false := by
  cases hblank : isBlank c with
  | false => rfl
  | true =>
    obtain ⟨hstart, hpart⟩ := not_isIdentifier_of_mem_blankCodes _ (mem_blankCodes hblank)
    rw [Char.ofNat_toNat] at hstart hpart
    exact absurd hc (not_mem_of_isIdentifier hstart hpart h)

end Text

namespace Directive
open Text

/-- An argument that can be read as it is written: all on one line and without blanks around it. -/
structure IsArgument (argument : List Char) : Prop where
  ne_nil : argument ≠ []
  head : ∀ c, argument.head? = some c → isBlank c = false
  last : ∀ c, argument.getLast? = some c → isBlank c = false
  online : '\n' ∉ argument

theorem isArgument_of_isIdentifier {cs : List Char} (h : isIdentifier cs = true) : IsArgument cs where
  ne_nil := by
    rintro rfl
    cases h
  head _ hc := isBlank_of_mem_isIdentifier h (List.mem_of_head? hc)
  last _ hc := isBlank_of_mem_isIdentifier h (List.mem_of_getLast? hc)
  online hm := absurd (isBlank_of_mem_isIdentifier h hm) (by decide)

theorem isBlank_of_isMark {q : Char} (hq : IsMark q) : isBlank q = false := by
  rcases hq with rfl | rfl <;> decide

theorem isArgument_quoteChars (cs : List Char) : IsArgument (quoteChars cs) where
  ne_nil := by simp [quoteChars]
  head c hc := by
    obtain rfl : chooseQuote cs = c := by simpa [quoteChars] using hc
    exact isBlank_of_isMark (isMark_chooseQuote cs)
  last c hc := by
    have hlast : (quoteChars cs).getLast? = some (chooseQuote cs) := List.getLast?_concat
    obtain rfl : chooseQuote cs = c := Option.some.inj (hlast.symm.trans hc)
    exact isBlank_of_isMark (isMark_chooseQuote cs)
  online := not_mem_quoteChars (by decide) cs

/-- What is written before the argument of a directive. -/
def opening (family : String) : String := "# " ++ family ++ ": "

/-- The families that have a meaning. -/
def families : List String := [Tag.variantFamily, Tag.sourceFamily, declareFamily, beginFamily, endFamily]

theorem toList_opening {family : String} (h : family ∈ families) :
    ∃ cs, (opening family).toList = '#' :: cs ∧ ∀ argument, Shape.of? ('#' :: cs ++ argument) =
      (argumentAfter? (':' :: ' ' :: argument)).map fun a => ⟨family, a⟩ := by
  simp only [families, List.mem_cons, List.not_mem_nil, or_false] at h
  rcases h with rfl | rfl | rfl | rfl | rfl
  · exact ⟨_, rfl, fun argument => rfl⟩
  · exact ⟨_, rfl, fun argument => rfl⟩
  · exact ⟨_, rfl, fun argument => rfl⟩
  · exact ⟨_, rfl, fun argument => rfl⟩
  · exact ⟨_, rfl, fun argument => rfl⟩

theorem shape_of_opening {family : String} (h : family ∈ families) {argument : List Char} (ha : IsArgument argument) :
    Shape.of? (trim ((opening family).toList ++ argument)) = some ⟨family, argument⟩ := by
  obtain ⟨cs, hcs, hshape⟩ := toList_opening h
  have htrim : trim ('#' :: cs ++ argument) = '#' :: cs ++ argument := by
    rw [trim, List.cons_append, trimLeft_of_not_blank (by decide), ← List.cons_append]
    have hlast : ('#' :: cs ++ argument).getLast? = argument.getLast? := by
      rw [List.getLast?_append, List.getLast?_eq_some_getLast ha.ne_nil, Option.some_or]
    exact trimRight_eq_self fun c hc => ha.last c (hlast ▸ hc)
  have hargument : argumentAfter? (':' :: ' ' :: argument) = some argument := by
    have hleft : trimLeft (' ' :: argument) = argument := trimLeft_eq_self ha.head
    have hcolon : trimLeft (':' :: ' ' :: argument) = ':' :: ' ' :: argument := trimLeft_of_not_blank (by decide)
    rw [argumentAfter?, hcolon]
    simp [hleft, ha.online]
  rw [hcs, htrim, hshape, hargument]
  rfl

theorem ofComment?_opening {family argument : String} {request : Request} {line : Nat} (hf : family ∈ families)
    (ha : IsArgument argument.toList) (hr : requestOf? line family argument.toList = .ok (some request)) :
    ofComment? line (opening family ++ argument) = .ok (some ⟨line, argument, request⟩) := by
  have hshape := shape_of_opening hf ha
  rw [← String.toList_append] at hshape
  simp only [ofComment?, hshape, hr, String.ofList_toList]

theorem inComment?_alone {family argument : String} {request : Request} (hf : family ∈ families)
    (ha : IsArgument argument.toList) (hr : requestOf? 1 family argument.toList = .ok (some request)) :
    inComment? (.alone (opening family ++ argument)) = .ok (some ⟨1, argument, request⟩) := by
  have hof := ofComment?_opening hf ha hr
  have hline : (Comment.alone (opening family ++ argument)).span.line.getD 1 = 1 := rfl
  have htext : (Comment.alone (opening family ++ argument)).text = opening family ++ argument := rfl
  have hinline : (Comment.alone (opening family ++ argument)).isInline = false := rfl
  simp only [inComment?, hline, htext, hinline, hof]
  rfl

/-- The item that a written directive is. -/
theorem of?_alone {text : String} {d : Directive} (h : inComment? (.alone text) = .ok (some d)) :
    Item.of? (.comment (.alone text)) = some (Item.ofDirective d Span.unset) := by
  simp only [Item.of?, h]
  rfl

theorem of?_variantTag {t : Tag} (h : t.IsVariant) :
    Item.of? (.comment (.alone t.render)) = some (.variant t.argument 1) := by
  obtain ⟨family, argument, line⟩ := t
  obtain ⟨v, hv⟩ := h
  obtain ⟨rfl, rfl⟩ : family = Tag.variantFamily ∧ argument = v.name := by simpa [Tag.names] using hv
  have hrender : (Tag.mk Tag.variantFamily v.name line).render = opening Tag.variantFamily ++ v.name := by
    simp [Tag.render, opening, Tag.variantFamily, Tag.sourceFamily]
  rw [hrender]
  cases v <;> rfl

theorem toList_quote (path : String) : (quote path).toList = quoteChars path.toList := String.toList_ofList

theorem isArgument_quote (path : String) : IsArgument (quote path).toList :=
  toList_quote path ▸ isArgument_quoteChars path.toList

theorem requestOf?_quote (line : Nat) (path : String) :
    requestOf? line Tag.sourceFamily (quote path).toList = .ok (some (.source path)) := by
  have hne : (quoteChars path.toList).isEmpty = false := rfl
  rw [toList_quote]
  simp [requestOf?, Tag.sourceFamily, Tag.variantFamily, hne, Constant.readText?_quoteChars]

theorem render_source (path : String) (line : Nat) :
    (Tag.mk Tag.sourceFamily path line).render = opening Tag.sourceFamily ++ quote path := by
  rw [Tag.render, if_pos rfl, opening]

theorem of?_sourceTag {t : Tag} (h : t.IsSource) :
    Item.of? (.comment (.alone t.render)) = some (.source t.argument 1) := by
  obtain ⟨family, argument, line⟩ := t
  obtain rfl : family = Tag.sourceFamily := h
  have hdirective := inComment?_alone (by simp [families]) (isArgument_quote argument) (requestOf?_quote 1 argument)
  rw [render_source, of?_alone hdirective]
  rfl

section

variable {name : String}

theorem requestOf?_named (h : IsIdentifier name) :
    requestOf? 1 declareFamily name.toList = .ok (some (.declare name)) ∧
      requestOf? 1 beginFamily name.toList = .ok (some (.begin_ name)) ∧
        requestOf? 1 endFamily name.toList = .ok (some (.end_ name)) := by
  have hne : name.toList.isEmpty = false := by
    cases hn : name.toList with
    | nil => simp [IsIdentifier, hn, isIdentifier] at h
    | cons => rfl
  have hmodule : moduleName name.toList = .ok name := by
    have hname : isIdentifier name.toList = true := h
    rw [moduleName, if_pos hname, String.ofList_toList]
  simp [requestOf?, Tag.sourceFamily, Tag.variantFamily, declareFamily, beginFamily, endFamily, hne, hmodule]

theorem of?_declare (h : IsIdentifier name) :
    Item.of? (.comment (.alone (Print.declareText ++ name))) = some (.declare name Span.unset) := by
  have hd := inComment?_alone (by simp [families]) (isArgument_of_isIdentifier h) (requestOf?_named h).1
  exact of?_alone hd

theorem of?_begin (h : IsIdentifier name) :
    Item.of? (.comment (.alone (Print.beginText ++ name))) = some (.begin_ name 1) := by
  have hd := inComment?_alone (by simp [families]) (isArgument_of_isIdentifier h) (requestOf?_named h).2.1
  exact of?_alone hd

theorem of?_end (h : IsIdentifier name) :
    Item.of? (.comment (.alone (Print.endText ++ name))) = some (.end_ name Span.unset) := by
  have hd := inComment?_alone (by simp [families]) (isArgument_of_isIdentifier h) (requestOf?_named h).2.2
  exact of?_alone hd

end

end Directive

end TwinModule
