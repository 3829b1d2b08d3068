import TwinModule.Proofs.Directive.Classified
/-!
Reading what is rendered. The comment for a tag is on one line, whatever is in the path of the tag, and the directive
that it is has the tag. So a directive may be spelled in any way: when its tag is rendered and read again, it is the same.
-/
set_option autoImplicit false

namespace TwinModule

namespace Text

variable {c : Char} {cs : List Char}

/-- The code points of line ends. -/
def lineEndCodes : List Nat := List.range' 10 4 ++ List.range' 28 3 ++ [0x85, 0x2028, 0x2029]

theorem mem_lineEndCodes (h : isLineEnd c = true) : c.toNat ∈ lineEndCodes := by
  simp only [isLineEnd, Bool.or_eq_true, Bool.and_eq_true, decide_eq_true_eq, beq_iff_eq] at h
  simp only [lineEndCodes, List.mem_append, List.mem_range'_1, List.mem_cons, List.not_mem_nil, or_false]
  omega

theorem not_isPrintable_of_mem_lineEndCodes : ∀ n ∈ lineEndCodes, isPrintable (Char.ofNat n) = false := by
  decide +kernel

theorem not_isLineEnd_of_isPrintable (h : isPrintable c = true) : isLineEnd c = false := by
  cases hend : isLineEnd c with
  | false => rfl
  | true =>
    have hcode := not_isPrintable_of_mem_lineEndCodes _ (mem_lineEndCodes hend)
    rw [Char.ofNat_toNat, h] at hcode
    cases hcode

/-- A text without line ends is one line. -/
theorem allLines_eq_singleton (hne : cs ≠ []) (h : ∀ c ∈ cs, isLineEnd c = false) : allLines cs = [cs] := by
  fun_induction allLines cs with
  | case1 => exact absurd rfl hne
  | case2 => exact absurd (h '\r' (by simp)) (by decide)
  | case3 c cs _ hend => exact absurd (h c (by simp)) (by simp [hend])
  | case4 c cs _ _ hnil =>
    have hcs : cs = [] := by rw [← allLines_flatten cs, hnil, List.flatten_nil]
    rw [hcs]
  | case5 c cs _ _ l ls hcons ih =>
    have hne : cs ≠ [] := by
      rintro rfl
      cases hcons
    have hline := ih hne fun d hd => h d (List.mem_cons_of_mem c hd)
    rw [hcons] at hline
    cases hline
    rfl

end Text

open Text

/-- Rendered, the tag is a comment on one line, with nothing in it that cannot be shown, and is read as a directive that
has this tag. -/
structure Tag.Rereads (t : Tag) : Prop where
  hash : t.render.toList.head? = some '#'
  shown : ∀ c ∈ t.render.toList, isPrintable c = true
  oneLine : allLines t.render.toList = [t.render.toList]
  read : ∃ d, Directive.ofComment? t.line t.render = .ok (some d) ∧ d.tag? = some t

namespace Directive

theorem isPrintable_opening {family : String} (h : family ∈ families) :
    ∀ c ∈ (opening family).toList, isPrintable c = true := by
  simp only [families, List.mem_cons, List.not_mem_nil, or_false] at h
  rw [← List.all_eq_true]
  rcases h with rfl | rfl | rfl | rfl | rfl <;> rfl

theorem rereads_of_render {t : Tag} {family argument : String} {request : Request}
    (hrender : t.render = opening family ++ argument) (hf : family ∈ families) (ha : IsArgument argument.toList)
    (hshown : ∀ c ∈ argument.toList, isPrintable c = true)
    (hr : requestOf? t.line family argument.toList = .ok (some request))
    (htag : (Directive.mk t.line argument request).tag? = some t) : t.Rereads := by
  obtain ⟨cs, hcs, -⟩ := toList_opening hf
  have hchars : t.render.toList = '#' :: (cs ++ argument.toList) := by
    rw [hrender, String.toList_append, hcs, List.cons_append]
  have hall : ∀ c ∈ t.render.toList, isPrintable c = true := by
    rw [hrender, String.toList_append, List.forall_mem_append]
    exact ⟨isPrintable_opening hf, hshown⟩
  refine ⟨by rw [hchars, List.head?_cons], hall, ?_, ⟨_, ?_, htag⟩⟩
  · exact allLines_eq_singleton (by simp [hchars]) fun c hc => not_isLineEnd_of_isPrintable (hall c hc)
  · rw [hrender]
    exact ofComment?_opening hf ha hr

theorem rereads_source (path : String) (line : Nat) : (Tag.mk Tag.sourceFamily path line).Rereads := by
  refine rereads_of_render (render_source path line) (by simp [families]) (isArgument_quote path) ?_
    (requestOf?_quote line path) rfl
  rw [toList_quote]
  exact fun c => isPrintable_of_mem_quoteChars

theorem rereads_variant (v : Variant) (line : Nat) : (Tag.mk Tag.variantFamily v.name line).Rereads := by
  have hrender : (Tag.mk Tag.variantFamily v.name line).render = opening Tag.variantFamily ++ v.name := rfl
  have hrequest : requestOf? line Tag.variantFamily v.name.toList = .ok (some (.variant v)) := by cases v <;> rfl
  refine rereads_of_render hrender (by simp [families]) ?_ ?_ hrequest rfl
  · cases v <;> exact isArgument_of_isIdentifier rfl
  · rw [← List.all_eq_true]
    cases v <;> rfl

/-- The tag of a directive is one for a variant or for a path. -/
theorem rereads_of_tag? {line : Nat} {comment : String} {d : Directive} {t : Tag}
    (hd : ofComment? line comment = .ok (some d)) (ht : d.tag? = some t) : t.line = line ∧ t.Rereads := by
  obtain ⟨rfl, hgiven⟩ := ofComment?_eq_some_iff.1 hd
  have hfits := hgiven.fits
  obtain ⟨line, argument, request⟩ := d
  cases request with
  | variant v =>
    obtain rfl : argument = v.name := hfits
    cases ht
    exact ⟨rfl, rereads_variant v line⟩
  | source path =>
    cases ht
    exact ⟨rfl, rereads_source path line⟩
  | declare => cases ht
  | begin_ => cases ht
  | end_ => cases ht

/-- Whatever its path, the tag that names a file is read back from what it renders as, and so is a tag for a variant. So
when the tag of a directive is rendered and read again, it is the same, in whatever way the directive was spelled. -/
theorem rereads_tag :
    (∀ (path : String) (line : Nat), (Tag.mk Tag.sourceFamily path line).Rereads ∧
      ∃ argument, ofComment? line (Tag.mk Tag.sourceFamily path line).render =
        .ok (some ⟨line, argument, .source path⟩)) ∧
    (∀ (v : Variant) (line : Nat), (Tag.mk Tag.variantFamily v.name line).Rereads) ∧
    ∀ (line : Nat) (comment : String) (d : Directive) (t : Tag),
      ofComment? line comment = .ok (some d) → d.tag? = some t → t.line = line ∧ t.Rereads := by
  refine ⟨fun path line => ⟨rereads_source path line, quote path, ?_⟩, rereads_variant, fun _ _ _ _ => rereads_of_tag?⟩
  rw [render_source]
  exact ofComment?_opening (by simp [families]) (isArgument_quote path) (requestOf?_quote line path)

/-- A path in two pieces, with other quotes, an escape and a comment after it. -/
def piecedPath : String := "#amphi-path :  'a\"\\n' \"\\x62\"  # note "

theorem rereads_tag_pieced :
    ofComment? 7 piecedPath = .ok (some ⟨7, "'a\"\\n' \"\\x62\"  # note", .source "a\"\nb"⟩) ∧
      (Tag.mk Tag.sourceFamily "a\"\nb" 7).Rereads := by
  have hread : ofComment? 7 piecedPath = .ok (some ⟨7, "'a\"\\n' \"\\x62\"  # note", .source "a\"\nb"⟩) := by
    cbv
  exact ⟨hread, (rereads_tag.2.2 7 piecedPath _ _ hread rfl).2⟩

end Directive

end TwinModule
