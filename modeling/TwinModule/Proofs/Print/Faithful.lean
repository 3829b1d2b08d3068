import Mathlib
import TwinModule.Proofs.Directive.WrittenOut
import TwinModule.Proofs.Print.Shown
/-!
What is printed of a source that has been read is read as the same again, but for the tags that are not written: those
of a string that opens a file, a class or a function, and those of a lone `if` in the `else` of another one.
-/
set_option autoImplicit false

namespace TwinModule.Print

open Directive

/-- What is printed of a tree without tags and modules can be read and says what the tree says, comments that look like
directives included, wherever the gaps between its lines are. -/
def ReadsBack (file : String) (plain : List Stmt) : Prop :=
  ∃ qs, pieces (.file plain) = .ok qs ∧ ∀ ps, Piece.ungapped ps = Piece.ungapped qs →
    ∃ read, readAnnotated file (Piece.text ps).toList = .ok read ∧ stmtsGist read = stmtsGist plain

/-- What is printed of a tree is read as a tree that says what it says. -/
def Faithful (file : String) (body : List Stmt) : Prop :=
  ∃ printed again, source (.file body) = .ok printed ∧ readSource file printed = .ok again ∧
    stmtsGist again = stmtsGist body

theorem source_of_pieces {t : Tree} {ps : List Piece} (h : pieces t = .ok ps) : source t = .ok (Piece.text ps) := by
  rw [source, h]
  rfl

theorem readSource_of_attachBody {file text : String} {read out : List Stmt}
    (hread : readAnnotated file text.toList = .ok read) (hattach : attachBody read = .ok out) :
    readSource file text = .ok out := by
  simp only [readSource, hread, hattach]

/-- What is printed of a source can be read and says what the source says with those of its tags that are written. It
says all that the source says if and only if the source has no other tags. -/
theorem readSource_source {file text : String} {body : List Stmt} (h : readSource file text = .ok body)
    (hplain : ReadsBack file (stmtsWrittenOut (shownBody body))) :
    ∃ printed again, source (.file body) = .ok printed ∧ readSource file printed = .ok again ∧
      stmtsGist again = stmtsGist (shownBody body) ∧ (stmtsGist again = stmtsGist body ↔ shownBody body = body) := by
  have hobeys := readSource_obeys h
  have hnamed := stmtsModules_imp (fun _ _ => DeclaredIn.isNamed) body (readSource_modules h)
  obtain ⟨qs, hqs, hreads⟩ := hplain
  have hlaid : AgreeOn Piece.ungapped (pieces (.file (stmtsWrittenOut (shownBody body)))) (pieces (.file body)) :=
    (documented_agree 0 body hobeys).symm
  rw [hqs] at hlaid
  obtain ⟨ps, hps, hungapped⟩ := hlaid.exists_of_ok
  obtain ⟨read, hread, hmeans⟩ := hreads ps hungapped
  obtain ⟨out, hout, hshown⟩ := attachBody_writtenOut (obeys_shownBody hobeys) (modules_shownBody hnamed)
  have hattached := (attachBody_agree hmeans).symm
  rw [hout] at hattached
  obtain ⟨again, hagain, hsame⟩ := hattached.exists_of_ok
  have hgist : stmtsGist again = stmtsGist (shownBody body) := hsame.trans hshown
  refine ⟨Piece.text ps, again, source_of_pieces hps, readSource_of_attachBody hread hagain, hgist, ?_⟩
  rw [hgist]
  exact stmtsGist_shownBody_iff

/-- A name on a line of its own. -/
def nameOn (line column : Nat) (name : String) (ts : List Tag) : Stmt :=
  .simple ⟨⟨some line, some column, some line, some (column + 1)⟩, ts⟩ (.expr (.name name .load))

def taggedName : String := "# amphi: blocking\nx\n"

def taggedNameTree : List Stmt := [nameOn 2 0 "x" [⟨Tag.variantFamily, "blocking", 1⟩]]

def blockingRemark : Comment := ⟨"# amphi: blocking", false, ⟨some 1, some 0, some 1, some 17⟩⟩

def taggedNameRead : List Stmt := [.comment blockingRemark, nameOn 2 0 "x" []]

set_option maxRecDepth 4096 in
theorem readSource_taggedName : readSource "a.py" taggedName = .ok taggedNameTree := by
  have hparse : Grammar.parse taggedName.toList = some [nameOn 2 0 "x" []] := by decide +kernel
  have hscan : Comments.scan taggedName.toList = .ok [blockingRemark] := by decide +kernel
  have hattach : Comments.attach taggedName.toList [blockingRemark] [nameOn 2 0 "x" []] = .ok taggedNameRead := by cbv
  exact readSource_of_readAnnotated (readAnnotated_of_parse _ (by decide) hparse hscan hattach) (by decide +kernel)

set_option maxRecDepth 4096 in
theorem readAnnotated_taggedName : readAnnotated "a.py" "# amphi: blocking\nx".toList = .ok taggedNameRead := by
  have hparse : Grammar.parse "# amphi: blocking\nx".toList = some [nameOn 2 0 "x" []] := by decide +kernel
  have hscan : Comments.scan "# amphi: blocking\nx".toList = .ok [blockingRemark] := by decide +kernel
  have hattach : Comments.attach "# amphi: blocking\nx".toList [blockingRemark] [nameOn 2 0 "x" []] =
      .ok taggedNameRead := by cbv
  exact readAnnotated_of_parse _ (by decide) hparse hscan hattach

theorem readsBack_taggedName : ReadsBack "a.py" (stmtsWrittenOut (shownBody taggedNameTree)) := by
  refine ⟨[.line 0 "# amphi: blocking", .line 0 "x"], rfl, fun ps hps => ?_⟩
  obtain rfl := Piece.eq_of_ungapped hps (by decide)
  exact ⟨taggedNameRead, readAnnotated_taggedName, rfl⟩

theorem readSource_source_taggedName : readSource "a.py" taggedName = .ok taggedNameTree ∧
    ReadsBack "a.py" (stmtsWrittenOut (shownBody taggedNameTree)) ∧
      ∃ printed again, source (.file taggedNameTree) = .ok printed ∧ readSource "a.py" printed = .ok again ∧
        stmtsGist again = stmtsGist taggedNameTree := by
  refine ⟨readSource_taggedName, readsBack_taggedName, ?_⟩
  obtain ⟨printed, again, hprinted, hagain, -, hmeans⟩ := readSource_source readSource_taggedName readsBack_taggedName
  exact ⟨printed, again, hprinted, hagain, hmeans.2 rfl⟩

/-- A lone `if` in the `else` of another one. -/
def nestedIf (outer nested : Span) (ts : List Tag) (body : Stmt) : List Stmt :=
  [.branch ⟨outer, []⟩ (.if_ (.name "x" .load)) [nameOn 2 4 "a" []]
    [.branch ⟨nested, ts⟩ (.if_ (.name "y" .load)) [body] []]]

def taggedElse : String := "if x:\n    a\nelse:\n    # amphi: blocking\n    if y:\n        b\n"

def taggedElseTree : List Stmt :=
  nestedIf ⟨some 1, some 0, some 6, some 9⟩ ⟨some 5, some 4, some 6, some 9⟩ [⟨Tag.variantFamily, "blocking", 4⟩]
    (nameOn 6 8 "b" [])

def elseRemark : Comment := ⟨"# amphi: blocking", false, ⟨some 4, some 4, some 4, some 21⟩⟩

/-- The text before its comment is put in. -/
def taggedElseParsed : List Stmt :=
  nestedIf ⟨some 1, some 0, some 6, some 9⟩ ⟨some 5, some 4, some 6, some 9⟩ [] (nameOn 6 8 "b" [])

/-- The text before its directive takes effect. -/
def taggedElseRead : List Stmt :=
  [.branch ⟨⟨some 1, some 0, some 6, some 9⟩, []⟩ (.if_ (.name "x" .load)) [nameOn 2 4 "a" []]
    [.comment elseRemark, .branch ⟨⟨some 5, some 4, some 6, some 9⟩, []⟩ (.if_ (.name "y" .load)) [nameOn 6 8 "b" []] []]]

set_option maxRecDepth 4096 in
theorem readSource_taggedElse : readSource "a.py" taggedElse = .ok taggedElseTree := by
  have hparse : Grammar.parse taggedElse.toList = some taggedElseParsed := by decide +kernel
  have hscan : Comments.scan taggedElse.toList = .ok [elseRemark] := by decide +kernel
  have hattach : Comments.attach taggedElse.toList [elseRemark] taggedElseParsed = .ok taggedElseRead := by cbv
  exact readSource_of_readAnnotated (readAnnotated_of_parse _ (by decide) hparse hscan hattach) (by decide +kernel)

def untaggedElseTree : List Stmt :=
  nestedIf ⟨some 1, some 0, some 4, some 5⟩ ⟨some 3, some 0, some 4, some 5⟩ [] (nameOn 4 4 "b" [])

theorem readAnnotated_untaggedElse :
    readAnnotated "a.py" "if x:\n    a\nelif y:\n    b".toList = .ok untaggedElseTree := by decide +kernel

theorem source_taggedElse : source (.file taggedElseTree) = .ok "if x:\n    a\nelif y:\n    b" := by
  have hpieces : pieces (.file taggedElseTree) =
      .ok [.line 0 "if x:", .line 1 "a", .line 0 "elif y:", .line 1 "b"] := rfl
  exact (source_of_pieces hpieces).trans (congrArg Except.ok (by decide))

theorem readsBack_taggedElse : ReadsBack "a.py" (stmtsWrittenOut (shownBody taggedElseTree)) := by
  refine ⟨[.line 0 "if x:", .line 1 "a", .line 0 "elif y:", .line 1 "b"], rfl, fun ps hps => ?_⟩
  obtain rfl := Piece.eq_of_ungapped hps (by decide)
  exact ⟨untaggedElseTree, readAnnotated_untaggedElse, rfl⟩

/-- Not everything that is printed of a source says what the source says. -/
theorem not_faithful : ¬ ∀ (file text : String) (body : List Stmt), readSource file text = .ok body →
    ReadsBack file (stmtsWrittenOut (shownBody body)) → Faithful file body := by
  intro h
  obtain ⟨printed, again, hprinted, hagain, hmeans⟩ := h _ _ _ readSource_taggedElse readsBack_taggedElse
  obtain rfl : "if x:\n    a\nelif y:\n    b" = printed := Except.ok.inj (source_taggedElse.symm.trans hprinted)
  have hread : readSource "a.py" "if x:\n    a\nelif y:\n    b" = .ok untaggedElseTree :=
    readSource_of_attachBody readAnnotated_untaggedElse rfl
  obtain rfl : untaggedElseTree = again := Except.ok.inj (hread.symm.trans hagain)
  cases hmeans

end TwinModule.Print
