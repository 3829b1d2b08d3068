import TwinModule.Directive.Attach
import TwinModule.Grammar.Statement
import TwinModule.Syntax.Decidable
/-!
Reading a source text: its statements, the comments among them, and the directives in the comments.
-/
set_option autoImplicit false

namespace TwinModule

/-- The statements and comments of a text. -/
def readAnnotated (file : String) (source : List Char) : Except Failure (List Stmt) :=
  if source.contains '\x00' then .error .zeroCharacter
  else
    match Grammar.parse source with
    | none => .error (.ungrammatical file)
    | some body =>
      match Comments.scan source with
      | .error .unindent => .error (.ungrammatical "<tokenize>")
      | .error why => .error (.scanning why)
      | .ok comments =>
        match Comments.attach source comments body with
        | .error why => .error (.placing why)
        | .ok body => .ok body

/-- The comments of a text are put into what it is parsed to. -/
theorem readAnnotated_of_parse {source : List Char} {parsed body : List Stmt} {comments : List Comment} (file : String)
    (hzero : source.contains '\x00' = false) (hparse : Grammar.parse source = some parsed)
    (hscan : Comments.scan source = .ok comments) (hattach : Comments.attach source comments parsed = .ok body) :
    readAnnotated file source = .ok body := by
  simp only [readAnnotated, hzero, hparse, hscan, hattach, Bool.false_eq_true, if_false]

/-- The body of a text with its directives in effect. Complaints point to the file. -/
def readSource (file : String) (source : String) : Except Failure (List Stmt) :=
  match readAnnotated file source.toList with
  | .error f => .error f
  | .ok body =>
    match attachBody body with
    | .error f => .error (f.inFile (some file))
    | .ok body => .ok body

theorem readSource_of_readAnnotated {file source : String} {annotated body : List Stmt}
    (hread : readAnnotated file source.toList = .ok annotated) (hattach : attachBody annotated = .ok body) :
    readSource file source = .ok body := by
  simp only [readSource, hread, hattach]

/-- What is read does not depend on what the file is called. -/
theorem readAnnotated_of_ok {file : String} {source : List Char} {body : List Stmt}
    (h : readAnnotated file source = .ok body) (other : String) : readAnnotated other source = .ok body := by
  unfold readAnnotated at h ⊢
  split at h
  · cases h
  · rw [if_neg ‹_›]
    cases hparse : Grammar.parse source with
    | none => simp [hparse] at h
    | some parsed =>
      cases hscan : Comments.scan source with
      | error why => cases why <;> simp [hparse, hscan] at h
      | ok comments => simpa only [hparse, hscan] using h

theorem readSource_of_ok (file other : String) {source : String} {body : List Stmt}
    (h : readSource file source = .ok body) : readSource other source = .ok body := by
  unfold readSource at h
  split at h
  · cases h
  · rename_i annotated hread
    cases hattach : attachBody annotated with
    | error f => simp [hattach] at h
    | ok attached =>
      simp only [hattach, Except.ok.injEq] at h
      exact readSource_of_readAnnotated (readAnnotated_of_ok hread other) (h ▸ hattach)

end TwinModule
