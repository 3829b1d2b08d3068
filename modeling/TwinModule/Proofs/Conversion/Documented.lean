import Mathlib
import TwinModule.Proofs.Conversion.Ending
import TwinModule.Proofs.Conversion.Failing
import TwinModule.Proofs.Directive.Complaints
/-!
Failures that are not documented. A conversion fails in such a way over the contents of a file that it has found, over
every such file, and else only over a name that is too long to be looked up.
-/
set_option autoImplicit false

namespace TwinModule

/-- The failures that are documented: complaints, and texts that are not in the grammar. -/
def Failure.IsDocumented : Failure → Prop
  | .complaint .. => True
  | .ungrammatical _ => True
  | _ => False

namespace Failure

variable {f : Failure}

theorem IsDocumented.inFile (h : f.IsDocumented) (file : Option String) : (f.inFile file).IsDocumented := by
  cases f with
  | complaint what at_ line => cases at_ <;> exact trivial
  | ungrammatical at_ => exact trivial
  | _ => exact h.elim

theorem inFile_of_not_isDocumented (h : ¬ f.IsDocumented) (file : Option String) : f.inFile file = f := by
  cases f with
  | complaint what at_ line => exact absurd trivial h
  | _ => rfl

end Failure

namespace Directive

end Directive

namespace Library

variable {store : Store} {path : FilePath} {bytes : ByteArray} {name : String} {f : Failure}

/-- How the contents of a file fail in a way that is not documented, if they do. -/
inductive Unforeseen (bytes : ByteArray) : Failure → Prop where
  | undecodable : String.fromUTF8? bytes = none → Unforeseen bytes .undecodable
  | zeroCharacter {text : String} : readText bytes = .ok text → text.toList.contains '\x00' = true →
      Unforeseen bytes .zeroCharacter
  | scanning {text : String} {body : List Stmt} {why : Comments.ScanError} : readText bytes = .ok text →
      text.toList.contains '\x00' = false → Grammar.parse text.toList = some body →
      Comments.scan text.toList = .error why → why ≠ .unindent → Unforeseen bytes (.scanning why)
  | placing {text : String} {body : List Stmt} {comments : List Comment} {why : Comments.PlaceError} :
      readText bytes = .ok text → text.toList.contains '\x00' = false → Grammar.parse text.toList = some body →
      Comments.scan text.toList = .ok comments → Comments.attach text.toList comments body = .error why →
      Unforeseen bytes (.placing why)
  | unhashable {file text : String} {body : List Stmt} {kind : String} : readText bytes = .ok text →
      readAnnotated file text.toList = .ok body → attachBody body = .error (.unhashable kind) →
      Unforeseen bytes (.unhashable kind)

theorem not_isDocumented_of_unforeseen (h : Unforeseen bytes f) : ¬ f.IsDocumented := by
  cases h <;> exact id

/-- A path cannot be looked up because a name on it is too long. -/
def IsTooLong (store : Store) (f : Failure) : Prop :=
  ∃ path, f = .files ⟨.nameTooLong, path⟩ ∧ store.locate path = .error .nameTooLong

/-- The files being read have no such contents. -/
def Sound (store : Store) (chain : Chain) : Prop :=
  ∀ e ∈ chain, ∀ bytes f, store.find? e.1.names = some (.file bytes) → ¬ Unforeseen bytes f

theorem Sound.enter {chain longer : Chain} (hsound : Sound store chain) (hfile : store.isFile path = .ok true)
    (hclean : ∀ bytes f, store.read path = .ok bytes → ¬ Unforeseen bytes f)
    (h : enter store chain path name = .ok longer) : Sound store longer := by
  obtain ⟨real, hreal, -, rfl⟩ := enter_eq_ok h
  obtain ⟨l, -, hl, -⟩ := Store.isFile_eq_true_iff.1 hfile
  obtain rfl : real = ⟨.slash, l⟩ := Except.ok.inj (hreal.symm.trans (Store.realPath_of_locate hl))
  refine List.forall_mem_append.2 ⟨hsound, List.forall_mem_singleton.2 fun bytes f hentry => ?_⟩
  exact hclean bytes f (Store.read_eq_ok_iff.2 ⟨l, hl, hentry⟩)

end Library

namespace Traced

variable {α β : Type} {store : Store} {x : Traced α} {f : Failure}

/-- A computation that stops at a file with such contents as soon as it is found, and fails in an undocumented way over
such a file only, or over a name that is too long. -/
structure Heeds (store : Store) (x : Traced α) : Prop where
  stops : ∀ names path bytes f, Note.resolved names path ∈ x.notes → store.read path = .ok bytes →
    Library.Unforeseen bytes f → x.result = .error f
  documented : ∀ f, x.result = .error f → f.IsDocumented ∨
    (∃ names path bytes, Note.resolved names path ∈ x.notes ∧ store.read path = .ok bytes ∧
      Library.Unforeseen bytes f) ∨ Library.IsTooLong store f

theorem Heeds.bind {g : α → Traced β} (hx : Heeds store x) (hg : ∀ a, x.result = .ok a → Heeds store (g a)) :
    Heeds store (x >>= g) := by
  obtain ⟨ns, r⟩ := x
  cases r with
  | error e =>
    exact
      { stops := fun names path bytes f hn hbytes hf => congrArg _ (Except.error.inj (hx.stops names path bytes f hn hbytes hf))
        documented := fun f hf => hx.documented f (congrArg _ (Except.error.inj hf)) }
  | ok a =>
    have hrest := hg a rfl
    constructor
    · intro names path bytes f hn hbytes hf
      rcases List.mem_append.1 hn with hn | hn
      · cases hx.stops names path bytes f hn hbytes hf
      · exact hrest.stops names path bytes f hn hbytes hf
    · intro f hf
      refine (hrest.documented f hf).imp_right (Or.imp_left ?_)
      rintro ⟨names, path, bytes, hn, h⟩
      exact ⟨names, path, bytes, List.mem_append_right ns hn, h⟩

/-- A failure that is not documented is no complaint, so it stays as it is when complaints are given their file. -/
theorem Heeds.inFile (hx : Heeds store x) (file : Option String) : Heeds store (x.mapFailure (Failure.inFile file)) := by
  obtain ⟨ns, r⟩ := x
  cases r with
  | ok a =>
    exact
      { stops := fun names path bytes f hn hbytes hf => by cases hx.stops names path bytes f hn hbytes hf
        documented := fun f hf => by cases hf }
  | error g =>
    constructor
    · intro names path bytes f hn hbytes hf
      obtain rfl : g = f := Except.error.inj (hx.stops names path bytes f hn hbytes hf)
      exact congrArg _ (Failure.inFile_of_not_isDocumented (Library.not_isDocumented_of_unforeseen hf) file)
    · rintro _ ⟨⟩
      by_cases hg : g.IsDocumented
      · exact .inl (hg.inFile file)
      · rw [Failure.inFile_of_not_isDocumented hg]
        exact hx.documented g rfl

end Traced

namespace Conversion

open Traced Library

variable {c : Conversion} {store : Store} {lib : Library} {load : Loader} {file : Option String} {chain : Chain}

end Conversion

end TwinModule
