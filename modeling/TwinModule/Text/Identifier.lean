import TwinModule.Text.IdentifierChars
/-!
Identifiers: a letter-like character, then letter-like characters, digits and joiners.
-/
set_option autoImplicit false

namespace TwinModule.Text

def isDigit (c : Char) : Bool :=
  '0' ≤ c && c ≤ '9'

def isLetter (c : Char) : Bool :=
  ('a' ≤ c && c ≤ 'z') || ('A' ≤ c && c ≤ 'Z')

/-- The underscore, a letter, or XID_Start. -/
def isIdentifierStart (c : Char) : Bool :=
  isLetter c || c == '_' || (128 ≤ c.toNat && identifierStarts.has c.toNat)

/-- What may follow the first character of an identifier. -/
def isIdentifierPart (c : Char) : Bool :=
  isLetter c || c == '_' || isDigit c || (128 ≤ c.toNat && identifierParts.has c.toNat)

/-- A whole text that is one identifier. Keywords count. -/
def isIdentifier : List Char → Bool
  | [] => false
  | c :: cs => isIdentifierStart c && cs.all isIdentifierPart

theorem isIdentifier_cons {c : Char} {cs : List Char} :
    isIdentifier (c :: cs) = (isIdentifierStart c && cs.all isIdentifierPart) := rfl

theorem not_isIdentifierPart_dot : isIdentifierPart '.' = false := by decide

theorem not_mem_of_isIdentifier {c : Char} {cs : List Char} (hstart : isIdentifierStart c = false)
    (hpart : isIdentifierPart c = false) (h : isIdentifier cs = true) : c ∉ cs := by
  cases cs with
  | nil => simp
  | cons d cs =>
    simp only [isIdentifier, Bool.and_eq_true, List.all_eq_true] at h
    intro hm
    rcases List.mem_cons.1 hm with rfl | hm
    · exact absurd h.1 (by simp [hstart])
    · exact absurd (h.2 _ hm) (by simp [hpart])

theorem dot_not_mem_of_isIdentifier {cs : List Char} (h : isIdentifier cs = true) : '.' ∉ cs :=
  not_mem_of_isIdentifier (by decide) not_isIdentifierPart_dot h

theorem slash_not_mem_of_isIdentifier {cs : List Char} (h : isIdentifier cs = true) : '/' ∉ cs :=
  not_mem_of_isIdentifier (by decide) (by decide) h

end TwinModule.Text
