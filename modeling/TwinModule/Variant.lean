/-!
The two variants of a module and the modes that choose among them.
-/
set_option autoImplicit false

namespace TwinModule

inductive Variant where
  | blocking | asynchronous
  deriving DecidableEq, Repr

namespace Variant

/-- The name of the variant, which is also the name of the module made for it. -/
def name : Variant → String
  | blocking => "blocking"
  | asynchronous => "asynchronous"

def other : Variant → Variant
  | blocking => asynchronous
  | asynchronous => blocking

def ofName? (s : String) : Option Variant :=
  if s = blocking.name then some blocking
  else if s = asynchronous.name then some asynchronous
  else none

@[simp] theorem other_other (v : Variant) : v.other.other = v := by cases v <;> rfl

theorem other_ne (v : Variant) : v.other ≠ v := by cases v <;> decide

theorem name_inj {v w : Variant} (h : v.name = w.name) : v = w := by
  cases v <;> cases w <;> first | rfl | exact absurd h (by decide)

theorem ofName?_eq_some_iff {s : String} {v : Variant} : ofName? s = some v ↔ s = v.name := by
  unfold ofName?
  constructor
  · intro h
    split at h
    · rename_i e; cases h; exact e
    · split at h
      · rename_i e; cases h; exact e
      · cases h
  · rintro rfl
    cases v <;> decide

end Variant

inductive Mode where
  | both | blockingOnly | asyncOnly
  deriving DecidableEq, Repr

namespace Mode

/-- The variants of a mode, the asynchronous one first. -/
def variants : Mode → List Variant
  | both => [.asynchronous, .blocking]
  | blockingOnly => [.blocking]
  | asyncOnly => [.asynchronous]

def name : Mode → String
  | both => "both"
  | blockingOnly => "blocking_only"
  | asyncOnly => "async_only"

def ofName? (s : String) : Option Mode :=
  [both, blockingOnly, asyncOnly].find? fun m => m.name == s

theorem variants_nodup (m : Mode) : m.variants.Nodup := by cases m <;> decide

theorem variants_ne_nil (m : Mode) : m.variants ≠ [] := by cases m <;> decide

end Mode

end TwinModule
