/-!
Why a tree may have no source text.
-/
set_option autoImplicit false

namespace TwinModule

inductive PrintError where
  /-- A part that the node cannot be written without was taken out. -/
  | missing (owner role : String)
  /-- There are several expressions where the strength of one has to be known. -/
  | manyForOne
  /-- A cause is given for no exception. -/
  | causeAlone
  /-- A replaced field of a format string cannot be written without a backslash. -/
  | backslashInField
  /-- A format string holds what is neither text nor a replaced field. -/
  | foreignPart (kind : String)
  /-- A list that has to match another one in length is shorter or longer. -/
  | unmatched (isShorter : Bool)
  deriving DecidableEq, Repr

end TwinModule
