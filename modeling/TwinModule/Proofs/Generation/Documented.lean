import TwinModule.Proofs.Conversion.Documented
import TwinModule.Proofs.Generation.Run
/-!
When a generation fails in a way that is not documented: over the contents of a file that it reads, or over a name that
is too long to be looked up.
-/
set_option autoImplicit false

namespace TwinModule.Project
open Traced Conversion Library

variable {store : Store} {o : Options} {lib : Library} {root : RootModule} {source path : FilePath} {f : Failure}

end TwinModule.Project
