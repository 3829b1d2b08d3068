import TwinModule.Paired.Block
import TwinModule.Proofs.Beside.File
/-!
The lines of a file, and the text that its tokens are read from.
-/
set_option autoImplicit false

namespace TwinModule

namespace Text

end Text

namespace Paired
open Text Grammar Token

end Paired

end TwinModule
