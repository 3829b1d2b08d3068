/-!
Names that a test module need not define: those that are always there, and those of the testing package.
-/
set_option autoImplicit false

namespace TwinModule.Paired

/-- The names of built-in functions, types and errors. -/
def builtinNames : List String :=
  ["ArithmeticError", "AssertionError", "AttributeError", "BaseException", "BaseExceptionGroup", "BlockingIOError",
   "BrokenPipeError", "BufferError", "BytesWarning", "ChildProcessError", "ConnectionAbortedError",
   "ConnectionError", "ConnectionRefusedError", "ConnectionResetError", "DeprecationWarning", "EOFError",
   "EncodingWarning", "EnvironmentError", "Exception", "ExceptionGroup", "FileExistsError", "FileNotFoundError",
   "FloatingPointError", "FutureWarning", "GeneratorExit", "IOError", "ImportError", "ImportWarning",
   "IndentationError", "IndexError", "InterruptedError", "IsADirectoryError", "KeyError", "KeyboardInterrupt",
   "LookupError", "MemoryError", "ModuleNotFoundError", "NameError", "NotADirectoryError", "NotImplementedError",
   "OSError", "OverflowError", "PendingDeprecationWarning", "PermissionError", "ProcessLookupError",
   "RecursionError", "ReferenceError", "ResourceWarning", "RuntimeError", "RuntimeWarning", "StopAsyncIteration",
   "StopIteration", "SyntaxError", "SyntaxWarning", "SystemError", "SystemExit", "TabError", "TimeoutError",
   "TypeError", "UnboundLocalError", "UnicodeDecodeError", "UnicodeEncodeError", "UnicodeError",
   "UnicodeTranslateError", "UnicodeWarning", "UserWarning", "ValueError", "Warning", "ZeroDivisionError",
   "abs", "aiter", "all", "anext", "any", "ascii", "bin", "bool", "breakpoint", "bytearray", "bytes", "callable",
   "chr", "classmethod", "compile", "complex", "delattr", "dict", "dir", "divmod", "enumerate", "eval", "exec",
   "filter", "float", "format", "frozenset", "getattr", "globals", "hasattr", "hash", "hex", "id", "input", "int",
   "isinstance", "issubclass", "iter", "len", "list", "locals", "map", "max", "memoryview", "min", "next",
   "object", "oct", "ord", "pow", "print", "property", "range", "repr", "reversed", "round", "set", "setattr",
   "slice", "sorted", "staticmethod", "str", "sum", "super", "tuple", "type", "vars", "zip"]

/-- The built-in names that are functions and not types. -/
def builtinFunctions : List String :=
  ["abs", "aiter", "all", "anext", "any", "ascii", "bin", "breakpoint", "callable", "chr", "compile", "delattr",
   "dir", "divmod", "eval", "exec", "format", "getattr", "globals", "hasattr", "hash", "hex", "id", "input",
   "isinstance", "issubclass", "iter", "len", "locals", "max", "min", "next", "oct", "ord", "pow", "print",
   "repr", "round", "setattr", "sorted", "sum", "vars"]

/-- The public functions of the package, or of a module in it. -/
def packagedFunctions : String → List String
  | "python_amphi" => ["test", "generate", "generate_files", "render", "duplicate", "render_module"]
  | "python_amphi.testing" => ["test"]
  | "python_amphi.main" => ["generate", "generate_files", "render", "duplicate"]
  | _ => []

def packagedErrors : List String :=
  ["AmphiError", "DirectiveError", "TargetError", "ResolutionError", "ModuleCycleError", "MalformedTagError"]

/-- The public types of the package, or of a module in it. -/
def packagedTypes : String → List String
  | "python_amphi" =>
    ["VariantConversion", "SuspensionRemoval", "GenerationOptions", "Mode", "Variant"] ++ packagedErrors
  | "python_amphi.errors" => packagedErrors
  | "python_amphi.options" => ["Variant", "Mode", "GenerationOptions"]
  | _ => []

def packagedModules : String → List String
  | "python_amphi" => ["conversion", "errors", "main", "options", "parse", "runner", "testing"]
  | _ => []

end TwinModule.Paired
