/-!
Tokens of Python source text and the places where they start and end.
-/
set_option autoImplicit false

namespace TwinModule

/-- A place in a text: the line, from 1, and the bytes before it on that line. -/
structure Place where
  line : Nat
  column : Nat
  deriving DecidableEq, Repr, Inhabited

def Place.step (p : Place) (c : Char) : Place :=
  if c = '\n' then ⟨p.line + 1, 0⟩ else ⟨p.line, p.column + c.utf8Size⟩

def Place.after (p : Place) (cs : List Char) : Place :=
  cs.foldl Place.step p

theorem Place.after_append (p : Place) (as bs : List Char) :
    p.after (as ++ bs) = (p.after as).after bs := by
  simp [Place.after, List.foldl_append]

namespace Token

/-- What a token is for the grammar. Keywords are names. -/
inductive Kind where
  | name | number | string | op | newline | indent | dedent | stop
  deriving DecidableEq, Repr, Inhabited

end Token

/-- A token: its text as written and where it stands. -/
structure Token where
  kind : Token.Kind
  text : String
  start : Place
  stop : Place
  deriving DecidableEq, Repr, Inhabited

namespace Token

def keywords : List String :=
  ["False", "None", "True", "and", "as", "assert", "async", "await", "break", "class", "continue",
   "def", "del", "elif", "else", "except", "finally", "for", "from", "global", "if", "import", "in",
   "is", "lambda", "nonlocal", "not", "or", "pass", "raise", "return", "try", "while", "with", "yield"]

def isIdentifier (t : Token) : Bool :=
  t.kind == .name && !keywords.contains t.text

/-- A keyword or an operator with the given text. -/
def is (t : Token) (text : String) : Bool :=
  (t.kind == .op || t.kind == .name) && t.text == text

/-- Line structure rather than text: such a token never ends a statement's span. -/
def isLayout (t : Token) : Bool :=
  match t.kind with
  | .newline | .indent | .dedent | .stop => true
  | _ => false

end Token

end TwinModule
