import TwinModule.Syntax.Expr
import TwinModule.Grammar.Literal
/-!
Format strings: text in which fields stand between braces. A field is an expression, perhaps with a
conversion and a specification, which may hold fields in turn, but no deeper. The text of a field is cut out
before it is read as an expression, so it can hold neither backslashes nor hash marks.
-/
set_option autoImplicit false

namespace TwinModule.Grammar
open TwinModule.Text

/-- A stretch of a string: text, or a field. -/
inductive Chunk where
  | text (cs : List Char)
  | field (e : Expr)

/-- The text up to the next brace, what comes then, and whether a doubled brace ended it. Only at the
outermost level are braces doubled. -/
def literalPart (isRaw isOuter : Bool) : List Char → Option (List Char × List Char × Bool)
  | [] => some ([], [], false)
  | '\\' :: d :: cs =>
    if isRaw || d = '{' || d = '}' then do
      let (text, rest, again) ← literalPart isRaw isOuter (d :: cs)
      return ('\\' :: text, rest, again)
    else do
      let (text, rest, again) ← literalPart isRaw isOuter cs
      return ('\\' :: d :: text, rest, again)
  | c :: cs =>
    if c = '{' || c = '}' then
      if isOuter && cs.head? == some c then some ([c], cs.drop 1, true)
      else if isOuter && c = '}' then none
      else some ([], c :: cs, false)
    else do
      let (text, rest, again) ← literalPart isRaw isOuter cs
      return (c :: text, rest, again)

/-- What a scan through a field has to remember: the quote it is inside of, if any, and the open brackets. -/
structure FieldScan where
  quote : Option (Char × Bool)
  brackets : List Char

/-- How one character of a field is taken. -/
inductive FieldStep where
  | stop
  | fail
  /-- Go on after so many characters more. -/
  | on (extra : Nat) (next : FieldScan)

/-- How deep brackets may nest in a field. -/
def maxFieldDepth : Nat := 200

def FieldScan.step (s : FieldScan) (c : Char) (cs : List Char) : FieldStep :=
  if c = '\\' then .fail
  else match s.quote with
  | some (q, isTriple) =>
    if c = q then
      if isTriple then
        if cs.take 2 == [q, q] then .on 2 { s with quote := none } else .on 0 s
      else .on 0 { s with quote := none }
    else .on 0 s
  | none =>
    if c = '\'' || c = '"' then
      if cs.take 2 == [c, c] then .on 2 { s with quote := some (c, true) }
      else .on 0 { s with quote := some (c, false) }
    else if c = '(' || c = '[' || c = '{' then
      if maxFieldDepth ≤ s.brackets.length then .fail else .on 0 { s with brackets := c :: s.brackets }
    else if c = '#' then .fail
    else if s.brackets.isEmpty && ['!', ':', '}', '=', '>', '<'].contains c then
      if cs.head? == some '=' && ['!', '=', '<', '>'].contains c then .on 1 s
      else if c = '>' || c = '<' then .on 0 s
      else .stop
    else if c = ')' || c = ']' || c = '}' then
      match s.brackets with
      | o :: rest =>
        if (o = '(' && c = ')') || (o = '[' && c = ']') || (o = '{' && c = '}') then
          .on 0 { s with brackets := rest }
        else .fail
      | [] => .fail
    else .on 0 s

/-- The text of an expression in a field, and what comes after it. -/
def fieldText? (s : FieldScan) : (skip : Nat) → List Char → Option (List Char × List Char)
  | _, [] => none
  | n + 1, c :: cs => (fieldText? s n cs).map fun r => (c :: r.1, r.2)
  | 0, c :: cs =>
    match s.step c cs with
    | .stop => some ([], c :: cs)
    | .fail => none
    | .on extra next => (fieldText? next extra cs).map fun r => (c :: r.1, r.2)

/-- Text that the reader of tokens would skip. -/
def isSkipped (c : Char) : Bool := c == ' ' || c == '\t' || c == '\n' || c == '\x0c'

def conversion? : List Char → Option (Int × List Char)
  | 's' :: cs => some (115, cs)
  | 'r' :: cs => some (114, cs)
  | 'a' :: cs => some (97, cs)
  | _ => none

/-- The nodes for chunks; neighbouring texts are one, and no empty text is left. -/
def nodes (mark : Option String) : (pending : List Char) → List Chunk → List Expr
  | pending, [] => flush pending []
  | pending, .text cs :: rest => nodes mark (pending ++ cs) rest
  | pending, .field e :: rest => flush pending (e :: nodes mark [] rest)
where
  flush (pending : List Char) (es : List Expr) : List Expr :=
    if pending.isEmpty then es else .literal (.text (String.ofList pending)) mark :: es

/-- The chunks of a format string from one brace to the next, up to the end or the brace that closes a
specification. `expression` reads the text of a field. -/
def chunks? (expression : List Char → Option Expr) (isRaw : Bool) (mark : Option String) :
    (fuel level : Nat) → List Char → Option (List Chunk × List Char)
  | 0, _, _ => none
  | fuel + 1, level, cs => do
    let (literal, rest, again) ← literalPart isRaw (level == 0) cs
    let text ← content? isRaw literal
    if again then
      let (more, rest) ← chunks? expression isRaw mark fuel level rest
      return (.text text :: more, rest)
    match rest with
    | '{' :: body =>
      if 2 ≤ level then none
      let (source, rest) ← fieldText? ⟨none, []⟩ 0 body
      if source.all isSkipped then none
      let value ← expression source
      -- `=` shows the text of the expression as well
      let (shown, rest) := match rest with
        | '=' :: rest =>
          let blanks := rest.takeWhile fun c => c = ' ' || (9 ≤ c.toNat && c.toNat ≤ 13)
          (some (source ++ '=' :: blanks), rest.drop blanks.length)
        | rest => (none, rest)
      let (conversion, rest) ← match rest with
        | '!' :: rest => conversion? rest
        | rest => some (-1, rest)
      let (spec, rest) ← match rest with
        | ':' :: rest => do
          if rest.isEmpty then none
          let (parts, rest) ← chunks? expression isRaw mark fuel (level + 1) rest
          pure (some (.format (nodes mark [] parts)), rest)
        | rest => pure (none, rest)
      match rest with
      | '}' :: rest =>
        let conversion := if shown.isSome && spec.isNone && conversion = -1 then 114 else conversion
        let (more, rest) ← chunks? expression isRaw mark fuel level rest
        return (.text (text ++ shown.getD []) :: .field (.formatted value conversion spec) :: more, rest)
      | _ => none
    | rest => return ([.text text], rest)

/-- The chunks of one string token that is not bytes. -/
def tokenChunks (expression : List Char → Option Expr) (mark : Option String) (t : StringToken) :
    Option (List Chunk) := do
  if t.isFormat then
    let (parts, rest) ← chunks? expression t.isRaw mark (t.content.length + 1) 0 t.content
    if rest.isEmpty then return parts else none
  else return [.text (← content? t.isRaw t.content)]

/-- The node for string tokens that stand next to each other. Bytes and text do not mix. -/
def stringNode (expression : List Char → Option Expr) (ts : List StringToken) : Option Expr := do
  let first ← ts.head?
  let mark := if first.isMarked then some "u" else none
  if ts.all (·.isBytes) then
    let parts ← ts.mapM fun t => byteContent? t.isRaw t.content
    return .literal (.bytes parts.flatten) none
  else if ts.any (·.isBytes) then none
  else
    let parts ← ts.mapM (tokenChunks expression mark)
    if ts.any (·.isFormat) then return .format (nodes mark [] parts.flatten)
    else
      let text := parts.flatten.flatMap fun
        | .text cs => cs
        | .field _ => []
      return .literal (.text (String.ofList text)) mark

end TwinModule.Grammar
