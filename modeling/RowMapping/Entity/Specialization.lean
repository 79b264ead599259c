import RowMapping.Name.Basic
import RowMapping.Tag.Basic
import RowMapping.Text.Blank
import RowMapping.Text.Word
/-!
# Metadata that a header has already

A header may specialize `glz::meta` for a class or an enum.  The specialization is found by its
text alone: `struct glz::meta<path::Type>`, with blanks where C++ allows them, anywhere in the
header.

* `Specialization.headRests`: the texts after a head that starts a text;
* `Specialization.occurs`: some specialization for a type occurs in a header;
* `Specialization.pairs`: the pairs in the `glz::enumerate(…)` call of the first specialization for
  an enum that has a body.
-/

namespace RowMapping.Specialization

open Text

/-- A character of a qualified name. -/
def isPathChar (c : Char) : Bool := isWord c || c == ':'

/-- The texts that remain when some of the blanks in front are skipped, fewest left first. -/
def afterBlanks (cs : List Char) : List (List Char) :=
  let n := (cs.takeWhile isBlank).length
  (List.range (n + 1)).reverse.map cs.drop

/-- The lengths of the qualifying paths that a text starts with, longest first: characters of a
qualified name, at least one of them before a closing scope sign, or nothing. -/
def pathLengths (cs : List Char) : List Nat :=
  let run := cs.takeWhile isPathChar
  (List.range (run.length + 1)).reverse.filter fun n =>
    n == 0 || (3 ≤ n && (run.take n).drop (n - 2) == Name.scopeSign)

/-- The texts after a qualified `type` and a closing angle bracket that start a text. -/
def argumentRests (type cs : List Char) : List (List Char) :=
  (pathLengths cs).filterMap fun n =>
    (type.isPrefixOf? (cs.drop n)).bind fun rest => ['>'].isPrefixOf? (trimStart rest)

/-- The text after `struct glz::meta<` at the start of a text. -/
def opening? (cs : List Char) : Option (List Char) := do
  let rest ← "struct".toList.isPrefixOf? cs
  guard ((rest.head?.map isBlank).getD false)
  let rest ← "glz::meta".toList.isPrefixOf? (trimStart rest)
  ['<'].isPrefixOf? (trimStart rest)

/-- The texts after a head `struct glz::meta<path::type>` that starts a text, in the order in which
they are tried. -/
def headRests (type cs : List Char) : List (List Char) :=
  match opening? cs with
  | none => []
  | some rest => (afterBlanks rest).flatMap (argumentRests type)

/-- A specialization for `type` occurs in a text. -/
def occursFor (type : List Char) : List Char → Bool
  | [] => false
  | c :: cs => !(headRests type (c :: cs)).isEmpty || occursFor type cs

/-- The text up to the first closing brace that a semicolon follows. -/
def untilEnd? : List Char → Option (List Char)
  | [] => none
  | c :: cs =>
    if c = '\x7d' && (trimStart cs).head? = some ';' then some []
    else (untilEnd? cs).map (c :: ·)

/-- The body in braces that starts a text, after blanks. -/
def body? (cs : List Char) : Option (List Char) :=
  match trimStart cs with
  | '\x7b' :: rest => untilEnd? rest
  | _ => none

/-- The body of the first specialization for `type` that has one. -/
def firstBody? (type : List Char) : List Char → Option (List Char)
  | [] => none
  | c :: cs =>
    match (headRests type (c :: cs)).findSome? body? with
    | some body => some body
    | none => firstBody? type cs

/-- The arguments of the first call of `glz::enumerate` in a text, up to a parenthesis. -/
def arguments? (cs : List Char) : Option (List Char) := do
  let (_, rest) ← splitFirst? "glz::enumerate(".toList cs
  let (arguments, _) ← splitFirst? [')'] rest
  return arguments

/-- A pair at the start of a text, and the text after it: a literal, a comma and a name. -/
def pair? (cs : List Char) : Option (EnumPair × List Char) := do
  let rest ← ['"'].isPrefixOf? cs
  let external := rest.takeWhile (· != '"')
  guard !external.isEmpty
  let rest ← ['"'].isPrefixOf? (rest.dropWhile (· != '"'))
  let rest ← [','].isPrefixOf? (trimStart rest)
  let rest := trimStart rest
  let name := rest.takeWhile isPathChar
  guard !name.isEmpty
  return (⟨String.ofList external, Name.bare (String.ofList name)⟩, rest.dropWhile isPathChar)

/-- The pairs in a text; a character that starts none is passed over.  At most `fuel` characters
are looked at. -/
def pairsWithin : Nat → List Char → List EnumPair
  | 0, _ => []
  | _, [] => []
  | fuel + 1, c :: cs =>
    match pair? (c :: cs) with
    | some (pair, rest) => pair :: pairsWithin fuel rest
    | none => pairsWithin fuel cs

/-- The pairs in a text. -/
def pairsIn (cs : List Char) : List EnumPair := pairsWithin cs.length cs

/-- A header specializes `glz::meta` for a type. -/
def occurs (source : List Char) (type : String) : Bool := occursFor type.toList source

/-- The pairs that a header gives for an enum type. -/
def pairs (source : List Char) (type : String) : List EnumPair :=
  (((firstBody? type.toList source).bind arguments?).map pairsIn).getD []

end RowMapping.Specialization
