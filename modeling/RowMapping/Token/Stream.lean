import RowMapping.Text.Bytes
import RowMapping.Token.Lexeme
/-!
# Tokens of a header

A token is a lexeme of the code or a line comment, with its place in the text.

* `Token.Kind`, `Token`: a token and its place;
* `Cursor`: the place that a walk over the lexemes has reached;
* `located`: the tokens of a list of lexemes;
* `Token.ofText`: the tokens of a text;
* `Token.stream`: the same, closed by an end mark.

Lines and columns count from one, and columns and positions count bytes.
-/

namespace RowMapping

open Text

namespace Token

/-- What a token is. -/
inductive Kind
  | word
  | number
  | string
  | character
  | mark
  | comment
  | finish
  deriving DecidableEq, Repr

end Token

/-- A token with its place: line, column, the positions of its first byte and after its last one,
and whether nothing but blanks precedes it on its line. -/
structure Token where
  kind : Token.Kind
  text : String
  line : Nat
  column : Nat
  start : Nat
  stop : Nat
  firstOnLine : Bool
  deriving DecidableEq, Repr

namespace Token

/-- The token is code that reads `text`. -/
def reads (t : Token) (text : String) : Bool := t.kind != .comment && t.text == text

/-- The token is a comment. -/
def isComment (t : Token) : Bool := t.kind == .comment

/-- The token would run together with a word next to it. -/
def isWordLike (t : Token) : Bool := t.kind == .word || t.kind == .number

/-- The kind of token that a lexeme of this shape gives, if it gives one. -/
def Kind.ofShape? : Shape → Option Kind
  | .blank | .blockComment | .directive => none
  | .lineComment => some .comment
  | .string => some .string
  | .character => some .character
  | .number => some .number
  | .word => some .word
  | .mark => some .mark

end Token

/-- A place between two lexemes: line, column, position, and the last line that holds something
other than blanks (none yet when it is zero). -/
structure Cursor where
  line : Nat
  column : Nat
  offset : Nat
  contentLine : Nat
  deriving DecidableEq, Repr

namespace Cursor

/-- The beginning of a text. -/
def start : Cursor := ⟨1, 1, 0, 0⟩

/-- The number of line ends in a text. -/
def newlines (cs : List Char) : Nat := cs.count '\n'

/-- The column after a text that starts in column `column`. -/
def columnAfter (column : Nat) (cs : List Char) : Nat :=
  if newlines cs = 0 then column + byteLength cs
  else byteLength (cs.reverse.takeWhile (· != '\n')) + 1

/-- The place after a lexeme. -/
def pass (c : Cursor) (l : Lexeme) : Cursor where
  line := c.line + newlines l.text
  column := columnAfter c.column l.text
  offset := c.offset + byteLength l.text
  contentLine := if l.shape = .blank then c.contentLine else c.line + newlines l.text

/-- The token at a place, unless the lexeme there is trivia. -/
def token? (c : Cursor) (l : Lexeme) : Option Token :=
  (Token.Kind.ofShape? l.shape).map fun kind =>
    { kind
      text := String.ofList l.text
      line := c.line
      column := c.column
      start := c.offset
      stop := c.offset + byteLength l.text
      firstOnLine := c.contentLine != c.line }

/-- The end mark at a place. -/
def finish (c : Cursor) : Token :=
  ⟨.finish, "", c.line, c.column, c.offset, c.offset, true⟩

end Cursor

/-- The tokens of lexemes that start at a place. -/
def located (c : Cursor) : List Lexeme → List Token
  | [] => []
  | l :: ls => (c.token? l).toList ++ located (c.pass l) ls

/-- The tokens of a text. -/
def Token.ofText (cs : List Char) : List Token := located .start (lexemes cs)

/-- The tokens of a text, and an end mark. -/
def Token.stream (cs : List Char) : List Token :=
  Token.ofText cs ++ [((lexemes cs).foldl Cursor.pass .start).finish]

end RowMapping
