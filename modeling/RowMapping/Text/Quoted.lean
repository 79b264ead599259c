/-!
# Quoted texts

A text between double quotes, where the quote, the backslash and the controls below the space are
escaped as JSON escapes them; the same literal is also one of C++.

* `quotedChar`, `quote`: the written form.
-/

namespace RowMapping.Text

/-- A control below the space in the general escape: two hexadecimal digits. -/
def controlEscape (c : Char) : List Char :=
  "\\u00".toList ++ [Nat.digitChar (c.toNat / 16), Nat.digitChar (c.toNat % 16)]

/-- One character inside a quoted text. -/
def quotedChar (c : Char) : List Char :=
  match c with
  | '"' => ['\\', '"']
  | '\\' => ['\\', '\\']
  | '\x08' => ['\\', 'b']
  | '\t' => ['\\', 't']
  | '\n' => ['\\', 'n']
  | '\x0c' => ['\\', 'f']
  | '\r' => ['\\', 'r']
  | c => if c.toNat < 32 then controlEscape c else [c]

/-- A text as a quoted literal. -/
def quote (text : String) : String :=
  String.ofList ('"' :: text.toList.flatMap quotedChar ++ ['"'])

end RowMapping.Text
