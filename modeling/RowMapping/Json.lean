import RowMapping.Text.Quoted
/-!
# JSON values

Values as a report prints them: every item of an array and every entry of an object stands on a line
of its own, two blanks further in than the brackets around it.

* `Json`: the values;
* `Json.render`: their text.
-/

namespace RowMapping

/-- A JSON value; the entries of an object keep their order. -/
inductive Json
  | null
  | bool (b : Bool)
  | nat (n : Nat)
  | text (s : String)
  | array (items : List Json)
  | object (entries : List (String × Json))

namespace Json

/-- An optional text, where none is null. -/
def ofOption : Option String → Json
  | some s => text s
  | none => null

/-- A list of texts. -/
def texts (xs : List String) : Json := array (xs.map text)

/-- A line break and the indentation of a level. -/
def newline (level : Nat) : String := "\n" ++ String.ofList (List.replicate (2 * level) ' ')

mutual

/-- The text of a value that starts at a level of indentation. -/
def renderAt (level : Nat) : Json → String
  | null => "null"
  | bool b => if b then "true" else "false"
  | nat n => toString n
  | text s => Text.quote s
  | array [] => "[]"
  | array (item :: items) =>
    "[" ++ newline (level + 1) ++ renderAt (level + 1) item ++ renderItems (level + 1) items ++
      newline level ++ "]"
  | object [] => "\x7b\x7d"
  | object (entry :: entries) =>
    "\x7b" ++ newline (level + 1) ++ renderEntry (level + 1) entry ++
      renderEntries (level + 1) entries ++ newline level ++ "\x7d"

/-- The texts of the items after the first one. -/
def renderItems (level : Nat) : List Json → String
  | [] => ""
  | item :: items => "," ++ newline level ++ renderAt level item ++ renderItems level items

/-- The text of an entry. -/
def renderEntry (level : Nat) : String × Json → String
  | (key, value) => Text.quote key ++ ": " ++ renderAt level value

/-- The texts of the entries after the first one. -/
def renderEntries (level : Nat) : List (String × Json) → String
  | [] => ""
  | entry :: entries =>
    "," ++ newline level ++ renderEntry level entry ++ renderEntries level entries

end

/-- The text of a value. -/
def render (j : Json) : String := renderAt 0 j

end Json

end RowMapping
