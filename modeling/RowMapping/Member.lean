import RowMapping.Tag.Basic
import RowMapping.Text.Blank
import RowMapping.Text.Search
/-!
# Data members

A data member of a class, as its declaration and the tags behind it describe it.

* `Member`: name, type, initial value, line and tags;
* `Member.column`: the name of its column;
* `Member.isOptional`, `Member.valueType`: the type of the value that a `std::optional` may hold;
* `Member.holdsRawJson`: the type marks an uninterpreted JSON text.
-/

namespace RowMapping

open Text

/-- A data member with the texts of its type and of its initial value. -/
structure Member where
  name : String
  type : String
  initial : String
  line : Nat
  tags : MemberTags
  deriving DecidableEq, Repr

namespace Member

/-- The column of a member: its own name, unless a tag gives another one. -/
def column (m : Member) : String := m.tags.column.getD m.name

/-- What stands between the angle brackets of `std::optional<…>`, without blanks at the ends. -/
def optionalInner? (type : List Char) : Option (List Char) :=
  match "std::optional<".toList.isPrefixOf? type with
  | none => none
  | some rest => if rest.getLast? = some '>' then some (trim rest.dropLast) else none

/-- The member may be empty. -/
def isOptional (m : Member) : Bool := (optionalInner? m.type.toList).isSome

/-- The type of the member's value when it is not empty. -/
def valueType (m : Member) : String :=
  match optionalInner? m.type.toList with
  | some inner => String.ofList inner
  | none => m.type

/-- The type of the member marks an uninterpreted JSON text. -/
def holdsRawJson (m : Member) : Bool := occursIn "raw_json".toList m.type.toList

end Member

end RowMapping
