/-!
# Tags

What the annotations of a header say, as values: pairs of an enum mapping, list filters and sort
keys, the tags of a class and the tags of a member.

* `EnumPair`, `FilterOp`, `Filter`, `Direction`, `SortKey`;
* `ClassTag`: one word of an annotation block;
* `MemberFlag`, `MemberTags`: the tags in the comment behind a member.
-/

namespace RowMapping

/-- The text that stands for an enumerator outside of the program. -/
structure EnumPair where
  external : String
  enumerator : String
  deriving DecidableEq, Repr

/-- How a filter compares a column with its parameter. -/
inductive FilterOp
  | eq
  | ne
  | gt
  | ge
  | lt
  | le
  deriving DecidableEq, Repr

namespace FilterOp

/-- The operator of a name, where two have a second name. -/
def ofName? : String → Option FilterOp
  | "eq" => some eq
  | "ne" => some ne
  | "gt" => some gt
  | "ge" | "gte" => some ge
  | "lt" => some lt
  | "le" | "lte" => some le
  | _ => none

/-- The name of an operator. -/
def name : FilterOp → String
  | eq => "eq"
  | ne => "ne"
  | gt => "gt"
  | ge => "ge"
  | lt => "lt"
  | le => "le"

/-- The name of an operator in capitals. -/
def capitalName : FilterOp → String
  | eq => "EQ"
  | ne => "NE"
  | gt => "GT"
  | ge => "GE"
  | lt => "LT"
  | le => "LE"

@[simp] theorem ofName?_name (op : FilterOp) : ofName? op.name = some op := by
  cases op <;> rfl

end FilterOp

/-- The direction of a sort. -/
inductive Direction
  | asc
  | desc
  deriving DecidableEq, Repr

namespace Direction

/-- The direction of a name. -/
def ofName? : String → Option Direction
  | "asc" => some asc
  | "desc" => some desc
  | _ => none

/-- The name of a direction. -/
def name : Direction → String
  | asc => "asc"
  | desc => "desc"

/-- The name of a direction as an enumerator. -/
def capitalName : Direction → String
  | asc => "Asc"
  | desc => "Desc"

@[simp] theorem ofName?_name (d : Direction) : ofName? d.name = some d := by
  cases d <;> rfl

end Direction

/-- A request parameter that filters a list by a member. -/
structure Filter where
  param : String
  field : String
  op : FilterOp
  deriving DecidableEq, Repr

/-- A request parameter that sorts a list by a member. -/
structure SortKey where
  param : String
  field : String
  direction : Direction
  deriving DecidableEq, Repr

/-- One word of an annotation block. -/
inductive ClassTag
  | table (name : String)
  | model (name : String)
  | readOnly
  | enumeration (field : String) (pairs : List EnumPair)
  | limits (tiers : List UInt16)
  | entity (name : String)
  | other (word : String)
  deriving DecidableEq, Repr

/-- A property of a member. -/
inductive MemberFlag
  | primaryKey
  | partitionKey
  | dbManaged
  | timestamp
  | rawJson
  | jsonField
  | autoEnum
  | other (word : String)
  deriving DecidableEq, Repr

namespace MemberFlag

/-- The flag that a word names; an unknown word is kept as it is. -/
def ofWord : String → MemberFlag
  | "primary_key" => primaryKey
  | "partition_key" => partitionKey
  | "db_managed" => dbManaged
  | "timestamp" => timestamp
  | "raw_json" => rawJson
  | "json_field" => jsonField
  | "enum" => autoEnum
  | word => other word

/-- The word that names a flag. -/
def word : MemberFlag → String
  | primaryKey => "primary_key"
  | partitionKey => "partition_key"
  | dbManaged => "db_managed"
  | timestamp => "timestamp"
  | rawJson => "raw_json"
  | jsonField => "json_field"
  | autoEnum => "enum"
  | other word => word

theorem word_ofWord (w : String) : (ofWord w).word = w := by
  unfold ofWord
  split <;> rfl

end MemberFlag

/-- All that the comment behind a member says about it. -/
structure MemberTags where
  flags : List MemberFlag := []
  column : Option String := none
  pairs : List EnumPair := []
  filters : List Filter := []
  sorts : List SortKey := []
  deriving DecidableEq, Repr

namespace MemberTags

/-- A member carries a flag. -/
def has (tags : MemberTags) (flag : MemberFlag) : Bool := tags.flags.contains flag

/-- The comment says nothing. -/
def isEmpty (tags : MemberTags) : Bool := tags == {}

end MemberTags

end RowMapping
