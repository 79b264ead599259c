import RowMapping.Entity.Basic
/-!
# How a member travels

The value of a member travels between an object and a row in one of four ways.

* `Carrier`: the ways;
* `Entity.carrier`: the way of a member, where JSON goes before raw JSON and that before an enum.
-/

namespace RowMapping

/-- The way in which the value of a member travels. -/
inductive Carrier
  /-- As the JSON text that it is serialized to. -/
  | json
  /-- As the JSON text that it holds. -/
  | rawJson
  /-- As the text that stands for its enumerator, with the qualified type and the pairs. -/
  | enumeration (type : String) (pairs : List EnumPair)
  /-- As it is. -/
  | plain
  deriving DecidableEq, Repr

/-- The way in which the value of a member of an entity travels. -/
def Entity.carrier (e : Entity) (m : Member) : Carrier :=
  if e.isJson m.name then .json
  else if e.isRawJson m then .rawJson
  else
    match e.enumFor? m.name with
    | some mapping => .enumeration (Name.qualify e.scope mapping.type) mapping.pairs
    | none => .plain

end RowMapping
