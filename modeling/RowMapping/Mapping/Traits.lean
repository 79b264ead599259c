import RowMapping.Mapping.Carrier
import RowMapping.Mapping.Layout
import RowMapping.Text.Quoted
/-!
# Traits of the members that can be changed one by one

* `FieldTraits`, `Entity.fieldTraits`: what is known of such a member;
* `traitsType`: the enumeration of these members;
* `fieldInfo`: the specialization for each of them.
-/

namespace RowMapping

open Text

namespace Mapping

/-- What is known of a member that can be changed. -/
structure FieldTraits where
  member : String
  valueType : String
  column : String
  isTimestamp : Bool
  isNullable : Bool
  deriving DecidableEq, Repr

end Mapping

open Mapping

namespace Entity

/-- The type in which a changed value travels: enums and raw JSON as text. -/
def changedType (e : Entity) (m : Member) : String :=
  if (e.enumFor? m.name).isSome || e.isRawJson m then "std::string" else m.valueType

/-- The traits of the members that can be changed one by one; an entity that is read-only has
none. -/
def fieldTraits (e : Entity) : List FieldTraits :=
  if e.readOnly then []
  else e.updateableMembers.map fun m =>
    { member := m.name
      valueType := e.changedType m
      column := m.column
      isTimestamp := e.isTimestamp m.name
      isNullable := m.isOptional }

end Entity

namespace Mapping

/-- The enumeration of the members that can be changed. -/
def traitsType (e : Entity) : List String :=
  let names := e.fieldTraits.map FieldTraits.member
  "    struct TraitsType \x7b" ::
    (if names.isEmpty then []
      else
        "        enum class Field : uint8_t \x7b" :: commaLines "            " names ++
          ["        \x7d;",
            "",
            "        template<Field> struct FieldInfo;"]) ++
    ["    \x7d;"]

/-- The specialization for a member of the mapping `mapping`. -/
def FieldTraits.lines (mapping : String) (f : FieldTraits) : List String :=
  let traits := s!"{mapping}::TraitsType"
  let column := quote ("\"" ++ f.column ++ "\"")
  ["template<>",
    s!"struct {traits}::FieldInfo<{traits}::Field::{f.member}> \x7b",
    s!"    using value_type = {f.valueType};",
    s!"    static constexpr const char* column_name = {column};",
    s!"    static constexpr bool is_timestamp = {f.isTimestamp};",
    s!"    static constexpr bool is_nullable = {f.isNullable};",
    "\x7d;",
    ""]

/-- The specializations for the members that can be changed. -/
def fieldInfo (e : Entity) (mapping : String) : List String :=
  e.fieldTraits.flatMap (FieldTraits.lines mapping)

end Mapping

end RowMapping
