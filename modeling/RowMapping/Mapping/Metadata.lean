import RowMapping.Entity.Basic
import RowMapping.Mapping.Layout
import RowMapping.Text.Quoted
/-!
# Metadata for serialization

The generated code specializes `glz::meta` for the class and for its enums, except for those that the
header specializes already.

* `glazeValue`: the members as a template inside the mapping;
* `structMeta`: the specialization for the class;
* `Entity.metaEnums`, `enumMetas`: the specializations for enums, one for each type.
-/

namespace RowMapping

open Text

namespace Mapping

/-- The members with their names, in the order of the columns. -/
def objectEntries (e : Entity) : List String :=
  e.columns.map fun c => s!"{quote c.field}, &T::{c.field}"

/-- The members as a template inside the mapping. -/
def glazeValue (e : Entity) : List String :=
  ["    template<typename T>",
    "    static constexpr auto glaze_value = glz::object("] ++
  commaLines "        " (objectEntries e) ++ ["    );"]

/-- The specialization for the class, unless the header has one. -/
def structMeta (e : Entity) : List String :=
  if e.hasStructMeta then []
  else
    ["template<>",
      s!"struct glz::meta<{e.structName}> \x7b",
      s!"    using T = {e.structName};",
      "    static constexpr auto value = glz::object("] ++
    commaLines "        " (objectEntries e) ++
    ["    );",
      "\x7d;"]

/-- The specialization for an enum type. -/
def enumMeta (type : String) (pairs : List EnumPair) : List String :=
  ["template<>",
    s!"struct glz::meta<{type}> \x7b",
    s!"    using enum {type};",
    "    static constexpr auto value = glz::enumerate("] ++
  commaLines "        " (pairs.map fun p => s!"{quote p.external}, {p.enumerator}") ++
  ["    );",
    "\x7d;"]

/-- The first mapping of each type, where `seen` are the types before. -/
def firstOfType (seen : List String) : List (String × List EnumPair) →
    List (String × List EnumPair)
  | [] => []
  | (type, pairs) :: rest =>
    if seen.contains type then firstOfType seen rest
    else (type, pairs) :: firstOfType (type :: seen) rest

end Mapping

open Mapping

/-- The enum types that the header leaves unspecialized, each once, with the pairs of the first
member of the type. -/
def Entity.metaEnums (e : Entity) : List (String × List EnumPair) :=
  firstOfType [] ((e.enums.filter fun m => !m.hasMeta).map fun m =>
    (Name.qualify e.scope m.type, m.pairs))

/-- The specializations for enums, with an empty line between two. -/
def Mapping.enumMetas (e : Entity) : List String :=
  (e.metaEnums.map fun (type, pairs) => enumMeta type pairs).intersperse [""] |>.flatten

end RowMapping
