import RowMapping.Entity.Basic
import RowMapping.Mapping.Layout
import RowMapping.Text.Quoted
/-!
# Keys of an entity

* `keyConstants`: the names of the key columns;
* `keyFunction`: the key of an object;
* `partitionHint`: the parameters of the delete that names the partition.
-/

namespace RowMapping

open Text

/-- The first member of the primary key. -/
def Entity.firstKey (e : Entity) : String := e.primaryKeys.head e.primaryKeys_ne_nil

/-- The members whose values the delete with the partition is given, in order. -/
def Entity.hintMembers (e : Entity) : List String := e.primaryKeys ++ e.partitionKeys

namespace Mapping

/-- The names of the key columns. -/
def keyConstants (e : Entity) : List String :=
  let first := quote (e.columnOf e.firstKey)
  let all := ", ".intercalate (e.keyColumns.map quote)
  let count := e.keyColumns.length
  s!"    static constexpr const char* primary_key_column = {first};" ::
    if e.isComposite then
      [s!"    static constexpr std::array<const char*, {count}> primary_key_columns = \x7b{all}\x7d;"]
    else []

/-- The key of an object: a member, or the tuple of several. -/
def keyFunction (e : Entity) : List String :=
  let members := ", ".intercalate (e.primaryKeys.map fun k => s!"e.{k}")
  let value := if e.isComposite then s!"std::make_tuple({members})" else s!"e.{e.firstKey}"
  ["    template<typename Entity>",
    "    static auto key(const Entity& e) noexcept \x7b",
    s!"        return {value};",
    "    \x7d"]

/-- The parameters of the delete that names the partition, in the order of its placeholders. -/
def partitionHint (e : Entity) : List String :=
  if e.partitionKeys.isEmpty then []
  else
    ["    template<typename Entity>",
      "    static jcailloux::relais::io::PgParams makePartitionHintParams(const Entity& e) \x7b",
      "        return jcailloux::relais::io::PgParams::make("] ++
    commaLines "            " (e.hintMembers.map fun k => s!"e.{k}") ++
    ["        );",
      "    \x7d"]

end Mapping

end RowMapping
