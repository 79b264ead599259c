import RowMapping.Sql.OfEntity
import RowMapping.Text.Quoted
/-!
# The statements as constants

The texts of the statements of an entity, as constants of the generated code.
-/

namespace RowMapping.Mapping

open Text

/-- A constant that holds a text. -/
def sqlConstant (name text : String) : List String :=
  [s!"        static constexpr const char* {name} =",
    s!"            {quote text};"]

/-- The names and the texts of the statements, in order. -/
def sqlTexts (e : Entity) : List (String × String) :=
  let s := e.statements
  [("returning_columns", Sql.commaList s.returning),
    ("select_by_pk", s.selectByKey.render),
    ("select_by_pks", s.selectByKeys.render),
    ("insert", s.insert.render)] ++
  (s.update.map fun u => ("update", u.render)).toList ++
  [("delete_by_pk", s.deleteByKey.render)] ++
  (s.deleteWithPartition.map fun d => ("delete_with_partition", d.render)).toList

/-- The constants that hold the statements. -/
def sqlStruct (e : Entity) : List String :=
  "    struct SQL \x7b" :: (sqlTexts e).flatMap (fun (name, text) => sqlConstant name text) ++
    ["    \x7d;"]

end RowMapping.Mapping
