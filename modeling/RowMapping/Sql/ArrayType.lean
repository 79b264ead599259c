/-!
# Array types of the database

The element type of the array that carries a column of C++ scalars into a batch query.
-/

namespace RowMapping.Sql

/-- The array element type of a C++ scalar type, for the scalars that need a cast. -/
def arrayElement? : String → Option String
  | "int64_t" | "std::int64_t" | "long long" => some "bigint"
  | "int32_t" | "std::int32_t" | "int" => some "integer"
  | "int16_t" | "std::int16_t" | "short" => some "smallint"
  | "bool" => some "boolean"
  | "double" => some "double precision"
  | "float" => some "real"
  | "std::string" => some "text"
  | _ => none

end RowMapping.Sql
