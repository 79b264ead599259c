import RowMapping.Entity.Basic
import RowMapping.Json
/-!
# Reports on entities

An entity as a JSON value, with all that its tags mean written out.
-/

namespace RowMapping

open Json

/-- An enum pair, whose enumerator is local to the program. -/
def EnumPair.toJson (p : EnumPair) : Json :=
  object [("external", text p.external), ("local", text p.enumerator)]

/-- A filter with the name of its operator. -/
def Filter.toJson (f : Filter) : Json :=
  object [("param", text f.param), ("field", text f.field), ("op", text f.op.name)]

/-- A sort key with the name of its direction. -/
def SortKey.toJson (s : SortKey) : Json :=
  object [("param", text s.param), ("field", text s.field), ("direction", text s.direction.name)]

/-- A flag by its name; an unknown word is marked as such. -/
def MemberFlag.toJson : MemberFlag → Json
  | primaryKey => text "PrimaryKey"
  | partitionKey => text "PartitionKey"
  | dbManaged => text "DbManaged"
  | timestamp => text "Timestamp"
  | rawJson => text "RawJson"
  | jsonField => text "JsonField"
  | autoEnum => text "AutoEnum"
  | other word => object [("Other", text word)]

/-- The tags of a member, each kind in a list of its own. -/
def MemberTags.toJson (t : MemberTags) : Json :=
  object [
    ("flags", array (t.flags.map MemberFlag.toJson)),
    ("column", ofOption t.column),
    ("enum_pairs", array (t.pairs.map EnumPair.toJson)),
    ("filters", array (t.filters.map Filter.toJson)),
    ("sorts", array (t.sorts.map SortKey.toJson))]

/-- A member with the texts of its declaration. -/
def Member.toJson (m : Member) : Json :=
  object [
    ("name", text m.name),
    ("declared_type", text m.type),
    ("default_expr", text m.initial),
    ("line", nat m.line),
    ("tags", m.tags.toJson)]

/-- An enum mapping with its pairs. -/
def EnumMapping.toJson (e : EnumMapping) : Json :=
  object [
    ("field_name", text e.field),
    ("enum_type", text e.type),
    ("pairs", array (e.pairs.map EnumPair.toJson)),
    ("has_external_meta", bool e.hasMeta)]

/-- A column with its place. -/
def Column.toJson (c : Column) : Json :=
  object [("index", nat c.index), ("field", text c.field), ("column", text c.column)]

namespace Entity

/-- What the tags of an entity mean. -/
def meaningJson (e : Entity) : Json :=
  object [
    ("table_name", text e.table),
    ("model", ofOption e.model),
    ("primary_keys", texts e.primaryKeys),
    ("partition_keys", texts e.partitionKeys),
    ("db_managed", texts e.dbManaged),
    ("timestamps", texts e.timestamps),
    ("raw_json", texts e.rawJson),
    ("json_fields", texts e.jsonFields),
    ("enums", array (e.enums.map EnumMapping.toJson)),
    ("read_only", bool e.readOnly),
    ("filters", array (e.filters.map Filter.toJson)),
    ("sorts", array (e.sorts.map SortKey.toJson)),
    ("limit_tiers", array (e.tiers.map fun n => nat n.toNat)),
    ("qualified_entity_name", text e.entityName),
    ("has_struct_meta", bool e.hasStructMeta)]

/-- The report on an entity. -/
def toJson (e : Entity) : Json :=
  object [
    ("class_name", text e.className),
    ("namespace", text e.scope),
    ("annotation", e.meaningJson),
    ("fields", array (e.members.map Member.toJson)),
    ("columns", array (e.columns.map Column.toJson)),
    ("source", object [("file", text e.file), ("line", nat e.line)])]

end Entity

end RowMapping
