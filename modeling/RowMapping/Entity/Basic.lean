import RowMapping.Member
import RowMapping.Name.Basic
/-!
# Entities

An entity is a class with all that is needed to store its objects as rows of a table.  Its members
are kept in the order of their declaration, and all other orders are views of it.

* `EnumMapping`: the texts that stand for the enumerators of a member;
* `Entity`: the class, its table and its members;
* `Entity.columns`: the one order of the columns;
* `Entity.primaryKeys`, `Entity.dbManaged`, …: the members with a property, by name;
* `Entity.insertMembers`, `Entity.updateMembers`, `Entity.updateableMembers`: the members that a
  statement writes.
-/

namespace RowMapping

/-- The enum mapping of a member: its type, its pairs, and whether the header itself specializes
`glz::meta` for the type. -/
structure EnumMapping where
  field : String
  type : String
  pairs : List EnumPair
  hasMeta : Bool
  deriving DecidableEq, Repr

/-- A place in the order of the columns. -/
structure Column where
  index : Nat
  field : String
  column : String
  deriving DecidableEq, Repr

/-- A class that is stored as rows of a table. -/
structure Entity where
  className : String
  scope : String
  table : String
  model : Option String
  members : List Member
  enums : List EnumMapping
  readOnly : Bool
  tiers : List UInt16
  entityName : String
  hasStructMeta : Bool
  file : String
  line : Nat
  deriving DecidableEq, Repr

namespace Entity

/-- The qualified name of the class. -/
def structName (e : Entity) : String := Name.qualify e.scope e.className

/-! ### Columns -/

/-- The columns, in the order of declaration. -/
def columns (e : Entity) : List Column :=
  e.members.mapIdx fun i m => ⟨i, m.name, m.column⟩

/-- The names of the columns, in order. -/
def columnNames (e : Entity) : List String := e.columns.map Column.column

/-- The member of a name. -/
def member? (e : Entity) (name : String) : Option Member :=
  e.members.find? fun m => m.name == name

/-- The column of a name, which is used as it is when no member has it. -/
def columnOf (e : Entity) (name : String) : String :=
  ((e.columns.find? fun c => c.field == name).map Column.column).getD name

/-- The members in the order of the columns. -/
def orderedMembers (e : Entity) : List Member :=
  e.columns.filterMap fun c => e.member? c.field

/-! ### Members with a property -/

/-- The names of the members with a property. -/
def namesWhere (e : Entity) (p : Member → Bool) : List String :=
  (e.members.filter p).map Member.name

/-- The members that carry a flag, by name. -/
def flagged (e : Entity) (flag : MemberFlag) : List String :=
  e.namesWhere fun m => m.tags.has flag

/-- The members of the primary key: those tagged so, or else `id`. -/
def primaryKeys (e : Entity) : List String :=
  if (e.flagged .primaryKey).isEmpty then ["id"] else e.flagged .primaryKey

/-- The members of the partition key. -/
def partitionKeys (e : Entity) : List String := e.flagged .partitionKey

/-- The members that the database fills in. -/
def dbManaged (e : Entity) : List String := e.flagged .dbManaged

/-- The members that hold an uninterpreted JSON text. -/
def rawJson (e : Entity) : List String :=
  e.namesWhere fun m => m.tags.has .rawJson || m.holdsRawJson

/-- The members that are stored as JSON. -/
def jsonFields (e : Entity) : List String := e.flagged .jsonField

/-- The members that are points in time; one stored as JSON is none. -/
def timestamps (e : Entity) : List String :=
  e.namesWhere fun m => m.tags.has .timestamp && !m.tags.has .jsonField

/-- The filters of lists, member by member. -/
def filters (e : Entity) : List Filter := e.members.flatMap fun m => m.tags.filters

/-- The sort keys of lists, member by member. -/
def sorts (e : Entity) : List SortKey := e.members.flatMap fun m => m.tags.sorts

/-- Lists of the entity are configured. -/
def hasList (e : Entity) : Bool :=
  !e.filters.isEmpty || !e.sorts.isEmpty || !e.tiers.isEmpty

/-- The primary key has several members. -/
def isComposite (e : Entity) : Bool := 1 < e.primaryKeys.length

/-- The enum mapping of a name. -/
def enumFor? (e : Entity) (name : String) : Option EnumMapping :=
  e.enums.find? fun m => m.field == name

/-- The name belongs to the primary key. -/
def isPrimaryKey (e : Entity) (name : String) : Bool := e.primaryKeys.contains name

/-- The database fills in the member of the name. -/
def isDbManaged (e : Entity) (name : String) : Bool := e.dbManaged.contains name

/-- The member of the name is stored as JSON. -/
def isJson (e : Entity) (name : String) : Bool := e.jsonFields.contains name

/-- The member of the name is a point in time. -/
def isTimestamp (e : Entity) (name : String) : Bool := e.timestamps.contains name

/-- The member holds an uninterpreted JSON text, by its type or by its name. -/
def isRawJson (e : Entity) (m : Member) : Bool := m.holdsRawJson || e.rawJson.contains m.name

/-! ### Members that are written -/

/-- The columns of the primary key. -/
def keyColumns (e : Entity) : List String := e.primaryKeys.map e.columnOf

/-- The columns of the partition key. -/
def partitionColumns (e : Entity) : List String := e.partitionKeys.map e.columnOf

/-- The members that a new row gets: all but those that the database fills in. -/
def insertMembers (e : Entity) : List Member :=
  e.orderedMembers.filter fun m => !e.isDbManaged m.name

/-- The members that a changed row gets: neither keys nor filled in by the database. -/
def updateMembers (e : Entity) : List Member :=
  e.orderedMembers.filter fun m => !e.isPrimaryKey m.name && !e.isDbManaged m.name

/-- The members that can be changed one by one: those of a changed row that are not JSON. -/
def updateableMembers (e : Entity) : List Member :=
  e.orderedMembers.filter fun m =>
    !e.isPrimaryKey m.name && !e.isDbManaged m.name && !e.isJson m.name

/-- The primary key is never empty. -/
theorem primaryKeys_ne_nil (e : Entity) : e.primaryKeys ≠ [] := by
  unfold primaryKeys
  split
  · simp
  · simp_all

end Entity

end RowMapping
