import RowMapping.Entity.Basic
import RowMapping.Notice
import RowMapping.Sql.ArrayType
import RowMapping.Sql.Statement
/-!
# The statements of an entity

The parameters of a statement are numbered in the order in which they are bound: first those of the
key, then the others.

* `Statements`: the statements of an entity;
* `Entity.statements`: how they are built.
-/

namespace RowMapping

/-- The statements of an entity.  There is no update for an entity that is read-only or has no column
to set, and a delete with the partition only for an entity with a partition key. -/
structure Sql.Statements where
  returning : List String
  selectByKey : Sql.Statement
  selectByKeys : Sql.Statement
  insert : Sql.Statement
  update : Option Sql.Statement
  deleteByKey : Sql.Statement
  deleteWithPartition : Option Sql.Statement
  deriving DecidableEq, Repr

namespace Entity

open Sql

/-- The row has the key that the first parameters give. -/
def keyCondition (e : Entity) : Condition := .all (bindFrom 1 e.keyColumns)

/-- The element type that the array for a key member is cast to. -/
def keyElement? (e : Entity) (name : String) : Option String :=
  (e.member? name).bind fun m => arrayElement? m.valueType

/-- The row has one of the keys that array parameters give. -/
def batchCondition (e : Entity) : Condition :=
  match e.keyColumns with
  | [column] => .oneOf column 1
  | columns => .tupleOf columns (e.primaryKeys.mapIdx fun i name => ⟨i + 1, e.keyElement? name⟩)

/-- The columns that an update sets, after the parameters of the key. -/
def setBindings (e : Entity) : List Binding :=
  bindFrom (e.keyColumns.length + 1) (e.updateMembers.map Member.column)

/-- An update of the entity sets some column. -/
def hasUpdate (e : Entity) : Bool := !e.readOnly && !e.updateMembers.isEmpty

/-- The statements of an entity. -/
def statements (e : Entity) : Statements where
  returning := e.columnNames
  selectByKey := .select e.columnNames e.table e.keyCondition
  selectByKeys := .select e.columnNames e.table e.batchCondition
  insert := .insert e.table (bindFrom 1 (e.insertMembers.map Member.column)) e.columnNames
  update := if e.hasUpdate then some (.update e.table e.setBindings e.keyCondition) else none
  deleteByKey := .delete e.table e.keyCondition
  deleteWithPartition :=
    if e.partitionKeys.isEmpty then none
    else some (.delete e.table (.all (bindFrom 1 (e.keyColumns ++ e.partitionColumns))))

/-- What is left out when the statements are written. -/
def notices (e : Entity) : List Notice :=
  if !e.readOnly && e.updateMembers.isEmpty then [.nothingToUpdate e.className] else []

end Entity

end RowMapping
