import Mathlib.Data.List.Range
import RowMapping.Sql.OfEntity
/-!
# Numbered parameters

`bindFrom` numbers columns in their order, without a gap and from a given first number.  What a
statement says of bound columns can then be read off the columns themselves.

* `map_bindFrom`: a text for each binding is a text for each column and its number;
* `map_column_bindFrom`, `map_param_bindFrom`: the columns and the numbers of bindings;
* `render_all_bindFrom`: the text of a condition on numbered columns;
* `Entity.equalities`: the text of a condition on members of an entity.
-/

namespace RowMapping

/-- Numbering the images of a list is numbering the list. -/
theorem mapIdx_map {α β γ : Type} (f : α → β) (g : Nat → β → γ) (xs : List α) :
    (xs.map f).mapIdx g = xs.mapIdx fun i x => g i (f x) := by
  apply List.ext_getElem?
  intro i
  rw [List.getElem?_mapIdx, List.getElem?_mapIdx, List.getElem?_map, Option.map_map]
  rfl

namespace Sql

/-! ### Texts of statements -/

section Render

variable (columns returning : List String) (table : String) (values : List Binding)
  (condition : Condition)

theorem render_select : (Statement.select columns table condition).render =
    "SELECT " ++ commaList columns ++ " FROM " ++ table ++ " WHERE " ++ condition.render := rfl

theorem render_insert : (Statement.insert table values returning).render =
    "INSERT INTO " ++ table ++ " (" ++ commaList (values.map Binding.column) ++ ") VALUES (" ++
      commaList (values.map fun b => placeholder b.param) ++ ") RETURNING " ++
      commaList returning := rfl

theorem render_update : (Statement.update table values condition).render =
    "UPDATE " ++ table ++ " SET " ++
      commaList (values.map fun b => b.column ++ "=" ++ placeholder b.param) ++
      " WHERE " ++ condition.render := rfl

theorem render_delete : (Statement.delete table condition).render =
    "DELETE FROM " ++ table ++ " WHERE " ++ condition.render := rfl

end Render

/-! ### Numbered columns -/

theorem getElem?_bindFrom (first i : Nat) (columns : List String) :
    (bindFrom first columns)[i]? = columns[i]?.map fun c => ⟨c, first + i⟩ := by
  simp [bindFrom]

theorem length_bindFrom (first : Nat) (columns : List String) :
    (bindFrom first columns).length = columns.length := by
  simp [bindFrom]

/-- What is made of numbered columns is made of each column and its number. -/
theorem map_bindFrom {α : Type} (f : Binding → α) (first : Nat) (columns : List String) :
    (bindFrom first columns).map f = columns.mapIdx fun i c => f ⟨c, first + i⟩ := by
  apply List.ext_getElem?
  intro i
  rw [List.getElem?_map, getElem?_bindFrom, List.getElem?_mapIdx, Option.map_map]
  rfl

/-- The columns keep their order. -/
theorem map_column_bindFrom (first : Nat) (columns : List String) :
    (bindFrom first columns).map Binding.column = columns := by
  apply List.ext_getElem?
  intro i
  rw [List.getElem?_map, getElem?_bindFrom, Option.map_map]
  exact Option.map_id'

/-- The numbers follow each other. -/
theorem map_param_bindFrom (first : Nat) (columns : List String) :
    (bindFrom first columns).map Binding.param = List.range' first columns.length := by
  apply List.ext_getElem
  · simp [length_bindFrom]
  · intro i _ _
    simp [bindFrom]

theorem map_placeholder_bindFrom (first : Nat) (columns : List String) :
    (bindFrom first columns).map (fun b => placeholder b.param) =
      (List.range' first columns.length).map placeholder := by
  rw [← map_param_bindFrom, List.map_map]
  rfl

/-- A condition on numbered columns compares each with its parameter. -/
theorem render_all_bindFrom (first : Nat) (columns : List String) :
    (Condition.all (bindFrom first columns)).render =
      " AND ".intercalate (columns.mapIdx fun i c => c ++ " = " ++ placeholder (first + i)) := by
  rw [Condition.render, map_bindFrom]

end Sql

open Sql

namespace Entity

/-- The columns of the names have the values of the parameters, which are numbered from one. -/
def equalities (e : Entity) (names : List String) : String :=
  " AND ".intercalate (names.mapIdx fun i name => e.columnOf name ++ " = " ++ placeholder (i + 1))

theorem render_all_columnOf (e : Entity) (names : List String) :
    (Condition.all (bindFrom 1 (names.map e.columnOf))).render = e.equalities names := by
  rw [render_all_bindFrom, mapIdx_map, equalities]
  simp only [Nat.add_comm 1]

theorem render_keyCondition (e : Entity) : e.keyCondition.render = e.equalities e.primaryKeys :=
  e.render_all_columnOf e.primaryKeys

theorem params_keyCondition (e : Entity) :
    e.keyCondition.params = List.range' 1 e.primaryKeys.length := by
  rw [keyCondition, Condition.params, map_param_bindFrom, keyColumns, List.length_map]

end Entity

end RowMapping
