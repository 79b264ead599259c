/-!
# SQL statements

The statements that move rows, as values with one text form.  Parameters are numbered from one.

* `Condition`, `Condition.render`: what a WHERE clause demands;
* `Statement`, `Statement.render`: the statements;
* `Statement.params`: the parameters of a statement, in the order of its text.
-/

namespace RowMapping.Sql

/-- The text of parameter `n`. -/
def placeholder (n : Nat) : String := "$" ++ toString n

/-- Names or values in a list. -/
def commaList (xs : List String) : String := ", ".intercalate xs

/-- A column and the parameter that it is compared with or set to. -/
structure Binding where
  column : String
  param : Nat
  deriving DecidableEq, Repr

/-- Binds columns to the parameters from `first` on. -/
def bindFrom (first : Nat) (columns : List String) : List Binding :=
  columns.mapIdx fun i c => ⟨c, first + i⟩

/-- An array parameter and the element type that it is cast to. -/
structure ArrayParam where
  param : Nat
  element : Option String
  deriving DecidableEq, Repr

/-- The text of an array parameter. -/
def ArrayParam.render (a : ArrayParam) : String :=
  placeholder a.param ++
    match a.element with
    | some type => "::" ++ type ++ "[]"
    | none => ""

/-- What a WHERE clause demands of a row. -/
inductive Condition
  /-- Each column has the value of its parameter. -/
  | all (bindings : List Binding)
  /-- The column has one of the values of an array parameter. -/
  | oneOf (column : String) (param : Nat)
  /-- The tuple of columns is one of the tuples that array parameters make. -/
  | tupleOf (columns : List String) (arrays : List ArrayParam)
  deriving DecidableEq, Repr

namespace Condition

/-- The text of a condition. -/
def render : Condition → String
  | all bindings =>
    " AND ".intercalate (bindings.map fun b => b.column ++ " = " ++ placeholder b.param)
  | oneOf column param => column ++ " = ANY(" ++ placeholder param ++ ")"
  | tupleOf columns arrays =>
    "(" ++ commaList columns ++ ") IN (SELECT * FROM unnest(" ++
      commaList (arrays.map ArrayParam.render) ++ "))"

/-- The parameters of a condition. -/
def params : Condition → List Nat
  | all bindings => bindings.map Binding.param
  | oneOf _ param => [param]
  | tupleOf _ arrays => arrays.map ArrayParam.param

end Condition

/-- A statement on the rows of a table. -/
inductive Statement
  | select (columns : List String) (table : String) (condition : Condition)
  | insert (table : String) (values : List Binding) (returning : List String)
  | update (table : String) (values : List Binding) (condition : Condition)
  | delete (table : String) (condition : Condition)
  deriving DecidableEq, Repr

namespace Statement

/-- The text of a statement. -/
def render : Statement → String
  | select columns table condition =>
    "SELECT " ++ commaList columns ++ " FROM " ++ table ++ " WHERE " ++ condition.render
  | insert table values returning =>
    "INSERT INTO " ++ table ++ " (" ++ commaList (values.map Binding.column) ++ ") VALUES (" ++
      commaList (values.map fun b => placeholder b.param) ++ ") RETURNING " ++ commaList returning
  | update table values condition =>
    "UPDATE " ++ table ++ " SET " ++
      commaList (values.map fun b => b.column ++ "=" ++ placeholder b.param) ++
      " WHERE " ++ condition.render
  | delete table condition => "DELETE FROM " ++ table ++ " WHERE " ++ condition.render

/-- The parameters of a statement, in the order of its text. -/
def params : Statement → List Nat
  | select _ _ condition => condition.params
  | insert _ values _ => values.map Binding.param
  | update _ values condition => values.map Binding.param ++ condition.params
  | delete _ condition => condition.params

end Statement

end RowMapping.Sql
