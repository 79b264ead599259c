import RowMapping.Entity.Basic
import RowMapping.Mapping.Layout
import RowMapping.Text.Quoted
/-!
# Lists of an entity

* `Entity.sortedFilters`: the filters ordered by parameter and member;
* `Entity.pageLimits`: the page size that lists have, and the greatest that they may have;
* `listDescriptor`: the generated description of the lists.
-/

namespace RowMapping

open Text

/-- Filters are ordered by parameter, and by member where the parameters agree. -/
def Filter.before (a b : Filter) : Bool :=
  a.param < b.param || (a.param == b.param && !(b.field < a.field))

namespace Entity

/-- The filters ordered by parameter and member; equal ones keep their order. -/
def sortedFilters (e : Entity) : List Filter := e.filters.mergeSort Filter.before

/-- The first page size and the last one; lists without sizes of their own have 10, and 50 at
most. -/
def pageLimits (e : Entity) : UInt16 × UInt16 :=
  (e.tiers.head?.getD 10, e.tiers.getLast?.getD 50)

end Entity

namespace Mapping

/-- The namespace of list declarations. -/
def declScope : String := "jcailloux::relais::cache::list::decl"

/-- The operator argument of a filter, unless it is equality. -/
def operatorArgument : FilterOp → List String
  | .eq => []
  | op => [s!"{declScope}::Op::{op.capitalName}"]

/-- The entry of a filter. -/
def filterEntry (e : Entity) (f : Filter) : String :=
  let arguments := ", ".intercalate
    ([quote f.param, s!"&{e.structName}::{f.field}", quote (e.columnOf f.field)] ++
      operatorArgument f.op)
  s!"{declScope}::Filter<{arguments}>\x7b\x7d"

/-- The entry of a sort key. -/
def sortEntry (e : Entity) (s : SortKey) : String :=
  let arguments := ", ".intercalate
    [quote s.param, s!"&{e.structName}::{s.field}", quote (e.columnOf s.field),
      s!"{declScope}::SortDirection::{s.direction.capitalName}"]
  s!"{declScope}::Sort<{arguments}>\x7b\x7d"

/-- A tuple of entries, unless there are none. -/
def entryTuple (name : String) (entries : List String) : List String :=
  if entries.isEmpty then []
  else
    ["", s!"        static constexpr auto {name} = std::tuple\x7b"] ++
      commaLines "            " entries ++ ["        \x7d;"]

/-- The description of the lists of an entity, if any are configured. -/
def listDescriptor (e : Entity) : List String :=
  if !e.hasList then []
  else
    "    struct ListDescriptor \x7b" ::
      entryTuple "filters" (e.sortedFilters.map (filterEntry e)) ++
      entryTuple "sorts" (e.sorts.map (sortEntry e)) ++
      ["",
        s!"        static constexpr uint16_t defaultLimit = {e.pageLimits.1};",
        s!"        static constexpr uint16_t maxLimit = {e.pageLimits.2};",
        "    \x7d;"]

end Mapping

end RowMapping
