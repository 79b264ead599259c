import RowMapping.Mapping.Decode
import RowMapping.Mapping.Keys
import RowMapping.Mapping.ListDescriptor
import RowMapping.Mapping.Metadata
import RowMapping.Mapping.Params
import RowMapping.Mapping.SqlText
import RowMapping.Mapping.Traits
/-!
# The generated header

One header is generated for an entity.  It includes the annotated header and holds the mapping, the
alias of the wrapper, and the metadata that the annotated header lacks.

* `SourceNames`: how the generated header names the annotated one;
* `Entity.mappingName`, `Entity.wrapperName`, `Entity.fileName`: the generated names;
* `mappingStruct`: the mapping;
* `headerLines`, `headerText`: the generated header.
-/

namespace RowMapping

/-- How the generated header names the annotated one: the path in its include line, and the name in
its banner. -/
structure SourceNames where
  includePath : String
  name : String
  deriving DecidableEq, Repr

namespace Entity

/-- The name of the mapping. -/
def mappingName (e : Entity) : String := e.className ++ "Mapping"

/-- The name of the wrapper. -/
def wrapperName (e : Entity) : String := e.className ++ "Wrapper"

/-- The file that the header is written to. -/
def fileName (e : Entity) : String := e.wrapperName ++ ".h"

end Entity

namespace Mapping

/-- Lines that stand only under a condition. -/
def linesIf (condition : Bool) (lines : List String) : List String :=
  if condition then lines else []

/-- The headers that the generated one includes. -/
def includeLines (e : Entity) (names : SourceNames) : List String :=
  ["#include <cstdint>",
    "#include <optional>",
    "#include <string>"] ++
  linesIf e.isComposite
    ["#include <array>",
      "#include <tuple>"] ++
  linesIf (e.members.any fun m => m.valueType == "std::vector<char>")
    ["#include <vector>"] ++
  linesIf (!e.jsonFields.isEmpty)
    ["#include <glaze/glaze.hpp>"] ++
  ["#include <jcailloux/relais/wrapper/EntityWrapper.h>",
    s!"#include \"{names.includePath}\""] ++
  linesIf e.hasList
    ["#include <jcailloux/relais/wrapper/ListWrapper.h>",
      "#include <jcailloux/relais/list/decl/FilterDescriptor.h>",
      "#include <jcailloux/relais/list/decl/SortDescriptor.h>"]

/-- The mapping of an entity. -/
def mappingStruct (e : Entity) : List String :=
  [s!"struct {e.mappingName} \x7b",
    s!"    static constexpr bool read_only = {e.readOnly};",
    s!"    static constexpr const char* table_name = {Text.quote e.table};"] ++
  keyConstants e ++
  ["", columnEnum e] ++
  setOff (sqlStruct e) ++
  setOff (traitsType e) ++
  setOff (keyFunction e) ++
  setOff (partitionHint e) ++
  setOff (fromRow e) ++
  setOff (writeParams e) ++
  setOff (glazeValue e) ++
  setOff (listDescriptor e) ++
  ["\x7d;"]

/-- The rule above and below a heading. -/
def sectionRule : String :=
  "// ============================================================================"

/-- The alias of the wrapper, and of the wrapper of lists if any are configured. -/
def wrapperAliases (e : Entity) : List String :=
  [sectionRule,
    s!"// {e.wrapperName}: public API type",
    sectionRule,
    "",
    s!"using {e.wrapperName} = jcailloux::relais::wrapper::EntityWrapper<",
    s!"    {e.structName}, {e.mappingName}>;"] ++
  linesIf e.hasList
    ["",
      s!"using {e.className}ListWrapper = jcailloux::relais::wrapper::ListWrapper<{e.wrapperName}>;"]

/-- The lines of the generated header. -/
def headerLines (e : Entity) (names : SourceNames) : List String :=
  ["// GENERATED AUTOMATICALLY - DO NOT MODIFY",
    s!"// Source: {names.name}",
    "",
    "#pragma once",
    ""] ++
  includeLines e names ++
  ["",
    "namespace entity::generated \x7b",
    ""] ++
  mappingStruct e ++
  [""] ++
  fieldInfo e e.mappingName ++
  wrapperAliases e ++
  ["",
    "\x7d  // namespace entity::generated"] ++
  setOff (structMeta e) ++
  setOff (enumMetas e)

/-- The text of the generated header, whose last line is ended too. -/
def headerText (e : Entity) (names : SourceNames) : String :=
  "\n".intercalate (headerLines e names ++ [""])

end Mapping

end RowMapping
