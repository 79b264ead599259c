import RowMapping.Mapping.Carrier
import RowMapping.Text.Quoted
/-!
# Reading a row

The generated code reads a row column by column into a new object.

* `columnEnum`: the enumeration of the columns;
* `ReadStep`, `ReadStep.lines`: the code that reads one column;
* `Entity.readSteps`: the code for all columns, in order;
* `fromRow`: the function around it.
-/

namespace RowMapping

open Text

namespace Mapping

/-- The enumeration of the columns by their place. -/
def columnEnum (e : Entity) : String :=
  let entries := ", ".intercalate (e.columns.map fun c => s!"{c.field} = {c.index}")
  s!"    enum Col : uint8_t \x7b {entries} \x7d;"

/-- The code that reads one column into its member. -/
inductive ReadStep
  /-- Reads the JSON text of a column. -/
  | json (member : String)
  /-- Reads the JSON text of a column unless it is null or empty. -/
  | jsonOrNull (member : String)
  /-- Keeps the text of a column. -/
  | text (member : String)
  /-- Takes the enumerator that the text of a column stands for; the first match counts. -/
  | choice (member type : String) (pairs : List EnumPair)
  /-- The same unless the column is null. -/
  | choiceOrNull (member type : String) (pairs : List EnumPair)
  /-- Reads a column as a value of a type. -/
  | value (member type : String)
  /-- Reads a column as a value of a type or nothing. -/
  | valueOrNull (member type : String)
  deriving DecidableEq, Repr

namespace ReadStep

/-- The member that a step reads. -/
def member : ReadStep → String
  | json m | jsonOrNull m | text m | choice m _ _ | choiceOrNull m _ _ | value m _
  | valueOrNull m _ => m

/-- One comparison of a chain that picks an enumerator. -/
def choiceLine (keyword member type : String) (p : EnumPair) : String :=
  s!"            {keyword} (s == {quote p.external}) e.{member} = {type}::{p.enumerator};"

/-- The chain of comparisons that picks an enumerator. -/
def choiceLines (member type : String) : List EnumPair → List String
  | [] => []
  | p :: ps => choiceLine "if" member type p :: ps.map (choiceLine "else if" member type)

/-- The lines of a step. -/
def lines : ReadStep → List String
  | json m => [s!"        glz::read_json(e.{m}, row.get<std::string>(Col::{m}));"]
  | jsonOrNull m =>
    [s!"        if (!row.isNull(Col::{m})) \x7b",
      s!"            auto json_str = row.get<std::string>(Col::{m});",
      "            if (!json_str.empty()) \x7b",
      s!"                typename std::remove_reference_t<decltype(*e.{m})> tmp;",
      "                if (!glz::read_json(tmp, json_str))",
      s!"                    e.{m} = std::move(tmp);",
      "            \x7d",
      "        \x7d"]
  | text m => [s!"        e.{m}.str = row.get<std::string>(Col::{m});"]
  | choice m type pairs =>
    "        \x7b" :: s!"            auto s = row.get<std::string>(Col::{m});" ::
      choiceLines m type pairs ++ ["        \x7d"]
  | choiceOrNull m type pairs =>
    s!"        if (!row.isNull(Col::{m})) \x7b" ::
      s!"            auto s = row.get<std::string>(Col::{m});" ::
      choiceLines m type pairs ++ ["        \x7d"]
  | value m type => [s!"        e.{m} = row.get<{type}>(Col::{m});"]
  | valueOrNull m type => [s!"        e.{m} = row.getOpt<{type}>(Col::{m});"]

end ReadStep

end Mapping

open Mapping

namespace Entity

/-- The step that reads a member. -/
def readStep (e : Entity) (m : Member) : ReadStep :=
  match e.carrier m, m.isOptional with
  | .json, false => .json m.name
  | .json, true => .jsonOrNull m.name
  | .rawJson, _ => .text m.name
  | .enumeration type pairs, false => .choice m.name type pairs
  | .enumeration type pairs, true => .choiceOrNull m.name type pairs
  | .plain, false => .value m.name m.type
  | .plain, true => .valueOrNull m.name m.valueType

/-- The steps that read a row, in the order of the columns. -/
def readSteps (e : Entity) : List ReadStep := e.orderedMembers.map e.readStep

end Entity

/-- The function that reads a row. -/
def Mapping.fromRow (e : Entity) : List String :=
  ["    template<typename Entity>",
    "    static std::optional<Entity> fromRow(const jcailloux::relais::io::PgResult::Row& row) \x7b",
    "        Entity e;"] ++
  e.readSteps.flatMap ReadStep.lines ++
  ["        return e;",
    "    \x7d"]

end RowMapping
