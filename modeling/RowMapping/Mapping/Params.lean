import RowMapping.Mapping.Carrier
import RowMapping.Sql.OfEntity
import RowMapping.Text.Quoted
/-!
# Parameters of the writing statements

The generated code binds the members of an object to the parameters of INSERT and of the SET list of
UPDATE, and leaves a comment where it passes over a column.

* `WriteStep`, `WriteStep.lines`: the code that binds one member;
* `ParamsBody`, `ParamsBody.lines`: the body of a function that binds members;
* `Entity.insertBody`, `Entity.updateBody`: the two bodies;
* `insertParams`, `updateParams`, `writeParams`: the functions around them.
-/

namespace RowMapping

open Text

namespace Mapping

/-- The type of a list of parameters. -/
def paramsType : String := "jcailloux::relais::io::PgParams"

/-- The code that binds one member, or passes over it. -/
inductive WriteStep
  /-- A comment that tells why a column is passed over. -/
  | skip (member reason : String)
  /-- Binds the member itself. -/
  | value (member : String)
  /-- Binds the text that the member holds. -/
  | text (member : String)
  /-- Binds the JSON text of the member. -/
  | json (member : String)
  /-- Binds the JSON text of the member's value, or null when it has none. -/
  | jsonOrNull (member : String)
  /-- Binds the text that stands for the member's enumerator, if some text does. -/
  | choice (member type : String) (pairs : List EnumPair)
  /-- Binds the text that stands for the enumerator of the member's value, if some text does, or
  null when it has no value. -/
  | choiceOrNull (member type : String) (pairs : List EnumPair)
  deriving DecidableEq, Repr

namespace WriteStep

/-- The member that a step is about. -/
def member : WriteStep → String
  | skip m _ | value m | text m | json m | jsonOrNull m | choice m _ _ | choiceOrNull m _ _ => m

/-- A switch over the enumerators of a type. -/
def switchLines (indent subject type : String) (pairs : List EnumPair) : List String :=
  s!"{indent}switch ({subject}) \x7b" ::
    (pairs.map fun p =>
      s!"{indent}    case {type}::{p.enumerator}: p.push({quote p.external}); break;") ++
    [s!"{indent}\x7d"]

/-- The branch that binds null. -/
def elseNull : List String :=
  ["        \x7d else \x7b",
    "            p.pushNull();",
    "        \x7d"]

/-- The lines of a step in a body that binds one parameter after the other. -/
def lines : WriteStep → List String
  | skip m reason => [s!"        // {m}: skipped ({reason})"]
  | value m => [s!"        p.push(e.{m});"]
  | text m => [s!"        p.push(e.{m}.str);"]
  | json m =>
    [s!"        \x7b std::string json; glz::write_json(e.{m}, json); p.push(json); \x7d"]
  | jsonOrNull m =>
    [s!"        if (e.{m}) \x7b",
      "            std::string json;",
      s!"            glz::write_json(*e.{m}, json);",
      "            p.push(json);"] ++ elseNull
  | choice m type pairs => switchLines "        " s!"e.{m}" type pairs
  | choiceOrNull m type pairs =>
    s!"        if (e.{m}.has_value()) \x7b" ::
      switchLines "            " s!"*e.{m}" type pairs ++ elseNull

/-- The line of a step in a list of arguments, where `last` is the last argument. -/
def argumentLine (last : Option String) : WriteStep → String
  | skip m reason => s!"            // {m}: skipped ({reason})"
  | step => s!"            e.{step.member}" ++ if some step.member = last then "" else ","

end WriteStep

/-- The body of a function that binds members: one call when every member is bound as it is, and
else one parameter after the other. -/
inductive ParamsBody
  | call (steps : List WriteStep) (last : Option String)
  | sequence (steps : List WriteStep)
  deriving DecidableEq, Repr

namespace ParamsBody

/-- The steps of a body. -/
def steps : ParamsBody → List WriteStep
  | call steps _ | sequence steps => steps

/-- The lines of a body. -/
def lines : ParamsBody → List String
  | call steps last =>
    s!"        return {paramsType}::make(" :: steps.map (WriteStep.argumentLine last) ++
      ["        );"]
  | sequence steps =>
    s!"        {paramsType} p;" :: steps.flatMap WriteStep.lines ++ ["        return p;"]

end ParamsBody

end Mapping

open Mapping

namespace Entity

/-- The step that binds a member. -/
def writeStep (e : Entity) (m : Member) : WriteStep :=
  match e.carrier m, m.isOptional with
  | .json, false => .json m.name
  | .json, true => .jsonOrNull m.name
  | .rawJson, _ => .text m.name
  | .enumeration type pairs, false => .choice m.name type pairs
  | .enumeration type pairs, true => .choiceOrNull m.name type pairs
  | .plain, _ => .value m.name

/-- The step for a member, which may be passed over for a reason. -/
def stepOr (e : Entity) (reason? : Member → Option String) (m : Member) : WriteStep :=
  match reason? m with
  | some reason => .skip m.name reason
  | none => e.writeStep m

/-- The body that binds the members `written` and passes over those with a reason. -/
def paramsBody (e : Entity) (written : List Member) (reason? : Member → Option String) :
    ParamsBody :=
  let steps := e.orderedMembers.map (e.stepOr reason?)
  if written.all fun m => e.carrier m = .plain then
    .call steps (written.getLast?.map Member.name)
  else .sequence steps

/-- Why an insertion passes over a member. -/
def insertSkip? (e : Entity) (m : Member) : Option String :=
  if e.isDbManaged m.name then some "db_managed" else none

/-- Why an update passes over a member. -/
def updateSkip? (e : Entity) (m : Member) : Option String :=
  if e.isPrimaryKey m.name then some "primary_key" else e.insertSkip? m

/-- The body that binds the values of a new row. -/
def insertBody (e : Entity) : ParamsBody := e.paramsBody e.insertMembers e.insertSkip?

/-- The body that binds the values of the SET list. -/
def updateBody (e : Entity) : ParamsBody := e.paramsBody e.updateMembers e.updateSkip?

end Entity

namespace Mapping

/-- A function that binds the members of an object. -/
def paramsFunction (name : String) (body : ParamsBody) : List String :=
  ["    template<typename Entity>",
    s!"    static {paramsType} {name}(const Entity& e) \x7b"] ++ body.lines ++ ["    \x7d"]

/-- The function that binds the values of a new row. -/
def insertParams (e : Entity) : List String := paramsFunction "toInsertParams" e.insertBody

/-- The function that binds the values of the SET list, after those of the key. -/
def updateParams (e : Entity) : List String := paramsFunction "toUpdateParams" e.updateBody

/-- The functions that bind what is written; an entity that is read-only has none. -/
def writeParams (e : Entity) : List String :=
  if e.readOnly then []
  else insertParams e ++ if e.updateMembers.isEmpty then [] else "" :: updateParams e

end Mapping

end RowMapping
