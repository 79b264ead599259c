import RowMapping.Mapping.Metadata
import RowMapping.Proofs.Declared
import RowMapping.Proofs.Insert
import RowMapping.Proofs.Reference
/-!
# One order of the columns

Statements, enumeration, reading function and metadata are written one by one, some from the columns
and some from the members that are looked up by the names of the columns.  All of them go over the
members in the order of declaration.

* `fromRow_eq`: the function that reads a row reads the members in order;
* `columnEnum_eq`, `objectEntries_eq`: the enumeration and the metadata name them in order;
* `column_order`: the order in all places, and what the code for one member refers to.
-/

namespace RowMapping

open Mapping Sql Text

namespace Entity

variable {e : Entity}

/-! ### Single places -/

theorem member_readStep (e : Entity) (m : Member) : (e.readStep m).member = m.name := by
  unfold readStep
  split <;> rfl

/-- A row is read member by member. -/
theorem fromRow_eq (hd : e.HasDistinctNames) :
    fromRow e =
      ["    template<typename Entity>",
        "    static std::optional<Entity> fromRow(const jcailloux::relais::io::PgResult::Row& row) \x7b",
        "        Entity e;"] ++
      e.members.flatMap (fun m => (e.readStep m).lines) ++
      ["        return e;",
        "    \x7d"] := by
  have hsteps : e.readSteps.flatMap ReadStep.lines =
      e.members.flatMap fun m => (e.readStep m).lines := by
    rw [readSteps, orderedMembers_eq hd, List.flatMap_map]
  rw [fromRow, hsteps]

theorem columnEnum_eq (e : Entity) :
    columnEnum e =
      let entries := ", ".intercalate (e.members.mapIdx fun i m => s!"{m.name} = {i}")
      s!"    enum Col : uint8_t \x7b {entries} \x7d;" := by
  have hentries : e.columns.map (fun c => s!"{c.field} = {c.index}") =
      e.members.mapIdx fun i m => s!"{m.name} = {i}" := by
    apply List.ext_getElem?
    intro i
    rw [List.getElem?_map, getElem?_columns, List.getElem?_mapIdx, Option.map_map]
    simp only [Function.comp_def]
  unfold columnEnum
  rw [hentries]

theorem objectEntries_eq (e : Entity) :
    objectEntries e = e.members.map fun m => s!"{quote m.name}, &T::{m.name}" :=
  e.map_columns _ _ fun _ _ => rfl

/-- The lines of the entries, one for each member. -/
theorem commaLines_objectEntries (e : Entity) (indent : String) :
    commaLines indent (objectEntries e) =
      e.members.mapIdx fun i m =>
        indent ++ s!"{quote m.name}, &T::{m.name}" ++
          if i + 1 < e.members.length then "," else "" := by
  rw [objectEntries_eq, commaLines_eq, mapIdx_map, List.length_map]

/-- A colon is no character of names. -/
theorem colon_not_mem_name {source : List Char} {file : String} (he : .ok e ∈ entities source file)
    {m : Member} (hm : m ∈ e.members) : ':' ∉ m.name.toList := by
  intro hcolon
  exact absurd (isNamePart_of_name he hm ':' hcolon) (by decide)

/-- **All places have the columns in one order.**  Columns, the lists of the statements, enumeration
and metadata are those of the members in the order of declaration, and a row is read member by
member.  The code for a member refers to the column of that member, and to no other one: wherever
it has the start of a reference, the name of the member follows, unless the place belongs to a text
that is copied from the header. -/
theorem column_order {source : List Char} {file : String} (he : .ok e ∈ entities source file)
    (hd : e.HasDistinctNames) :
    (∀ i : Nat, e.columns[i]? = e.members[i]?.map fun m => ⟨i, m.name, m.column⟩) ∧
    e.statements.returning = e.members.map Member.column ∧
    e.statements.selectByKey.render =
      "SELECT " ++ commaList (e.members.map Member.column) ++ " FROM " ++ e.table ++ " WHERE " ++
        e.keyCondition.render ∧
    e.statements.selectByKeys.render =
      "SELECT " ++ commaList (e.members.map Member.column) ++ " FROM " ++ e.table ++ " WHERE " ++
        e.batchCondition.render ∧
    e.statements.insert.render =
      "INSERT INTO " ++ e.table ++ " (" ++ commaList (e.givenMembers.map Member.column) ++
        ") VALUES (" ++ commaList ((List.range' 1 e.givenMembers.length).map placeholder) ++
        ") RETURNING " ++ commaList (e.members.map Member.column) ∧
    columnEnum e =
      (let entries := ", ".intercalate (e.members.mapIdx fun i m => s!"{m.name} = {i}")
      s!"    enum Col : uint8_t \x7b {entries} \x7d;") ∧
    fromRow e =
      ["    template<typename Entity>",
        "    static std::optional<Entity> fromRow(const jcailloux::relais::io::PgResult::Row& row) \x7b",
        "        Entity e;"] ++
      e.members.flatMap (fun m => (e.readStep m).lines) ++
      ["        return e;",
        "    \x7d"] ∧
    (∀ m ∈ e.members,
      (∃ line ∈ (e.readStep m).lines, columnMark ++ (m.name.toList ++ [')']) <:+: line.toList) ∧
      ∀ line ∈ (e.readStep m).lines, Faithful m.name (e.readStep m).copied line.toList) ∧
    glazeValue e =
      ["    template<typename T>",
        "    static constexpr auto glaze_value = glz::object("] ++
      (e.members.mapIdx fun i m =>
        "        " ++ s!"{quote m.name}, &T::{m.name}" ++
          if i + 1 < e.members.length then "," else "") ++
      ["    );"] ∧
    structMeta e =
      if e.hasStructMeta then []
      else
        ["template<>",
          s!"struct glz::meta<{e.structName}> \x7b",
          s!"    using T = {e.structName};",
          "    static constexpr auto value = glz::object("] ++
        (e.members.mapIdx fun i m =>
          "        " ++ s!"{quote m.name}, &T::{m.name}" ++
            if i + 1 < e.members.length then "," else "") ++
        ["    );",
          "\x7d;"] := by
  refine ⟨e.getElem?_columns, e.columnNames_eq, ?_, ?_, render_statements_insert hd,
    e.columnEnum_eq, fromRow_eq hd, fun m hm => ?_, ?_, ?_⟩
  · rw [← columnNames_eq]
    exact render_select ..
  · rw [← columnNames_eq]
    exact render_select ..
  · have hname : ':' ∉ (e.readStep m).member.toList := by
      rw [member_readStep]
      exact colon_not_mem_name he hm
    rw [← member_readStep e m]
    exact ⟨(e.readStep m).exists_reference, fun line hline =>
      ((e.readStep m).woven_lines hname line hline).faithful hname⟩
  · rw [glazeValue, commaLines_objectEntries]
  · rw [structMeta, commaLines_objectEntries]

/-- A header with an enum that has the name of the enumeration of the columns. -/
def markSource : List Char :=
  ("// @relais table=marks\nstruct Mark \x7b\n    int64_t Left;\n" ++
    "    Col side; // @relais enum=left:Left\n\x7d;\n").toList

/-- The member whose enum has this name. -/
def markSide : Member := ⟨"side", "Col", "", 4, { pairs := [⟨"left", "Left"⟩] }⟩

/-- The entity of the header. -/
def mark : Entity where
  className := "Mark"
  scope := ""
  table := "marks"
  model := none
  members := [⟨"Left", "int64_t", "", 3, {}⟩, markSide]
  enums := [⟨"side", "Col", [⟨"left", "Left"⟩], false⟩]
  readOnly := false
  tiers := []
  entityName := "Mark"
  hasStructMeta := false
  file := "Mark.h"
  line := 2

theorem mark_mem_entities : .ok mark ∈ entities markSource "Mark.h" := by
  have hsource : markSource = _ :=
    toList_append_of_eq String.toList_ofList String.toList_ofList
  rw [hsource]
  decide +kernel

/-- All places have the two members of the header in order. -/
theorem column_order_mark :
    .ok mark ∈ entities markSource "Mark.h" ∧ mark.HasDistinctNames ∧
      mark.columns[1]? = some ⟨1, "side", "side"⟩ ∧
      mark.statements.returning = ["Left", "side"] ∧
      mark.statements.selectByKey.render = "SELECT Left, side FROM marks WHERE id = $1" ∧
      mark.statements.selectByKeys.render = "SELECT Left, side FROM marks WHERE id = ANY($1)" ∧
      mark.statements.insert.render =
        "INSERT INTO marks (Left, side) VALUES ($1, $2) RETURNING Left, side" ∧
      columnEnum mark = "    enum Col : uint8_t \x7b Left = 0, side = 1 \x7d;" ∧
      fromRow mark = [
        "    template<typename Entity>",
        "    static std::optional<Entity> fromRow(const jcailloux::relais::io::PgResult::Row& row) \x7b",
        "        Entity e;",
        "        e.Left = row.get<int64_t>(Col::Left);",
        "        \x7b",
        "            auto s = row.get<std::string>(Col::side);",
        "            if (s == \"left\") e.side = Col::Left;",
        "        \x7d",
        "        return e;",
        "    \x7d"] ∧
      glazeValue mark = [
        "    template<typename T>",
        "    static constexpr auto glaze_value = glz::object(",
        "        \"Left\", &T::Left,",
        "        \"side\", &T::side",
        "    );"] ∧
      structMeta mark = [
        "template<>",
        "struct glz::meta<Mark> \x7b",
        "    using T = Mark;",
        "    static constexpr auto value = glz::object(",
        "        \"Left\", &T::Left,",
        "        \"side\", &T::side",
        "    );",
        "\x7d;"] := by
  have hd : mark.HasDistinctNames := by decide
  obtain ⟨hcolumns, hreturning, hkey, hkeys, hinsert, henum, hrow, -, hglaze, hmeta⟩ :=
    column_order mark_mem_entities hd
  exact ⟨mark_mem_entities, hd, (hcolumns 1).trans (by decide), hreturning.trans (by decide),
    hkey.trans (by decide +kernel), hkeys.trans (by decide +kernel),
    hinsert.trans (by decide +kernel), henum.trans (by decide +kernel),
    hrow.trans (by decide +kernel), hglaze.trans (by decide +kernel),
    hmeta.trans (by decide +kernel)⟩

/-- An enumerator can look like a reference to the column of another member. -/
theorem exists_mark_without_name :
    ¬∀ (source : List Char) (file : String) (e : Entity), .ok e ∈ entities source file →
      e.HasDistinctNames → ∀ m ∈ e.members, ∀ line ∈ (e.readStep m).lines, ∀ before after,
        line.toList = before ++ (columnMark ++ after) → m.name.toList <+: after := by
  intro h
  have hside := h markSource "Mark.h" mark mark_mem_entities (by decide) markSide (by decide)
    "            if (s == \"left\") e.side = Col::Left;" (by decide +kernel)
    "            if (s == \"left\") e.side = ".toList "Left;".toList (by decide)
  exact absurd hside (by decide)

end Entity

end RowMapping
