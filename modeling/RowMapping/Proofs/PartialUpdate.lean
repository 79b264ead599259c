import RowMapping.Proofs.Update
/-!
# Members that are changed one by one

Besides the statement that sets all columns of a row, the traits of a mapping allow to change single
members.  Three passes have to agree on these members: the enumeration of their names, the
specialization of `FieldInfo` for each of them, and the SET list, which has the members stored as
JSON besides.

* `Entity.partialMembers`: the members that can be changed alone, by their tags;
* `Entity.fieldTraits_eq`: what is known of them;
* `Entity.traitsType_eq`, `Entity.fieldInfo_eq`: the enumeration and the specializations;
* `specializationHead`, `Entity.filter_fieldInfo_heads`: the lines that open the specializations;
* `Entity.partialUpdate_coherent`: what the three passes have in common, and what tells them apart.
-/

namespace RowMapping

open Mapping Sql Text

namespace Mapping

/-- The line that opens the enumeration of the members that can be changed alone. -/
def fieldEnumLine : String := "        enum class Field : uint8_t \x7b"

/-- The line that declares the template of what is known of such a member. -/
def fieldInfoLine : String := "        template<Field> struct FieldInfo;"

/-- The line that opens the specialization for a member. -/
def specializationHead (mapping member : String) : String :=
  let traits := s!"{mapping}::TraitsType"
  s!"struct {traits}::FieldInfo<{traits}::Field::{member}> \x7b"

/-- What is known of a member, whose changed value travels in the type `type`. -/
def knownLines (type : String) (m : Member) : List String :=
  let column := quote ("\"" ++ m.column ++ "\"")
  [s!"    using value_type = {type};",
    s!"    static constexpr const char* column_name = {column};",
    s!"    static constexpr bool is_timestamp = {m.tags.has .timestamp};",
    s!"    static constexpr bool is_nullable = {m.isOptional};"]

/-- The specialization for a member. -/
def specialization (mapping type : String) (m : Member) : List String :=
  ["template<>",
    specializationHead mapping m.name] ++
  knownLines type m ++
  ["\x7d;",
    ""]

end Mapping

namespace Entity

/-- The members that can be changed alone: they are no keys, the database does not fill them in, and
they are not stored as JSON. -/
def partialMembers (e : Entity) : List Member :=
  e.members.filter fun m =>
    m.name ∉ e.primaryKeys ∧ m.tags.has .dbManaged = false ∧ m.tags.has .jsonField = false

variable {e : Entity} {m : Member} {mapping : String}

/-- The changed members of a row that can be changed alone are those that are not stored as JSON. -/
theorem partialMembers_eq_filter (e : Entity) :
    e.partialMembers = e.setMembers.filter fun m => m.tags.has .jsonField = false := by
  rw [partialMembers, setMembers, List.filter_filter]
  refine List.filter_congr fun m _ => ?_
  rw [Bool.eq_iff_iff]
  simp only [Bool.and_eq_true, decide_eq_true_eq]
  exact and_rotate.symm

theorem mem_partialMembers_iff : m ∈ e.partialMembers ↔
    m ∈ e.setMembers ∧ m.tags.has .jsonField = false := by
  rw [partialMembers_eq_filter, List.mem_filter, decide_eq_true_eq]

theorem updateableMembers_eq (hd : e.HasDistinctNames) :
    e.updateableMembers = e.partialMembers := by
  rw [updateableMembers, orderedMembers_eq hd]
  refine List.filter_congr fun m hm => ?_
  rw [isDbManaged_name hd hm, isJson_name hd hm]
  simp [isPrimaryKey, Bool.and_assoc]

/-- A member that is not stored as JSON is a point in time when it is tagged so. -/
theorem isTimestamp_of_mem (hd : e.HasDistinctNames) (hm : m ∈ e.partialMembers) :
    e.isTimestamp m.name = m.tags.has .timestamp := by
  obtain ⟨hset, hjson⟩ := mem_partialMembers_iff.1 hm
  rw [isTimestamp, timestamps, contains_namesWhere hd (mem_setMembers_iff.1 hset).1, hjson,
    Bool.not_false, Bool.and_true]

theorem fieldTraits_eq (hd : e.HasDistinctNames) (hwrite : e.readOnly = false) :
    e.fieldTraits = e.partialMembers.map fun m =>
      ⟨m.name, e.changedType m, m.column, m.tags.has .timestamp, m.isOptional⟩ := by
  rw [fieldTraits, hwrite, if_neg Bool.false_ne_true, updateableMembers_eq hd]
  exact List.map_congr_left fun m hm => by rw [isTimestamp_of_mem hd hm]

/-! ### What is written of them -/

theorem traitsType_eq (hd : e.HasDistinctNames) (hwrite : e.readOnly = false) :
    traitsType e =
      "    struct TraitsType \x7b" ::
        (if e.partialMembers = [] then []
          else
            fieldEnumLine ::
              (e.partialMembers.mapIdx fun i m =>
                "            " ++ m.name ++ if i + 1 < e.partialMembers.length then "," else "") ++
              ["        \x7d;",
                "",
                fieldInfoLine]) ++
        ["    \x7d;"] := by
  have hnames : e.fieldTraits.map FieldTraits.member = e.partialMembers.map Member.name := by
    rw [fieldTraits_eq hd hwrite, List.map_map]
    rfl
  rw [traitsType, hnames, commaLines_eq, mapIdx_map, List.length_map]
  simp only [List.isEmpty_iff, List.map_eq_nil_iff]
  rfl

theorem fieldInfo_eq (hd : e.HasDistinctNames) (hwrite : e.readOnly = false) (mapping : String) :
    fieldInfo e mapping =
      e.partialMembers.flatMap fun m => specialization mapping (e.changedType m) m := by
  rw [fieldInfo, fieldTraits_eq hd hwrite, List.flatMap_map]
  rfl

/-- Among the lines of a specialization, one opens it. -/
theorem filter_specialization (mapping type : String) (m : Member) :
    (specialization mapping type m).filter (fun line => BeginsWith "struct " line) =
      [specializationHead mapping m.name] := by
  have hhead : BeginsWith "struct " (specializationHead mapping m.name) := by
    unfold specializationHead
    repeat' with_reducible apply BeginsWith.append
    exact beginsWith_ofList.2 (by decide)
  have hknown : ∀ line ∈ knownLines type m, ¬BeginsWith "struct " line := by
    intro line hline
    have hindent : BeginsWith "    " line := by
      simp only [knownLines, List.mem_cons, List.not_mem_nil, or_false] at hline
      rcases hline with rfl | rfl | rfl | rfl
      all_goals
        repeat' with_reducible apply BeginsWith.append
        exact beginsWith_ofList.2 (by decide)
    exact fun h => h.ne hindent (by decide) rfl
  have hnone : (knownLines type m).filter (fun line => BeginsWith "struct " line) = [] :=
    List.filter_eq_nil_iff.2 fun line hline => by simpa using hknown line hline
  have hopening : ¬BeginsWith "struct " "template<>" := by decide
  have hclose : ¬BeginsWith "struct " "\x7d;" := by decide
  have hempty : ¬BeginsWith "struct " "" := by decide
  simp [specialization, hnone, hhead, hopening, hclose, hempty]

/-- The specializations are those of the members that can be changed alone. -/
theorem filter_fieldInfo_heads (hd : e.HasDistinctNames) (hwrite : e.readOnly = false)
    (mapping : String) :
    (fieldInfo e mapping).filter (fun line => BeginsWith "struct " line) =
      e.partialMembers.map fun m => specializationHead mapping m.name := by
  rw [fieldInfo_eq hd hwrite, List.filter_flatMap]
  simp only [filter_specialization]
  exact List.map_eq_flatMap.symm

/-- The enumeration and the template are written when some member can be changed alone. -/
theorem mem_traitsType_iff (hd : e.HasDistinctNames) (hwrite : e.readOnly = false) {line : String}
    (h : line = fieldEnumLine ∨ line = fieldInfoLine) :
    line ∈ traitsType e ↔ e.partialMembers ≠ [] := by
  rw [traitsType_eq hd hwrite]
  by_cases hnone : e.partialMembers = []
  · rw [if_pos hnone]
    rcases h with rfl | rfl <;> simp only [hnone, ne_eq, not_true_eq_false, iff_false] <;> decide
  · rw [if_neg hnone]
    rcases h with rfl | rfl <;> simp [hnone]

section Run

variable {V : Type} [DecidableEq V] (v : Values V)

/-- **The passes for partial updates agree.**  In an entity that is not read-only, the enumeration
names the members that are no keys, are not filled in by the database and are not stored as JSON, in
the order of the columns, and there is one specialization for each of them in the same order.  Each
is also set by the update of a whole row, and the function for this update has code that binds it;
the others that are set are stored as JSON.  Enumeration, template and specializations are all
written, or none is. -/
theorem partialUpdate_coherent (hd : e.HasDistinctNames) (hwrite : e.readOnly = false)
    (mapping : String) :
    (e.partialMembers.map Member.name).Sublist (e.columns.map Column.field) ∧
    traitsType e =
      "    struct TraitsType \x7b" ::
        (if e.partialMembers = [] then []
          else
            fieldEnumLine ::
              (e.partialMembers.mapIdx fun i m =>
                "            " ++ m.name ++ if i + 1 < e.partialMembers.length then "," else "") ++
              ["        \x7d;",
                "",
                fieldInfoLine]) ++
        ["    \x7d;"] ∧
    fieldInfo e mapping =
      (e.partialMembers.flatMap fun m => specialization mapping (e.changedType m) m) ∧
    (fieldInfo e mapping).filter (fun line => BeginsWith "struct " line) =
      (e.partialMembers.map fun m => specializationHead mapping m.name) ∧
    (e.partialMembers ≠ [] → ∃ u, e.statements.update = some u ∧
      u.render =
        "UPDATE " ++ e.table ++ " SET " ++
          commaList (e.setMembers.mapIdx fun i m =>
            m.column ++ "=" ++ placeholder (e.primaryKeys.length + 1 + i)) ++
          " WHERE " ++ e.equalities e.primaryKeys ∧
      writeParams e = insertParams e ++ "" :: updateParams e) ∧
    updateParams e =
      ["    template<typename Entity>", signature "toUpdateParams"] ++
      (if ∀ m ∈ e.setMembers, e.isConverted m = false then
        s!"        return {paramsType}::make(" :: argumentLines e.changeReason? e.members ++
          ["        );"]
      else
        s!"        {paramsType} p;" :: pushLines e e.changeReason? e.members ++
          ["        return p;"]) ++
      ["    \x7d"] ∧
    updateParams e =
      ["    template<typename Entity>", signature "toUpdateParams"] ++ e.updateBody.code.lines ++
        ["    \x7d"] ∧
    e.updateBody.code.run v = some (e.setMembers.filterMap (e.parameter? v)) ∧
    (∀ m ∈ e.partialMembers, m ∈ e.setMembers ∧
      ∀ s : Frame, ∃ buffer, (e.writeStep m).code.run v s =
        some ⟨buffer, s.bound ++ (e.parameter? v m).toList⟩) ∧
    e.setMembers.filter (fun m => m ∉ e.partialMembers) =
      (e.members.filter fun m =>
        m.name ∉ e.primaryKeys ∧ m.tags.has .dbManaged = false ∧ m.tags.has .jsonField = true) ∧
    (fieldEnumLine ∈ traitsType e ↔ e.partialMembers ≠ []) ∧
    (fieldInfoLine ∈ traitsType e ↔ e.partialMembers ≠ []) ∧
    (fieldInfo e mapping ≠ [] ↔ e.partialMembers ≠ []) := by
  refine ⟨?_, traitsType_eq hd hwrite, fieldInfo_eq hd hwrite mapping,
    filter_fieldInfo_heads hd hwrite mapping, fun hne => ?_, updateParams_eq hd,
    paramsFunction_eq_code _ _, run_code_updateBody v hd,
    fun m hm => ⟨(mem_partialMembers_iff.1 hm).1, run_code_writeStep v e m⟩, ?_,
    mem_traitsType_iff hd hwrite (.inl rfl), mem_traitsType_iff hd hwrite (.inr rfl), ?_⟩
  · rw [map_field_columns]
    exact List.filter_sublist.map Member.name
  · obtain ⟨m, hm⟩ := List.exists_mem_of_ne_nil _ hne
    have hset : e.updateMembers ≠ [] := by
      rw [updateMembers_eq hd]
      exact List.ne_nil_of_mem (mem_partialMembers_iff.1 hm).1
    obtain ⟨u, hu⟩ := Option.isSome_iff_exists.1 ((isSome_update_iff e).2 ⟨hwrite, hset⟩)
    exact ⟨u, hu, render_update_eq hd hu, writeParams_eq_of_update hu⟩
  · rw [setMembers, List.filter_filter]
    refine List.filter_congr fun m hm => ?_
    rw [Bool.eq_iff_iff]
    simp only [Bool.and_eq_true, decide_eq_true_eq, mem_partialMembers_iff, mem_setMembers_iff]
    cases m.tags.has .jsonField <;> simp [hm]
  · rw [fieldInfo_eq hd hwrite]
    cases e.partialMembers <;> simp [specialization]

end Run

/-- Errands: one member is stored as JSON, though it is tagged as a point in time as well. -/
def errand : Entity where
  className := "Errand"
  scope := "app"
  table := "errands"
  model := none
  members := [
    ⟨"id", "int64_t", "", 4, {}⟩,
    ⟨"due", "std::string", "", 5, { flags := [.timestamp], column := some "due_at" }⟩,
    ⟨"details", "Details", "", 6, { flags := [.jsonField, .timestamp] }⟩,
    ⟨"kind", "std::optional<Kind>", "", 7, { pairs := [⟨"buy", "Buy"⟩] }⟩,
    ⟨"made", "std::string", "", 8, { flags := [.dbManaged] }⟩]
  enums := [⟨"kind", "Kind", [⟨"buy", "Buy"⟩], false⟩]
  readOnly := false
  tiers := []
  entityName := "app::Errand"
  hasStructMeta := false
  file := "Errand.h"
  line := 3

/-- An errand to buy something. -/
def toBuy : Values String where
  isPresent _ := true
  enumerator _ := "Buy"
  constant _ name := name

/-- The member that is stored as JSON is set by the update, and has no place in the enumeration. -/
theorem partialUpdate_coherent_errand :
    errand.HasDistinctNames ∧ errand.readOnly = false ∧
      traitsType errand = [
        "    struct TraitsType \x7b",
        "        enum class Field : uint8_t \x7b",
        "            due,",
        "            kind",
        "        \x7d;",
        "",
        "        template<Field> struct FieldInfo;",
        "    \x7d;"] ∧
      fieldInfo errand "ErrandMapping" = [
        "template<>",
        "struct ErrandMapping::TraitsType::FieldInfo<ErrandMapping::TraitsType::Field::due> \x7b",
        "    using value_type = std::string;",
        "    static constexpr const char* column_name = \"\\\"due_at\\\"\";",
        "    static constexpr bool is_timestamp = true;",
        "    static constexpr bool is_nullable = false;",
        "\x7d;",
        "",
        "template<>",
        "struct ErrandMapping::TraitsType::FieldInfo<ErrandMapping::TraitsType::Field::kind> \x7b",
        "    using value_type = std::string;",
        "    static constexpr const char* column_name = \"\\\"kind\\\"\";",
        "    static constexpr bool is_timestamp = false;",
        "    static constexpr bool is_nullable = true;",
        "\x7d;",
        ""] ∧
      (∃ u, errand.statements.update = some u ∧
        u.render = "UPDATE errands SET due_at=$2, details=$3, kind=$4 WHERE id = $1") ∧
      updateParams errand = [
        "    template<typename Entity>",
        "    static jcailloux::relais::io::PgParams toUpdateParams(const Entity& e) \x7b",
        "        jcailloux::relais::io::PgParams p;",
        "        // id: skipped (primary_key)",
        "        p.push(e.due);",
        "        \x7b std::string json; glz::write_json(e.details, json); p.push(json); \x7d",
        "        if (e.kind.has_value()) \x7b",
        "            switch (*e.kind) \x7b",
        "                case app::Kind::Buy: p.push(\"buy\"); break;",
        "            \x7d",
        "        \x7d else \x7b",
        "            p.pushNull();",
        "        \x7d",
        "        // made: skipped (db_managed)",
        "        return p;",
        "    \x7d"] ∧
      errand.updateBody.code.run toBuy = some [.value "due", .json "details", .literal "buy"] ∧
      (errand.setMembers.filter fun m => m ∉ errand.partialMembers).map Member.name =
        ["details"] := by
  have hd : errand.HasDistinctNames := by decide
  obtain ⟨-, htraits, hinfo, -, hupdate, hlines, -, hrun, -, hmissing, -⟩ :=
    partialUpdate_coherent toBuy hd rfl "ErrandMapping"
  obtain ⟨u, hu, hrender, -⟩ := hupdate (by decide)
  refine ⟨hd, rfl, htraits.trans (by decide +kernel), hinfo.trans (by decide +kernel),
    ⟨u, hu, hrender.trans (by decide +kernel)⟩, hlines.trans (by decide +kernel),
    hrun.trans (by decide), ?_⟩
  rw [hmissing]
  decide +kernel

end Entity

end RowMapping
