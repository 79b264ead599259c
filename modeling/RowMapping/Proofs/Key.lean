import RowMapping.Mapping.Keys
import RowMapping.Proofs.Update
/-!
# Keys

The key of an entity shows in its statements, in two constants, in the function that takes the key
of an object, and in the parameters that name the partition.  They all go over the same names in the
same order, and differ only for a key of a single member.

* `Entity.castText`: the cast of the array for a key member;
* `render_selectByKeys`: the query for several keys;
* `keyConstants_eq`, `keyFunction_eq`, `partitionHint_eq`: the code;
* `deleteWithPartition_isSome_iff`: when there is a delete that names the partition;
* `key_propagated`: the texts of all of them.
-/

namespace RowMapping

open Mapping Sql Text

namespace Entity

/-- The cast of an array of values of a member: to an array of its own type, if it needs one. -/
def castText (m : Member) : String :=
  match arrayElement? m.valueType with
  | some type => "::" ++ type ++ "[]"
  | none => ""

variable {e : Entity} {m : Member} {k : String}

/-- A name that is not one of a member is its own column. -/
theorem columnOf_of_not_mem (h : k ∉ e.members.map Member.name) : e.columnOf k = k := by
  have hnone : (e.columns.find? fun c => c.field == k) = none := by
    rw [List.find?_eq_none]
    intro c hc hck
    obtain ⟨n, hn, hname, -⟩ := exists_mem_of_mem_columns hc
    have hck : c.field = k := by simpa using hck
    exact h (List.mem_map.2 ⟨n, hn, hname.symm.trans hck⟩)
  rw [columnOf, hnone]
  rfl

/-! ### The query for several keys -/

/-- A key of one member is compared with the values of one array. -/
theorem render_batchCondition_of_single (h : e.primaryKeys = [k]) :
    e.batchCondition.render = e.columnOf k ++ " = ANY($1)" := by
  have hcolumns : e.keyColumns = [e.columnOf k] := by rw [keyColumns, h, List.map_singleton]
  rw [batchCondition, hcolumns, Condition.render, String.append_assoc, String.append_assoc]
  rfl

theorem keyElement?_name (hd : e.HasDistinctNames) (hm : m ∈ e.members) :
    e.keyElement? m.name = arrayElement? m.valueType := by
  rw [keyElement?, member?_name hd hm]
  rfl

/-- The arrays for the members of a key follow each other, each with the cast of its own member. -/
theorem map_render_arrays (hd : e.HasDistinctNames) (h : 1 < e.primaryKeys.length) :
    (e.primaryKeys.mapIdx fun i name => (⟨i + 1, e.keyElement? name⟩ : ArrayParam)).map
        ArrayParam.render =
      e.keyMembers.mapIdx fun i m => placeholder (i + 1) ++ castText m := by
  rw [primaryKeys_eq_of_isComposite h, mapIdx_map]
  apply List.ext_getElem?
  intro i
  rw [List.getElem?_map, List.getElem?_mapIdx, List.getElem?_mapIdx, Option.map_map]
  cases hi : e.keyMembers[i]? with
  | none => rfl
  | some m =>
    -- the look-up by name gives back the member whose name was taken
    have hm : m ∈ e.members := List.mem_of_mem_filter (List.mem_of_getElem? hi)
    simp only [Option.map_some, Function.comp_apply, keyElement?_name hd hm]
    rfl

/-- A key of several members is looked for among the tuples that the arrays make. -/
theorem render_batchCondition_of_composite (hd : e.HasDistinctNames)
    (h : 1 < e.primaryKeys.length) :
    e.batchCondition.render =
      "(" ++ commaList (e.primaryKeys.map e.columnOf) ++ ") IN (SELECT * FROM unnest(" ++
        commaList (e.keyMembers.mapIdx fun i m => placeholder (i + 1) ++ castText m) ++ "))" := by
  have hbatch : e.batchCondition = .tupleOf e.keyColumns
      (e.primaryKeys.mapIdx fun i name => ⟨i + 1, e.keyElement? name⟩) := by
    unfold batchCondition
    split
    · -- a single column would be that of a single key
      next column hone =>
      have hlength : e.primaryKeys.length = 1 := by
        rw [← List.length_map (f := e.columnOf), ← keyColumns, hone, List.length_singleton]
      omega
    · rfl
  rw [hbatch, Condition.render, map_render_arrays hd h, keyColumns]

/-! ### Single statements and functions -/

section FirstKey

variable {names : List String}

theorem firstKey_of_eq_cons (h : e.primaryKeys = k :: names) : e.firstKey = k := by
  unfold firstKey
  simp only [h, List.head_cons]

theorem isComposite_of_eq_cons (h : e.primaryKeys = k :: names) :
    e.isComposite = true ↔ names ≠ [] := by
  rw [isComposite, decide_eq_true_iff, h, List.length_cons, Nat.lt_add_left_iff_pos,
    List.length_pos_iff]

theorem render_selectByKeys (hd : e.HasDistinctNames) (h : e.primaryKeys = k :: names) :
    e.statements.selectByKeys.render =
      "SELECT " ++ commaList (e.members.map Member.column) ++ " FROM " ++ e.table ++ " WHERE " ++
        if names = [] then e.columnOf k ++ " = ANY($1)"
        else
          "(" ++ commaList ((k :: names).map e.columnOf) ++ ") IN (SELECT * FROM unnest(" ++
            commaList (e.keyMembers.mapIdx fun i m => placeholder (i + 1) ++ castText m) ++
            "))" := by
  have hselect : e.statements.selectByKeys.render =
      "SELECT " ++ commaList e.columnNames ++ " FROM " ++ e.table ++ " WHERE " ++
        e.batchCondition.render := render_select ..
  rw [hselect, columnNames_eq]
  split
  · next hone => rw [render_batchCondition_of_single (hone ▸ h)]
  · next hmany =>
    have hlength : 1 < e.primaryKeys.length :=
      decide_eq_true_iff.1 ((isComposite_of_eq_cons h).2 hmany)
    rw [render_batchCondition_of_composite hd hlength, h]

theorem keyConstants_eq (h : e.primaryKeys = k :: names) :
    keyConstants e =
      s!"    static constexpr const char* primary_key_column = {quote (e.columnOf k)};" ::
        let n := names.length + 1
        let all := ", ".intercalate ((k :: names).map fun name => quote (e.columnOf name))
        let array :=
          s!"    static constexpr std::array<const char*, {n}> primary_key_columns = \x7b{all}\x7d;"
        if names = [] then [] else [array] := by
  have hquoted : e.keyColumns.map quote = (k :: names).map fun name => quote (e.columnOf name) := by
    rw [keyColumns, h, List.map_map]
    rfl
  have hlength : e.keyColumns.length = names.length + 1 := by
    rw [keyColumns, h, List.length_map, List.length_cons]
  have hmany := isComposite_of_eq_cons h
  simp only [keyConstants, firstKey_of_eq_cons h, hquoted, hlength]
  by_cases hone : names = []
  · rw [if_pos hone, if_neg fun h => hmany.1 h hone]
  · rw [if_neg hone, if_pos (hmany.2 hone)]

theorem keyFunction_eq (h : e.primaryKeys = k :: names) :
    keyFunction e =
      let members := ", ".intercalate ((k :: names).map fun name => s!"e.{name}")
      let value := if names = [] then s!"e.{k}" else s!"std::make_tuple({members})"
      ["    template<typename Entity>",
        "    static auto key(const Entity& e) noexcept \x7b",
        s!"        return {value};",
        "    \x7d"] := by
  have hmany := isComposite_of_eq_cons h
  simp only [keyFunction, firstKey_of_eq_cons h, h]
  by_cases hone : names = []
  · rw [if_pos hone, if_neg fun h => hmany.1 h hone]
  · rw [if_neg hone, if_pos (hmany.2 hone)]

end FirstKey

/-! ### The partition -/

theorem deleteWithPartition_isSome_iff (e : Entity) :
    e.statements.deleteWithPartition.isSome ↔ e.partitionKeys ≠ [] := by
  by_cases h : e.partitionKeys = [] <;> simp [statements, h]

/-- The constant for a delete that names the partition is written when there is such a statement. -/
theorem constantLine_deleteWithPartition_iff (e : Entity) :
    constantLine "delete_with_partition" ∈ sqlStruct e ↔
      e.statements.deleteWithPartition.isSome := by
  rw [constantLine_mem_sqlStruct_iff, map_fst_sqlTexts]
  cases e.statements.deleteWithPartition <;> cases e.statements.update.isSome <;> simp

theorem eq_of_mem_deleteWithPartition {d : Statement} (hdel : d ∈ e.statements.deleteWithPartition) :
    d = .delete e.table (.all (bindFrom 1 (e.keyColumns ++ e.partitionColumns))) := by
  unfold statements at hdel
  simp only [Option.mem_def, Option.ite_none_left_eq_some, Option.some.injEq] at hdel
  exact hdel.2.symm

/-- The delete that names the partition compares the members that the hint gives, in their order. -/
theorem render_deleteWithPartition {d : Statement} (hdel : d ∈ e.statements.deleteWithPartition) :
    d.render = "DELETE FROM " ++ e.table ++ " WHERE " ++ e.equalities e.hintMembers := by
  have hcolumns : e.keyColumns ++ e.partitionColumns = e.hintMembers.map e.columnOf := by
    rw [hintMembers, List.map_append]
    rfl
  rw [eq_of_mem_deleteWithPartition hdel, hcolumns, render_delete, render_all_columnOf]

theorem partitionHint_eq (h : e.partitionKeys ≠ []) :
    partitionHint e =
      ["    template<typename Entity>",
        signature "makePartitionHintParams",
        s!"        return {paramsType}::make("] ++
      commaLines "            " (e.hintMembers.map fun name => s!"e.{name}") ++
      ["        );",
        "    \x7d"] := by
  rw [partitionHint, if_neg (by simpa using h)]
  rfl

/-- The arguments by their places. -/
theorem partitionHint_eq_mapIdx (h : e.partitionKeys ≠ []) :
    partitionHint e =
      ["    template<typename Entity>",
        signature "makePartitionHintParams",
        s!"        return {paramsType}::make("] ++
      (e.hintMembers.mapIdx fun i name =>
        "            " ++ s!"e.{name}" ++ if i + 1 < e.hintMembers.length then "," else "") ++
      ["        );",
        "    \x7d"] := by
  rw [partitionHint_eq h, commaLines_eq, mapIdx_map, List.length_map]

theorem partitionHint_ne_nil_iff (e : Entity) : partitionHint e ≠ [] ↔ e.partitionKeys ≠ [] := by
  by_cases h : e.partitionKeys = []
  · simp [partitionHint, h]
  · simp [partitionHint_eq h, h]

/-- **The key is the same everywhere.**  Statements on one row compare the columns of the key with
the parameters from one on.  A query for several keys compares a single column with an array, and
else the tuple of all columns with one array each, cast to the type of its own member.  The
constants name the same columns, and the function gives the same members.  A delete that names the
partition is there together with the function that binds its values, and the two go over the members
of the key and then those of the partition. -/
theorem key_propagated (hd : e.HasDistinctNames) :
    (∀ m ∈ e.members, e.columnOf m.name = m.column) ∧
    (∀ name, name ∉ e.members.map Member.name → e.columnOf name = name) ∧
    ∃ k names, e.primaryKeys = k :: names ∧
      (names ≠ [] → e.keyMembers.map Member.name = k :: names) ∧
      e.statements.selectByKey.render =
        "SELECT " ++ commaList (e.members.map Member.column) ++ " FROM " ++ e.table ++ " WHERE " ++
          e.equalities (k :: names) ∧
      e.statements.deleteByKey.render =
        "DELETE FROM " ++ e.table ++ " WHERE " ++ e.equalities (k :: names) ∧
      (∀ u ∈ e.statements.update,
        u.render =
          "UPDATE " ++ e.table ++ " SET " ++
            commaList (e.setMembers.mapIdx fun i m =>
              m.column ++ "=" ++ placeholder ((k :: names).length + 1 + i)) ++
            " WHERE " ++ e.equalities (k :: names)) ∧
      e.statements.selectByKeys.render =
        "SELECT " ++ commaList (e.members.map Member.column) ++ " FROM " ++ e.table ++ " WHERE " ++
          (if names = [] then e.columnOf k ++ " = ANY($1)"
          else
            "(" ++ commaList ((k :: names).map e.columnOf) ++ ") IN (SELECT * FROM unnest(" ++
              commaList (e.keyMembers.mapIdx fun i m => placeholder (i + 1) ++ castText m) ++
              "))") ∧
      keyConstants e =
        s!"    static constexpr const char* primary_key_column = {quote (e.columnOf k)};" ::
          (let n := names.length + 1
          let all := ", ".intercalate ((k :: names).map fun name => quote (e.columnOf name))
          let array :=
            s!"    static constexpr std::array<const char*, {n}> primary_key_columns = \x7b{all}\x7d;"
          if names = [] then [] else [array]) ∧
      keyFunction e =
        (let members := ", ".intercalate ((k :: names).map fun name => s!"e.{name}")
        let value := if names = [] then s!"e.{k}" else s!"std::make_tuple({members})"
        ["    template<typename Entity>",
          "    static auto key(const Entity& e) noexcept \x7b",
          s!"        return {value};",
          "    \x7d"]) ∧
      (constantLine "delete_with_partition" ∈ sqlStruct e ↔ e.partitionKeys ≠ []) ∧
      (e.statements.deleteWithPartition.isSome ↔ e.partitionKeys ≠ []) ∧
      (partitionHint e ≠ [] ↔ e.partitionKeys ≠ []) ∧
      ∀ d ∈ e.statements.deleteWithPartition,
        d.render =
          "DELETE FROM " ++ e.table ++ " WHERE " ++
            e.equalities (k :: names ++ e.partitionKeys) ∧
        partitionHint e =
          ["    template<typename Entity>",
            signature "makePartitionHintParams",
            s!"        return {paramsType}::make("] ++
          ((k :: names ++ e.partitionKeys).mapIdx fun i name =>
            "            " ++ s!"e.{name}" ++
              if i + 1 < (k :: names ++ e.partitionKeys).length then "," else "") ++
          ["        );",
            "    \x7d"] := by
  obtain ⟨k, names, hkeys⟩ := List.exists_cons_of_ne_nil e.primaryKeys_ne_nil
  have hall : e.hintMembers = k :: names ++ e.partitionKeys := by rw [hintMembers, hkeys]
  refine ⟨fun m hm => columnOf_name hd hm, fun name hname => columnOf_of_not_mem hname,
    k, names, hkeys, fun hmany => ?_, ?_, ?_, fun u hu => ?_, ?_, keyConstants_eq hkeys,
    keyFunction_eq hkeys, ?_, deleteWithPartition_isSome_iff e, partitionHint_ne_nil_iff e,
    fun d hdel => ⟨?_, ?_⟩⟩
  · have hlength : 1 < e.primaryKeys.length :=
      decide_eq_true_iff.1 ((isComposite_of_eq_cons hkeys).2 hmany)
    rw [← hkeys, primaryKeys_eq_of_isComposite hlength]
  · rw [← hkeys, ← columnNames_eq, ← render_keyCondition]
    exact render_select ..
  · rw [← hkeys, ← render_keyCondition]
    exact render_delete ..
  · rw [render_update_eq hd hu, hkeys]
  · exact render_selectByKeys hd hkeys
  · rw [constantLine_deleteWithPartition_iff, deleteWithPartition_isSome_iff]
  · rw [render_deleteWithPartition hdel, hall]
  · rw [← hall]
    exact partitionHint_eq_mapIdx
      ((deleteWithPartition_isSome_iff e).1 (Option.isSome_of_mem hdel))

/-- The two keys have their own casts, and the partition comes behind them.  A key of one member has
no tuple, and without a partition nothing names it. -/
theorem key_propagated_membership :
    (membership.HasDistinctNames ∧
      membership.statements.selectByKey.render =
        "SELECT note, group_id, user_id, kind, joined_at FROM memberships " ++
          "WHERE group_id = $1 AND user_id = $2" ∧
      membership.statements.deleteByKey.render =
        "DELETE FROM memberships WHERE group_id = $1 AND user_id = $2" ∧
      (∀ u ∈ membership.statements.update,
        u.render =
          "UPDATE memberships SET note=$3, kind=$4 WHERE group_id = $1 AND user_id = $2") ∧
      membership.statements.selectByKeys.render =
        "SELECT note, group_id, user_id, kind, joined_at FROM memberships " ++
          "WHERE (group_id, user_id) IN (SELECT * FROM unnest($1::integer[], $2::text[]))" ∧
      keyConstants membership = [
        "    static constexpr const char* primary_key_column = \"group_id\";",
        "    static constexpr std::array<const char*, 2> primary_key_columns = " ++
          "\x7b\"group_id\", \"user_id\"\x7d;"] ∧
      keyFunction membership = [
        "    template<typename Entity>",
        "    static auto key(const Entity& e) noexcept \x7b",
        "        return std::make_tuple(e.group, e.user_id);",
        "    \x7d"] ∧
      membership.statements.deleteWithPartition.isSome ∧
      ∀ d ∈ membership.statements.deleteWithPartition,
        d.render =
          "DELETE FROM memberships WHERE group_id = $1 AND user_id = $2 AND joined_at = $3" ∧
        partitionHint membership = [
          "    template<typename Entity>",
          "    static jcailloux::relais::io::PgParams makePartitionHintParams(const Entity& e) \x7b",
          "        return jcailloux::relais::io::PgParams::make(",
          "            e.group,",
          "            e.user_id,",
          "            e.joined_at",
          "        );",
          "    \x7d"]) ∧
    article.HasDistinctNames ∧
      article.statements.selectByKeys.render =
        "SELECT id, title, content, created_at FROM articles WHERE id = ANY($1)" ∧
      keyConstants article = [
        "    static constexpr const char* primary_key_column = \"id\";"] ∧
      keyFunction article = [
        "    template<typename Entity>",
        "    static auto key(const Entity& e) noexcept \x7b",
        "        return e.id;",
        "    \x7d"] ∧
      ¬article.statements.deleteWithPartition.isSome ∧ partitionHint article = [] := by
  have hd : membership.HasDistinctNames := by decide
  have hd' : article.HasDistinctNames := by decide
  obtain ⟨-, -, k, names, hkeys, -, hselect, hdelete, hupdate, hbatch, hconstants, hfunction, -,
    hpartition, -, hnamed⟩ := key_propagated hd
  obtain ⟨rfl, rfl⟩ : k = "group" ∧ names = ["user_id"] := by
    have hnames : membership.primaryKeys = ["group", "user_id"] := by decide
    rw [hnames] at hkeys
    simpa [eq_comm] using hkeys
  obtain ⟨-, -, k', names', hkeys', -, -, -, -, hbatch', hconstants', hfunction', -, hpartition',
    hhint', -⟩ := key_propagated hd'
  obtain ⟨rfl, rfl⟩ : k' = "id" ∧ names' = [] := by
    have hnames : article.primaryKeys = ["id"] := by decide
    rw [hnames] at hkeys'
    simpa [eq_comm] using hkeys'
  refine ⟨⟨hd, hselect.trans (by decide +kernel), hdelete.trans (by decide +kernel),
    fun u hu => (hupdate u hu).trans (by decide +kernel), hbatch.trans (by decide +kernel),
    hconstants.trans (by decide +kernel), hfunction.trans (by decide +kernel),
    hpartition.2 (by decide), fun d hdel => ⟨?_, ?_⟩⟩, hd', hbatch'.trans (by decide +kernel),
    hconstants'.trans (by decide +kernel), hfunction'.trans (by decide +kernel), ?_, ?_⟩
  · exact (hnamed d hdel).1.trans (by decide +kernel)
  · exact (hnamed d hdel).2.trans (by decide +kernel)
  · rw [hpartition']
    decide
  · exact of_not_not fun h => absurd (hhint'.1 h) (by decide)

end Entity

end RowMapping
