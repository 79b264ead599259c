import RowMapping.Proofs.Description
import RowMapping.Proofs.Key
import RowMapping.Proofs.SpecializationSearch
import RowMapping.Proofs.UnbrokenNames
import RowMapping.Proofs.Update
/-!
# The shape of the statements

What a statement has to look like is said of its text: names and parameters, conditions, and the
four kinds of statements, where every list has at least one item.  The lists of an entity are those
of its columns, of its key and of the members that are written, and each of these could be empty.

* `IsName`, `IsSeries`, `IsCondition`: parts of statements;
* `IsSelect`, `IsInsert`, `IsUpdate`, `IsDelete`: statements;
* `not_isInsert_of_no_values`: a list of columns without an item is none;
* `Entity.statements_shape`: the statements of an entity, of which only the insert may lack its
  columns.
-/

namespace RowMapping

open Text

namespace Sql

/-! ### Parts of statements -/

/-- A name holds some character, and no space. -/
def IsName (text : String) : Prop := text ≠ "" ∧ ' ' ∉ text.toList

instance : DecidablePred IsName := fun text =>
  inferInstanceAs (Decidable (text ≠ "" ∧ ' ' ∉ text.toList))

/-- A parameter is a number behind a dollar sign, from one on. -/
def IsParameter (text : String) : Prop := ∃ n, 0 < n ∧ text = placeholder n

/-- Items of a kind, at least one, with a separator between two of them. -/
def IsSeries (separator : String) (IsItem : String → Prop) (text : String) : Prop :=
  ∃ items, items ≠ [] ∧ (∀ item ∈ items, IsItem item) ∧ text = separator.intercalate items

/-- A column and its parameter, with a sign between them. -/
def IsComparison (sign text : String) : Prop :=
  ∃ column param, IsName column ∧ IsParameter param ∧ text = column ++ sign ++ param

/-- An array parameter, which may be cast to an array of a type of some words. -/
def IsArray (text : String) : Prop :=
  ∃ param, IsParameter param ∧
    (text = param ∨ ∃ type, IsSeries " " IsName type ∧ text = param ++ "::" ++ type ++ "[]")

/-- A condition compares at least one column with as many parameters. -/
inductive IsCondition : String → Prop
  | all {text : String} : IsSeries " AND " (IsComparison " = ") text → IsCondition text
  | oneOf {column param : String} : IsName column → IsParameter param →
      IsCondition (column ++ " = ANY(" ++ param ++ ")")
  | tupleOf {columns arrays : List String} : columns ≠ [] → (∀ c ∈ columns, IsName c) →
      arrays.length = columns.length → (∀ a ∈ arrays, IsArray a) →
      IsCondition ("(" ++ commaList columns ++ ") IN (SELECT * FROM unnest(" ++
        commaList arrays ++ "))")

/-! ### Statements -/

/-- A query names its columns, its table and its condition. -/
inductive IsSelect : String → Prop
  | mk {columns table condition : String} : IsSeries ", " IsName columns → IsName table →
      IsCondition condition →
      IsSelect ("SELECT " ++ columns ++ " FROM " ++ table ++ " WHERE " ++ condition)

/-- An insert names its table, its columns with as many parameters, and the columns to return. -/
inductive IsInsert : String → Prop
  | mk {table returning : String} {columns params : List String} : IsName table → columns ≠ [] →
      (∀ c ∈ columns, IsName c) → params.length = columns.length →
      (∀ p ∈ params, IsParameter p) → IsSeries ", " IsName returning →
      IsInsert ("INSERT INTO " ++ table ++ " (" ++ commaList columns ++ ") VALUES (" ++
        commaList params ++ ") RETURNING " ++ returning)

/-- An update names its table, the columns to set and its condition. -/
inductive IsUpdate : String → Prop
  | mk {table values condition : String} : IsName table →
      IsSeries ", " (IsComparison "=") values → IsCondition condition →
      IsUpdate ("UPDATE " ++ table ++ " SET " ++ values ++ " WHERE " ++ condition)

/-- A delete names its table and its condition. -/
inductive IsDelete : String → Prop
  | mk {table condition : String} : IsName table → IsCondition condition →
      IsDelete ("DELETE FROM " ++ table ++ " WHERE " ++ condition)

variable {columns returning : List String} {table : String} {first : Nat} {condition : Condition}
  {values : List Binding}

/-! ### Texts of values -/

theorem isParameter_placeholder {n : Nat} (h : 0 < n) : IsParameter (placeholder n) := ⟨n, h, rfl⟩

theorem isSeries_commaList {IsItem : String → Prop} {items : List String} (hne : items ≠ [])
    (h : ∀ item ∈ items, IsItem item) : IsSeries ", " IsItem (commaList items) :=
  ⟨items, hne, h, rfl⟩

/-- The columns of bindings are named, and their parameters are numbered from one on. -/
def AreNamed (values : List Binding) : Prop := ∀ b ∈ values, IsName b.column ∧ 0 < b.param

theorem areNamed_bindFrom (hfirst : 0 < first) (h : ∀ c ∈ columns, IsName c) :
    AreNamed (bindFrom first columns) := by
  intro b hb
  obtain ⟨i, hi⟩ := List.mem_iff_getElem?.1 hb
  rw [getElem?_bindFrom] at hi
  obtain ⟨c, hc, rfl⟩ := Option.map_eq_some_iff.1 hi
  exact ⟨h c (List.mem_of_getElem? hc), Nat.add_pos_left hfirst i⟩

theorem bindFrom_ne_nil (h : columns ≠ []) : bindFrom first columns ≠ [] := by
  rw [← List.length_pos_iff, length_bindFrom]
  exact List.length_pos_iff.2 h

theorem isSeries_comparisons (separator sign : String) (hne : values ≠ [])
    (h : AreNamed values) : IsSeries separator (IsComparison sign)
      (separator.intercalate (values.map fun b => b.column ++ sign ++ placeholder b.param)) := by
  refine ⟨_, by simpa using hne, fun item hitem => ?_, rfl⟩
  obtain ⟨b, hb, rfl⟩ := List.mem_map.1 hitem
  obtain ⟨hcolumn, hparam⟩ := h b hb
  exact ⟨_, _, hcolumn, isParameter_placeholder hparam, rfl⟩

theorem isCondition_all (hne : values ≠ []) (h : AreNamed values) :
    IsCondition (Condition.all values).render :=
  .all (isSeries_comparisons " AND " " = " hne h)

/-- An array of a C++ scalar type is cast to an array of a type with a name of one or two words. -/
theorem isSeries_of_arrayElement? {scalar type : String} (h : arrayElement? scalar = some type) :
    IsSeries " " IsName type := by
  have hword : ∀ {word : String}, IsName word → IsSeries " " IsName word := by
    intro word hword
    exact ⟨[word], List.cons_ne_nil word [], List.forall_mem_singleton.2 hword,
      String.intercalate_singleton.symm⟩
  unfold arrayElement? at h
  split at h
  case h_11 =>
    cases h
    exact ⟨["double", "precision"], by decide, by decide, by decide⟩
  case h_14 => cases h
  all_goals
    cases h
    exact hword (by decide)

theorem isArray_render {a : ArrayParam} (hparam : 0 < a.param)
    (helement : ∀ type ∈ a.element, IsSeries " " IsName type) : IsArray a.render := by
  refine ⟨placeholder a.param, isParameter_placeholder hparam, ?_⟩
  unfold ArrayParam.render
  cases ha : a.element with
  | none => exact .inl (by simp)
  | some type => exact .inr ⟨type, helement type ha, by simp [String.append_assoc]⟩

theorem isSelect_render (hne : columns ≠ []) (hcolumns : ∀ c ∈ columns, IsName c)
    (htable : IsName table) (hcondition : IsCondition condition.render) :
    IsSelect (Statement.select columns table condition).render := by
  rw [render_select]
  exact .mk (isSeries_commaList hne hcolumns) htable hcondition

theorem isInsert_render (hvalues : values ≠ []) (hnamed : AreNamed values) (htable : IsName table)
    (hne : returning ≠ []) (hreturning : ∀ c ∈ returning, IsName c) :
    IsInsert (Statement.insert table values returning).render := by
  rw [render_insert]
  refine .mk htable ?_ ?_ ?_ ?_ (isSeries_commaList hne hreturning)
  · simpa using hvalues
  · intro c hc
    obtain ⟨b, hb, rfl⟩ := List.mem_map.1 hc
    exact (hnamed b hb).1
  · rw [List.length_map, List.length_map]
  · intro p hp
    obtain ⟨b, hb, rfl⟩ := List.mem_map.1 hp
    exact isParameter_placeholder (hnamed b hb).2

theorem isUpdate_render (hvalues : values ≠ []) (hnamed : AreNamed values) (htable : IsName table)
    (hcondition : IsCondition condition.render) :
    IsUpdate (Statement.update table values condition).render := by
  rw [render_update]
  exact .mk htable (isSeries_comparisons ", " "=" hvalues hnamed) hcondition

theorem isDelete_render (htable : IsName table) (hcondition : IsCondition condition.render) :
    IsDelete (Statement.delete table condition).render := by
  rw [render_delete]
  exact .mk htable hcondition

/-- What stands in front of the first space is determined by the text. -/
theorem eq_of_append_space {a b x y : List Char} (ha : ' ' ∉ a) (hb : ' ' ∉ b)
    (h : a ++ ' ' :: x = b ++ ' ' :: y) : a = b ∧ x = y := by
  rcases Specialization.append_cons_cases h with hsame | ⟨w, rfl, -⟩ | ⟨w, rfl⟩
  · exact hsame
  · exact absurd (List.mem_append_right a List.mem_cons_self) hb
  · exact absurd (List.mem_append_right b List.mem_cons_self) ha

/-- The first of some items is followed by the separator, or by what is behind all of them. -/
theorem toList_commaList_append (item : String) (items : List String) (rest : List Char) :
    (commaList (item :: items)).toList ++ rest = item.toList ++ rest ∨
      ∃ behind,
        (commaList (item :: items)).toList ++ rest = item.toList ++ ',' :: ' ' :: behind := by
  cases items with
  | nil => exact .inl (by simp [commaList])
  | cons next items =>
    refine .inr ⟨(commaList (next :: items)).toList ++ rest, ?_⟩
    simp [commaList, String.intercalate_cons_cons]

/-- An insert without columns has not the shape of an insert. -/
theorem not_isInsert_of_no_values (htable : ' ' ∉ table.toList) :
    ¬IsInsert (Statement.insert table [] returning).render := by
  intro h
  generalize htext : (Statement.insert table [] returning).render = text at h
  obtain ⟨htable', hne, hcolumns, -, -, -⟩ := h
  obtain ⟨column, columns, rfl⟩ := List.exists_cons_of_ne_nil hne
  obtain ⟨hcolumn, hspace⟩ := hcolumns column List.mem_cons_self
  have hopen : " (".toList = [' ', '('] := rfl
  have hclose : ") VALUES (".toList = ')' :: ' ' :: "VALUES (".toList := rfl
  have hempty : (commaList []).toList = [] := rfl
  have hchars := congrArg String.toList htext
  rw [render_insert] at hchars
  simp only [String.toList_append, List.map_nil, List.append_assoc, List.append_cancel_left_eq,
    hopen, hclose, hempty, List.cons_append, List.nil_append] at hchars
  have hvalues := List.tail_eq_of_cons_eq (eq_of_append_space htable htable'.2 hchars).2
  -- a first column and what follows it would be one bracket, as a space is next
  have hbracket : ' ' ∉ [')'] := by decide
  have hnone : ∀ sign, sign ≠ ' ' → ∀ front behind, column.toList ++ sign :: ' ' :: behind =
      [')'] ++ ' ' :: front → False := by
    intro sign hsign front behind heq
    have hfirst : ' ' ∉ column.toList ++ [sign] := by simp [hspace, Ne.symm hsign]
    have hcolumn' := (eq_of_append_space hfirst hbracket (by simpa using heq)).1
    have hnil : column.toList = [] := by
      have hlength := congrArg List.length hcolumn'
      simpa using hlength
    exact hcolumn (String.toList_eq_nil_iff.1 hnil)
  rcases toList_commaList_append column columns (')' :: ' ' :: _) with hone | ⟨behind, hmore⟩
  · exact hnone ')' (by decide) _ _ (hone.symm.trans hvalues.symm)
  · exact hnone ',' (by decide) _ _ (hmore.symm.trans hvalues.symm)

end Sql

open Sql

/-! ### The statements of an entity -/

namespace Entity

variable {e : Entity} {m : Member} {names : List String} {source : List Char} {file : String}

/-- The table and the columns are named. -/
structure IsNamed (e : Entity) : Prop where
  table : IsName e.table
  columns : ∀ m ∈ e.members, IsName m.column

/-- Tables and columns that are not empty are named. -/
theorem isNamed_of_mem_entities (he : .ok e ∈ entities source file) (htable : e.table ≠ "")
    (hcolumns : ∀ m ∈ e.members, m.column ≠ "") : e.IsNamed where
  table := ⟨htable, fun h => Bool.noConfusion (isUnbroken_table he ' ' h)⟩
  columns m hm := ⟨hcolumns m hm, fun h => Bool.noConfusion (isUnbroken_column he hm ' ' h)⟩

theorem columnNames_ne_nil (h : e.members ≠ []) : e.columnNames ≠ [] := by
  simpa [columnNames, columns] using h

theorem keyColumns_ne_nil (e : Entity) : e.keyColumns ≠ [] := by
  simpa [keyColumns] using e.primaryKeys_ne_nil

namespace IsNamed

variable (h : e.IsNamed)

include h

theorem columnNames : ∀ c ∈ e.columnNames, IsName c := by
  intro c hc
  obtain ⟨column, hcolumn, rfl⟩ := List.mem_map.1 hc
  obtain ⟨m, hm, -, hname⟩ := exists_mem_of_mem_columns hcolumn
  rw [hname]
  exact h.columns m hm

theorem columns_of_ordered {ms : List Member} (hms : ∀ m ∈ ms, m ∈ e.orderedMembers) :
    ∀ c ∈ ms.map Member.column, IsName c := by
  intro c hc
  obtain ⟨m, hm, rfl⟩ := List.mem_map.1 hc
  exact h.columns m (IsCoded.mem_members_of_orderedMembers (hms m hm))

/-- A name stands for the column of a member, or it is a column itself. -/
theorem columnOf {name : String} (hname : IsName name ∨ name ∈ e.members.map Member.name) :
    IsName (e.columnOf name) := by
  by_cases hmem : name ∈ e.members.map Member.name
  · rw [← map_field_columns] at hmem
    obtain ⟨found, hfound, hfield⟩ := List.mem_map.1 hmem
    have hsome : (e.columns.find? fun c => c.field == name).isSome :=
      List.find?_isSome.2 ⟨found, hfound, by simpa using hfield⟩
    obtain ⟨column, hcolumn⟩ := Option.isSome_iff_exists.1 hsome
    obtain ⟨m, hm, -, hof⟩ := exists_mem_of_mem_columns (List.mem_of_find?_eq_some hcolumn)
    rw [Entity.columnOf, hcolumn, Option.map_some, Option.getD_some, hof]
    exact h.columns m hm
  · rw [columnOf_of_not_mem hmem]
    exact hname.resolve_right hmem

theorem keyColumns : ∀ c ∈ e.keyColumns, IsName c := by
  intro c hc
  obtain ⟨name, hname, rfl⟩ := List.mem_map.1 hc
  refine h.columnOf ?_
  unfold primaryKeys at hname
  split at hname
  · rw [List.mem_singleton.1 hname]
    exact .inl (by decide)
  · exact .inr ((e.namesWhere_sublist _).subset hname)

theorem partitionColumns : ∀ c ∈ e.partitionColumns, IsName c := by
  intro c hc
  obtain ⟨name, hname, rfl⟩ := List.mem_map.1 hc
  exact h.columnOf (.inr ((e.namesWhere_sublist _).subset hname))

theorem isCondition_keyCondition : IsCondition e.keyCondition.render := by
  refine isCondition_all (bindFrom_ne_nil ?_) (areNamed_bindFrom Nat.one_pos h.keyColumns)
  exact keyColumns_ne_nil e

theorem isCondition_batchCondition : IsCondition e.batchCondition.render := by
  unfold batchCondition
  split
  · next column hcolumn =>
    rw [Condition.render]
    refine .oneOf (h.keyColumns column ?_) (isParameter_placeholder Nat.one_pos)
    rw [hcolumn]
    exact List.mem_singleton_self column
  · rw [Condition.render]
    refine .tupleOf (keyColumns_ne_nil e) h.keyColumns ?_ ?_
    · rw [List.length_map, List.length_mapIdx, Entity.keyColumns, List.length_map]
    · intro text htext
      obtain ⟨a, ha, rfl⟩ := List.mem_map.1 htext
      obtain ⟨i, hi, rfl⟩ := List.mem_mapIdx.1 ha
      refine isArray_render (Nat.succ_pos i) fun type htype => ?_
      obtain ⟨m, -, helement⟩ := Option.bind_eq_some_iff.1 htype
      exact isSeries_of_arrayElement? helement

end IsNamed

/-- There is a column to insert just when the database does not fill in all members. -/
theorem insertMembers_ne_nil_iff :
    e.insertMembers ≠ [] ↔ ∃ m ∈ e.members, e.isDbManaged m.name = false := by
  constructor
  · intro h
    obtain ⟨m, hm⟩ := List.exists_mem_of_ne_nil _ h
    obtain ⟨hmem, hmanaged⟩ := List.mem_filter.1 hm
    exact ⟨m, IsCoded.mem_members_of_orderedMembers hmem, by simpa using hmanaged⟩
  · rintro ⟨m, hm, hmanaged⟩
    have hname : m.name ∈ e.columns.map Column.field := by
      rw [map_field_columns]
      exact List.mem_map_of_mem hm
    obtain ⟨c, hc, hfield⟩ := List.mem_map.1 hname
    -- the first member of the name stands for all of them
    have hsome : (e.member? m.name).isSome := List.find?_isSome.2 ⟨m, hm, by simp⟩
    obtain ⟨first, hfirst⟩ := Option.isSome_iff_exists.1 hsome
    have hsame : first.name = m.name := by simpa using List.find?_some hfirst
    have hordered : first ∈ e.orderedMembers :=
      List.mem_filterMap.2 ⟨c, hc, by rw [hfield, hfirst]⟩
    exact List.ne_nil_of_mem (List.mem_filter.2 ⟨hordered, by rw [hsame, hmanaged]; rfl⟩)

/-- A header with a class whose only member is filled in by the database. -/
def tickSource : List Char :=
  ("// @relais table=ticks\nstruct Tick \x7b\n" ++
    "    int64_t id; // @relais db_managed\n\x7d;\n").toList

/-- The entity of the header. -/
def tick : Entity where
  className := "Tick"
  scope := ""
  table := "ticks"
  model := none
  members := [⟨"id", "int64_t", "", 3, { flags := [.dbManaged] }⟩]
  enums := []
  readOnly := false
  tiers := []
  entityName := "Tick"
  hasStructMeta := false
  file := "Tick.h"
  line := 2

theorem tick_mem_entities : .ok tick ∈ entities tickSource "Tick.h" := by
  have hsource : tickSource = _ :=
    toList_append_of_eq String.toList_ofList String.toList_ofList
  rw [hsource]
  decide +kernel

/-- An insert is written although there is no column to insert, which no update is. -/
theorem exists_insert_without_columns : .ok tick ∈ entities tickSource "Tick.h" ∧
    tick.members ≠ [] ∧ tick.statements.update = none ∧
    tick.statements.insert.render = "INSERT INTO ticks () VALUES () RETURNING id" ∧
    ¬IsInsert tick.statements.insert.render :=
  ⟨tick_mem_entities, by decide, by decide, by decide,
    (not_isInsert_of_no_values (by decide) :
      ¬IsInsert (Statement.insert "ticks" [] ["id"]).render)⟩

/-- **The statements of an entity have the shape of statements**, but for the insert of an entity
whose members are all filled in by the database: it has no columns. -/
theorem statements_shape (he : .ok e ∈ entities source file) (hmembers : e.members ≠ [])
    (htable : e.table ≠ "") (hcolumns : ∀ m ∈ e.members, m.column ≠ "") :
    IsSeries ", " IsName (commaList e.statements.returning) ∧
      IsSelect e.statements.selectByKey.render ∧
      IsSelect e.statements.selectByKeys.render ∧
      (∀ u ∈ e.statements.update, IsUpdate u.render) ∧
      IsDelete e.statements.deleteByKey.render ∧
      (∀ d ∈ e.statements.deleteWithPartition, IsDelete d.render) ∧
      (IsInsert e.statements.insert.render ↔ ∃ m ∈ e.members, e.isDbManaged m.name = false) := by
  have h : e.IsNamed := isNamed_of_mem_entities he htable hcolumns
  have hreturning : e.columnNames ≠ [] := columnNames_ne_nil hmembers
  refine ⟨isSeries_commaList hreturning h.columnNames,
    isSelect_render hreturning h.columnNames h.table h.isCondition_keyCondition,
    isSelect_render hreturning h.columnNames h.table h.isCondition_batchCondition,
    fun u hu => ?_, isDelete_render h.table h.isCondition_keyCondition, fun d hd => ?_, ?_⟩
  · rw [eq_of_mem_update hu]
    have hset := (isSome_update_iff e).1 (Option.isSome_of_mem hu)
    refine isUpdate_render (bindFrom_ne_nil (by simpa using hset.2)) ?_ h.table
      h.isCondition_keyCondition
    exact areNamed_bindFrom (Nat.succ_pos _) (h.columns_of_ordered fun m hm =>
      List.mem_of_mem_filter hm)
  · rw [eq_of_mem_deleteWithPartition hd]
    refine isDelete_render h.table (isCondition_all (bindFrom_ne_nil ?_) ?_)
    · exact List.append_ne_nil_of_left_ne_nil (keyColumns_ne_nil e) _
    · refine areNamed_bindFrom Nat.one_pos fun c hc => ?_
      rcases List.mem_append.1 hc with hc | hc
      · exact h.keyColumns c hc
      · exact h.partitionColumns c hc
  · rw [← insertMembers_ne_nil_iff]
    constructor
    · intro hshape hnone
      have hinsert : e.statements.insert = .insert e.table [] e.columnNames := by
        rw [statements, hnone]
        rfl
      rw [hinsert] at hshape
      exact not_isInsert_of_no_values h.table.2 hshape
    · intro hne
      exact isInsert_render (bindFrom_ne_nil (by simpa using hne))
        (areNamed_bindFrom Nat.one_pos (h.columns_of_ordered fun m hm => List.mem_of_mem_filter hm))
        h.table hreturning h.columnNames

/-- A header with a member of each sort. -/
def sampleSource : List Char :=
  ("// @relais table=samples\nstruct Sample \x7b\n" ++
    "    int64_t id; // @relais primary_key db_managed\n" ++
    "    int32_t region; // @relais partition_key column=region_id\n" ++
    "    std::string note; // @relais json_field\n\x7d;\n").toList

/-- The entity of the header. -/
def sample : Entity where
  className := "Sample"
  scope := ""
  table := "samples"
  model := none
  members := [⟨"id", "int64_t", "", 3, { flags := [.primaryKey, .dbManaged] }⟩,
    ⟨"region", "int32_t", "", 4, { flags := [.partitionKey], column := some "region_id" }⟩,
    ⟨"note", "std::string", "", 5, { flags := [.jsonField] }⟩]
  enums := []
  readOnly := false
  tiers := []
  entityName := "Sample"
  hasStructMeta := false
  file := "Sample.h"
  line := 2

theorem sample_mem_entities : .ok sample ∈ entities sampleSource "Sample.h" := by
  have hsource : sampleSource = _ :=
    toList_append_of_eq
      (toList_append_of_eq
        (toList_append_of_eq String.toList_ofList String.toList_ofList)
        String.toList_ofList)
      String.toList_ofList
  rw [hsource]
  decide +kernel

theorem statements_shape_sample : .ok sample ∈ entities sampleSource "Sample.h" ∧
    IsUpdate "UPDATE samples SET region_id=$2, note=$3 WHERE id = $1" ∧
    IsDelete "DELETE FROM samples WHERE id = $1 AND region_id = $2" ∧
    IsInsert "INSERT INTO samples (region_id, note) VALUES ($1, $2) RETURNING id, region_id, note" := by
  obtain ⟨-, -, -, hupdate, -, hdelete, hinsert⟩ :=
    statements_shape sample_mem_entities (by decide) (by decide) (by decide)
  have hset : .update "samples" [⟨"region_id", 2⟩, ⟨"note", 3⟩] (.all [⟨"id", 1⟩]) ∈
      sample.statements.update := by decide
  have hpart : .delete "samples" (.all [⟨"id", 1⟩, ⟨"region_id", 2⟩]) ∈
      sample.statements.deleteWithPartition := by decide
  have hmember : ∃ m ∈ sample.members, sample.isDbManaged m.name = false := by decide
  exact ⟨sample_mem_entities, hupdate _ hset, hdelete _ hpart, hinsert.2 hmember⟩

end Entity

end RowMapping
