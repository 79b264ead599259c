import RowMapping.Proofs.Placeholders
import RowMapping.Proofs.Key
/-!
# The parameters that name the partition

A delete that names the partition finds its row by the values that were inserted, and is given them
by a function of its own.  That function is one call with the members themselves, in the order of
the placeholders, while an insertion binds the text for an enumerator and the JSON text of a member.
So the two bind the same for a member just when the member is not converted.

* `callLines`: the lines of a call with some members;
* `Entity.hintBody`, `partitionHint_eq_hintBody`, `run_hintBody`: the code of the function, its text
  and what it binds;
* `hint_agrees_iff`: the columns of the delete and what is bound for them on both sides;
* `exists_hint_of_enumerator`: an enumerator that is inserted as a text and not found again.
-/

namespace RowMapping

open Text Mapping Sql

namespace Mapping

/-- The lines of a call that is given some members. -/
def callLines : List String → List CallLine
  | [] => []
  | [name] => [.argument name true]
  | name :: next :: names => .argument name false :: callLines (next :: names)

theorem text_argument_mid (name : String) :
    (CallLine.argument name false).text = "            " ++ s!"e.{name}" ++ "," := by
  simp only [CallLine.text_eq, toString, ← String.append_assoc, String.reduceAppend,
    Bool.false_eq_true, if_false]

theorem text_argument_last (name : String) :
    (CallLine.argument name true).text = "            " ++ s!"e.{name}" := by
  simp only [CallLine.text_eq, toString, ← String.append_assoc, String.reduceAppend, if_true,
    String.append_empty]

/-- A comma stands behind every member but the last. -/
theorem map_text_callLines (names : List String) :
    (callLines names).map CallLine.text =
      commaLines "            " (names.map fun name => s!"e.{name}") := by
  fun_induction callLines names with
  | case1 => rfl
  | case2 name => rw [List.map_singleton, text_argument_last]; rfl
  | case3 name next names ih => rw [List.map_cons, text_argument_mid, ih]; rfl

/-- Each member is bound as it is. -/
theorem filterMap_parameter?_callLines (names : List String) :
    (callLines names).filterMap CallLine.parameter? = names.map .value := by
  fun_induction callLines names with
  | case1 => rfl
  | case2 name => rfl
  | case3 name next names ih =>
    have hfirst : (CallLine.argument name false).parameter? = some (.value name) := rfl
    rw [List.filterMap_cons_some hfirst, ih]
    rfl

end Mapping

namespace Entity

variable {V : Type} [DecidableEq V] (v : Values V) {e : Entity} {m : Member}

/-- The code of the function that binds the key and the partition of an object. -/
def hintBody (e : Entity) : BodyCode := .call (callLines e.hintMembers)

theorem partitionHint_eq_hintBody (h : e.partitionKeys ≠ []) :
    partitionHint e =
      ["    template<typename Entity>",
        s!"    static {paramsType} makePartitionHintParams(const Entity& e) \x7b"] ++
      e.hintBody.lines ++ ["    \x7d"] := by
  rw [partitionHint_eq h, hintBody, BodyCode.lines, map_text_callLines]
  simp only [List.append_assoc, List.cons_append, List.nil_append]
  rfl

theorem run_hintBody : e.hintBody.run v = some (e.hintMembers.map .value) := by
  rw [hintBody, BodyCode.run, filterMap_parameter?_callLines]

/-- **The partition is named by the members themselves.**  The delete that names the partition
compares the columns of its members one after the other, and the function for its parameters is code
that binds these members as they are, in the same order.  The insertion binds for a column what its
member is converted to.  So a member of the key or of the partition that is inserted is bound in the
same way on both sides just when it is neither JSON nor raw JSON and has no enum mapping. -/
theorem hint_agrees_iff (hd : e.HasDistinctNames) (hp : e.partitionKeys ≠ []) :
    (∃ d ∈ e.statements.deleteWithPartition,
      d.render = "DELETE FROM " ++ e.table ++ " WHERE " ++ e.equalities e.hintMembers) ∧
    partitionHint e =
      ["    template<typename Entity>",
        s!"    static {paramsType} makePartitionHintParams(const Entity& e) \x7b"] ++
      e.hintBody.lines ++ ["    \x7d"] ∧
    e.hintBody.run v = some (e.hintMembers.map .value) ∧
    insertParams e =
      ["    template<typename Entity>",
        s!"    static {paramsType} toInsertParams(const Entity& e) \x7b"] ++
      e.insertBody.code.lines ++ ["    \x7d"] ∧
    e.statements.insert.written.map Binding.column = e.givenMembers.map Member.column ∧
    e.insertBody.code.run v = some (e.givenMembers.filterMap (e.parameter? v)) ∧
    ∀ m ∈ e.members, m.name ∈ e.hintMembers → m.tags.has .dbManaged = false →
      e.columnOf m.name = m.column ∧ m ∈ e.givenMembers ∧
      (e.parameter? v m = some (.value m.name) ↔
        m.tags.has .jsonField = false ∧ m.tags.has .rawJson = false ∧ m.holdsRawJson = false ∧
          e.enumFor? m.name = none) := by
  refine ⟨?_, partitionHint_eq_hintBody hp, run_hintBody v, paramsFunction_eq_code _ _,
    map_column_written_insert hd, run_code_insertBody v hd,
    fun m hm _ hgiven => ⟨columnOf_name hd hm, ?_, ?_⟩⟩
  · obtain ⟨d, hdel⟩ := Option.isSome_iff_exists.1 ((deleteWithPartition_isSome_iff e).2 hp)
    exact ⟨d, hdel, render_deleteWithPartition hdel⟩
  · exact List.mem_filter.2 ⟨hm, by rw [hgiven]; rfl⟩
  · rw [parameter?_eq_value_iff v hd hm, isConverted]
    simp only [Bool.or_eq_false_iff, Option.isSome_eq_false_iff, Option.isNone_iff_eq_none, and_assoc]

/-! ### An enumerator in the partition -/

/-- A header with readings in partitions by their kind. -/
def readingSource : String :=
  "// @relais table=readings\nstruct Reading \x7b\n    int64_t id; // @relais primary_key\n" ++
    "    Kind kind; // @relais partition_key enum=hot:Hot,cold:Cold\n\x7d;\n"

/-- Its class. -/
def reading : Entity where
  className := "Reading"
  scope := ""
  table := "readings"
  model := none
  members := [
    ⟨"id", "int64_t", "", 3, { flags := [.primaryKey] }⟩,
    ⟨"kind", "Kind", "", 4,
      { flags := [.partitionKey], pairs := [⟨"hot", "Hot"⟩, ⟨"cold", "Cold"⟩] }⟩]
  enums := [
    { field := "kind", type := "Kind", pairs := [⟨"hot", "Hot"⟩, ⟨"cold", "Cold"⟩]
      hasMeta := false }]
  readOnly := false
  tiers := []
  entityName := "Reading"
  hasStructMeta := false
  file := "Reading.h"
  line := 2

theorem reading_mem_entities : .ok reading ∈ entities readingSource.toList "Reading.h" := by
  have hentities : entities readingSource.toList "Reading.h" = [.ok reading] := by
    have hsource : readingSource.toList = _ :=
      toList_append_of_eq String.toList_ofList String.toList_ofList
    rw [hsource]
    decide +kernel
  rw [hentities]
  exact List.mem_cons_self

/-- A reading of a kind. -/
def readingOf (kind : String) : Values String where
  isPresent _ := true
  enumerator _ := kind
  constant _ name := name

/-- The insertion binds a text for the kind, and the delete the kind itself. -/
theorem hint_agrees_iff_reading :
    reading.HasDistinctNames ∧ reading.partitionKeys ≠ [] ∧
      reading.hintBody.run (readingOf "Hot") = some [.value "id", .value "kind"] ∧
      reading.insertBody.code.run (readingOf "Hot") = some [.value "id", .literal "hot"] ∧
      ∃ d ∈ reading.statements.deleteWithPartition,
        d.render = "DELETE FROM readings WHERE id = $1 AND kind = $2" := by
  have hd : reading.HasDistinctNames := by decide
  have hp : reading.partitionKeys ≠ [] := by decide
  obtain ⟨⟨d, hdel, hrender⟩, -, hhint, -, -, hinsert, -⟩ := hint_agrees_iff (readingOf "Hot") hd hp
  exact ⟨hd, hp, hhint.trans (by decide), hinsert.trans (by decide), d, hdel,
    hrender.trans (by decide +kernel)⟩

/-- The delete can be given another value than the one that was inserted. -/
theorem exists_hint_of_enumerator :
    ¬ ∀ (source : List Char) (file : String) (e : Entity) (v : Values String),
      .ok e ∈ entities source file → e.HasDistinctNames →
        ∀ m ∈ e.members, m.tags.has .dbManaged = false → ∀ i : Nat, e.hintMembers[i]? = some m.name →
          ∃ ps : List Parameter, e.hintBody.run v = some ps ∧ ps[i]? = e.parameter? v m := by
  intro hclaim
  let kind : Member := ⟨"kind", "Kind", "", 4,
    { flags := [.partitionKey], pairs := [⟨"hot", "Hot"⟩, ⟨"cold", "Cold"⟩] }⟩
  obtain ⟨ps, hrun, hparameter⟩ := hclaim _ _ reading (readingOf "Hot") reading_mem_entities
    (by decide) kind (List.mem_of_getElem? (i := 1) rfl) (by decide) 1 (by decide)
  have htwo : reading.hintBody.run (readingOf "Hot") = some [.value "id", .value "kind"] := by
    decide
  have htext : reading.parameter? (readingOf "Hot") kind = some (.literal "hot") := by decide
  rw [htwo] at hrun
  cases hrun
  rw [htext] at hparameter
  exact absurd hparameter (by decide)

end Entity

end RowMapping
