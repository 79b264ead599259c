import RowMapping.Compile
import RowMapping.Proofs.Update
/-!
# Parameters and placeholders

A statement has a placeholder for each column that it writes, and a function binds the parameters
for them.  An enumerator without a text binds nothing, and then the parameters that follow move to
the columns before theirs.

* `Statement.written`: the columns that a statement writes;
* `exists_parameters`: how many parameters code binds for some members;
* `parameters_eq_placeholders_iff`: how many parameters there are for the placeholders;
* `exists_missing_parameter`: an enumerator without a text.
-/

namespace RowMapping

open Text Mapping Sql

/-- The columns that a statement writes, each with its placeholder. -/
def Sql.Statement.written : Statement → List Binding
  | insert _ values _ | update _ values _ => values
  | select _ _ _ | delete _ _ => []

namespace Entity

variable {V : Type} [DecidableEq V] (v : Values V) {e : Entity}

/-! ### Parameters and placeholders -/

instance (m : Member) : Decidable (e.IsUnmapped v m) :=
  decidable_of_iff _ (e.parameter?_eq_none_iff v m)

/-- Each member has a parameter or is left without one. -/
theorem length_filterMap_parameter? (ms : List Member) :
    (ms.filterMap (e.parameter? v)).length + (ms.filter fun m => e.IsUnmapped v m).length =
      ms.length := by
  have hunmapped : (fun m => decide (e.IsUnmapped v m)) =
      fun m => decide ¬(e.parameter? v m).isSome = true := by
    funext m
    simp [← parameter?_eq_none_iff]
  rw [List.length_filterMap_eq_countP, ← List.countP_eq_length_filter, hunmapped]
  exact (List.length_eq_countP_add_countP fun m => (e.parameter? v m).isSome).symm

theorem forall₂_filterMap_parameter? {ms : List Member} (h : ∀ m ∈ ms, ¬ e.IsUnmapped v m) :
    List.Forall₂ (fun m p => e.parameter? v m = some p) ms (ms.filterMap (e.parameter? v)) := by
  induction ms with
  | nil => exact .nil
  | cons m ms ih =>
    obtain ⟨p, hp⟩ := Option.ne_none_iff_exists'.1
      (mt (e.parameter?_eq_none_iff v m).1 (h m List.mem_cons_self))
    rw [List.filterMap_cons_some hp]
    exact .cons hp (ih fun n hn => h n (List.mem_cons_of_mem m hn))

/-- What code binds for the columns of some members. -/
theorem exists_parameters {code : BodyCode} {ms : List Member} {n : Nat} (hn : n = ms.length)
    (hrun : code.run v = some (ms.filterMap (e.parameter? v))) :
    ∃ ps, code.run v = some ps ∧
      ps.length + (ms.filter fun m => e.IsUnmapped v m).length = n ∧
      (ps.length = n ↔ ∀ m ∈ ms, ¬ e.IsUnmapped v m) ∧
      ((∀ m ∈ ms, ¬ e.IsUnmapped v m) →
        List.Forall₂ (fun m p => e.parameter? v m = some p) ms ps) := by
  have hcount := length_filterMap_parameter? v (e := e) ms
  refine ⟨_, hrun, hcount.trans hn.symm, ?_, forall₂_filterMap_parameter? v⟩
  have hall : (ms.filter fun m => e.IsUnmapped v m).length = 0 ↔ ∀ m ∈ ms, ¬ e.IsUnmapped v m := by
    simp
  rw [← hall]
  omega

theorem map_column_written_insert (hd : e.HasDistinctNames) :
    e.statements.insert.written.map Binding.column = e.givenMembers.map Member.column := by
  rw [← insertMembers_eq hd]
  exact map_column_bindFrom 1 _

theorem map_column_written_update (hd : e.HasDistinctNames) {u : Sql.Statement}
    (hu : u ∈ e.statements.update) :
    u.written.map Binding.column = e.setMembers.map Member.column := by
  rw [eq_of_mem_update hu, ← updateMembers_eq hd]
  exact map_column_bindFrom _ _

/-- **Just an enumerator without a text has no parameter.**  The functions that bind the values of a
new row and of the SET list are code that always runs to its end.  The parameters that it binds and
the members that hold an enumerator without a text are together as many as the placeholders.  So
there is one parameter for each placeholder when no member that is written holds such an enumerator,
and then the parameters are those of the members in the order of the columns. -/
theorem parameters_eq_placeholders_iff (hd : e.HasDistinctNames) :
    e.insertBody.code.lines = e.insertBody.lines ∧
    e.updateBody.code.lines = e.updateBody.lines ∧
    e.statements.insert.written.map Binding.column = e.givenMembers.map Member.column ∧
    (∃ ps, e.insertBody.code.run v = some ps ∧
      ps.length + (e.givenMembers.filter fun m => e.IsUnmapped v m).length =
        e.statements.insert.written.length ∧
      (ps.length = e.statements.insert.written.length ↔
        ∀ m ∈ e.givenMembers, ¬ e.IsUnmapped v m) ∧
      ((∀ m ∈ e.givenMembers, ¬ e.IsUnmapped v m) →
        List.Forall₂ (fun m p => e.parameter? v m = some p) e.givenMembers ps)) ∧
    ∀ u ∈ e.statements.update,
      u.written.map Binding.column = e.setMembers.map Member.column ∧
      ∃ ps, e.updateBody.code.run v = some ps ∧
        ps.length + (e.setMembers.filter fun m => e.IsUnmapped v m).length = u.written.length ∧
        (ps.length = u.written.length ↔ ∀ m ∈ e.setMembers, ¬ e.IsUnmapped v m) ∧
        ((∀ m ∈ e.setMembers, ¬ e.IsUnmapped v m) →
          List.Forall₂ (fun m p => e.parameter? v m = some p) e.setMembers ps) := by
  have hinsert := map_column_written_insert hd
  refine ⟨ParamsBody.lines_code _, ParamsBody.lines_code _, hinsert, ?_, fun u hu => ?_⟩
  · exact exists_parameters v (by simpa using congrArg List.length hinsert)
      (run_code_insertBody v hd)
  · have hupdate := map_column_written_update hd hu
    exact ⟨hupdate, exists_parameters v (by simpa using congrArg List.length hupdate)
      (run_code_updateBody v hd)⟩

/-! ### An enumerator without a text -/

/-- A header with parcels; their type of states may have more enumerators than the two. -/
def parcelSource : String :=
  "// @relais table=parcels\nstruct Parcel \x7b\n    int64_t id;\n" ++
    "    State state; // @relais enum=packed:Packed,sent:Sent\n    std::string note;\n\x7d;\n"

/-- Its class. -/
def parcel : Entity where
  className := "Parcel"
  scope := ""
  table := "parcels"
  model := none
  members := [
    ⟨"id", "int64_t", "", 3, {}⟩,
    ⟨"state", "State", "", 4, { pairs := [⟨"packed", "Packed"⟩, ⟨"sent", "Sent"⟩] }⟩,
    ⟨"note", "std::string", "", 5, {}⟩]
  enums := [
    { field := "state", type := "State", pairs := [⟨"packed", "Packed"⟩, ⟨"sent", "Sent"⟩]
      hasMeta := false }]
  readOnly := false
  tiers := []
  entityName := "Parcel"
  hasStructMeta := false
  file := "Parcel.h"
  line := 2

theorem parcel_mem_entities : .ok parcel ∈ entities parcelSource.toList "Parcel.h" := by
  have hentities : entities parcelSource.toList "Parcel.h" = [.ok parcel] := by
    have hsource : parcelSource.toList = _ :=
      toList_append_of_eq String.toList_ofList String.toList_ofList
    rw [hsource]
    decide +kernel
  rw [hentities]
  exact List.mem_cons_self

/-- A parcel in a state. -/
def parcelIn (state : String) : Values String where
  isPresent _ := true
  enumerator _ := state
  constant _ name := name

/-- A parcel that is sent has three parameters, and one that is lost has two. -/
theorem parameters_eq_placeholders_iff_parcel :
    parcel.HasDistinctNames ∧
      parcel.statements.insert.written.length = 3 ∧
      (∃ ps, parcel.insertBody.code.run (parcelIn "Sent") = some ps ∧ ps.length = 3) ∧
      ∃ ps, parcel.insertBody.code.run (parcelIn "Lost") = some ps ∧ ps.length = 2 := by
  have hd : parcel.HasDistinctNames := by decide
  obtain ⟨-, -, -, ⟨sent, hsent, -, hiff, -⟩, -⟩ :=
    parameters_eq_placeholders_iff (parcelIn "Sent") hd
  obtain ⟨-, -, -, ⟨lost, hlost, hcount, -, -⟩, -⟩ :=
    parameters_eq_placeholders_iff (parcelIn "Lost") hd
  refine ⟨hd, by decide, ⟨sent, hsent, hiff.2 (by decide)⟩, lost, hlost, ?_⟩
  have hone : (parcel.givenMembers.filter fun m =>
      parcel.IsUnmapped (parcelIn "Lost") m).length = 1 := by decide
  have hthree : parcel.statements.insert.written.length = 3 := by decide
  omega

/-- The parameters of an object can be fewer than the placeholders. -/
theorem exists_missing_parameter :
    ¬ ∀ (source : List Char) (file : String) (e : Entity) (v : Values String),
      .ok e ∈ entities source file → e.HasDistinctNames →
        ∃ ps, e.insertBody.code.run v = some ps ∧
          ps.length = e.statements.insert.written.length := by
  intro hclaim
  obtain ⟨ps, hrun, hlength⟩ :=
    hclaim _ _ parcel (parcelIn "Lost") parcel_mem_entities (by decide)
  have htwo : parcel.insertBody.code.run (parcelIn "Lost") = some [.value "id", .value "note"] := by
    decide
  rw [htwo] at hrun
  cases hrun
  exact absurd hlength (by decide)

end Entity

end RowMapping
