import RowMapping.Mapping.Traits
import RowMapping.Proofs.Insert
import RowMapping.Proofs.Lines
/-!
# Update

A row is changed by a statement whose first parameters are the key and whose others are the columns
to set.  Whether anything can be set is asked in three places: for the statement, for the function
that binds its values, and for the traits of the members.

* `Entity.changeReason?`: why a member is not set;
* `isSome_update_iff_exists`: when there is something to set;
* `signature_mem_writeParams_iff`, `constantLine_update_iff`: what is written then;
* `updateParams_eq`, `run_code_updateBody`: the text of the function, and what it binds;
* `update_aligned`: the text of the statement, the text and the parameters of the function, and when
  there are none.
-/

namespace RowMapping

open Mapping Sql

namespace Entity

/-! ### Members that are set -/

/-- Why an update passes over a member: it is a key, or the database fills it in. -/
def changeReason? (e : Entity) (m : Member) : Option String :=
  if m.name ∈ e.primaryKeys then some "primary_key" else managedReason? m

variable {e : Entity} {m : Member}

theorem updateSkip?_eq (hd : e.HasDistinctNames) (hm : m ∈ e.members) :
    e.updateSkip? m = e.changeReason? m := by
  rw [updateSkip?, changeReason?, isPrimaryKey, insertSkip?_eq hd hm]
  simp only [List.contains_iff_mem]

theorem setMembers_eq (e : Entity) :
    e.setMembers = e.members.filter fun m => (e.changeReason? m).isNone := by
  refine List.filter_congr fun m _ => ?_
  unfold changeReason?
  by_cases hkey : m.name ∈ e.primaryKeys
  · simp [hkey]
  · rw [if_neg hkey, isNone_managedReason?]
    simp [hkey]

/-! ### When there is an update -/

theorem isSome_update_iff (e : Entity) :
    e.statements.update.isSome ↔ e.readOnly = false ∧ e.updateMembers ≠ [] := by
  have hhas : e.hasUpdate = true ↔ e.readOnly = false ∧ e.updateMembers ≠ [] := by
    simp [hasUpdate]
  rw [← hhas]
  cases h : e.hasUpdate <;> simp [statements, h]

theorem isSome_update_iff_exists (hd : e.HasDistinctNames) :
    e.statements.update.isSome ↔
      e.readOnly = false ∧
        ∃ m ∈ e.members, m.name ∉ e.primaryKeys ∧ m.tags.has .dbManaged = false := by
  have hmem : e.setMembers ≠ [] ↔ ∃ m, m ∈ e.setMembers :=
    ⟨List.exists_mem_of_ne_nil _, fun ⟨_, hm⟩ => List.ne_nil_of_mem hm⟩
  rw [isSome_update_iff, updateMembers_eq hd, hmem]
  simp only [mem_setMembers_iff]

/-- The function for updates is written when there is such a statement. -/
theorem signature_mem_writeParams_iff (e : Entity) :
    signature "toUpdateParams" ∈ writeParams e ↔ e.statements.update.isSome := by
  have hinsert : signature "toUpdateParams" ∉ insertParams e := fun h =>
    absurd ((signature_mem_paramsFunction_iff _ _ _).1 h) (by decide)
  have hupdate : signature "toUpdateParams" ∈ updateParams e :=
    (signature_mem_paramsFunction_iff _ _ _).2 rfl
  rw [isSome_update_iff, writeParams]
  cases e.readOnly with
  | true => simp
  | false =>
    by_cases hnone : e.updateMembers = []
    · simp [hnone, hinsert]
    · simp [hnone, hupdate]

/-- The constant for updates is written when there is such a statement. -/
theorem constantLine_update_iff (e : Entity) :
    constantLine "update" ∈ sqlStruct e ↔ e.statements.update.isSome := by
  rw [constantLine_mem_sqlStruct_iff, map_fst_sqlTexts]
  cases e.statements.update <;> simp

/-! ### The statement and its values -/

theorem eq_of_mem_update {u : Statement} (hu : u ∈ e.statements.update) :
    u = .update e.table e.setBindings e.keyCondition := by
  unfold statements at hu
  simp only [Option.mem_def, Option.ite_none_right_eq_some, Option.some.injEq] at hu
  exact hu.2.symm

/-- The text of an update. -/
theorem render_update_eq (hd : e.HasDistinctNames) {u : Statement}
    (hu : u ∈ e.statements.update) :
    u.render =
      "UPDATE " ++ e.table ++ " SET " ++
        commaList (e.setMembers.mapIdx fun i m =>
          m.column ++ "=" ++ placeholder (e.primaryKeys.length + 1 + i)) ++
        " WHERE " ++ e.equalities e.primaryKeys := by
  rw [eq_of_mem_update hu, render_update, render_keyCondition, setBindings,
    updateMembers_eq hd, map_bindFrom, mapIdx_map, keyColumns, List.length_map]

/-- The numbers of an update are those from one on, first those of the key. -/
theorem params_update_perm (hd : e.HasDistinctNames) {u : Statement}
    (hu : u ∈ e.statements.update) :
    u.params.Perm (List.range' 1 (e.primaryKeys.length + e.setMembers.length)) := by
  have hset : e.setBindings.map Binding.param =
      List.range' (1 + e.primaryKeys.length) e.setMembers.length := by
    rw [setBindings, map_param_bindFrom, updateMembers_eq hd, List.length_map,
      keyColumns, List.length_map, Nat.add_comm]
  -- the text has the columns to set before those of the key
  rw [eq_of_mem_update hu, Statement.params, hset, params_keyCondition, ← List.range'_append_1]
  exact List.perm_append_comm

/-- The text of the function that binds the values of an update. -/
theorem updateParams_eq (hd : e.HasDistinctNames) :
    updateParams e =
      ["    template<typename Entity>", signature "toUpdateParams"] ++
      (if ∀ m ∈ e.setMembers, e.isConverted m = false then
        s!"        return {paramsType}::make(" :: argumentLines e.changeReason? e.members ++
          ["        );"]
      else
        s!"        {paramsType} p;" :: pushLines e e.changeReason? e.members ++
          ["        return p;"]) ++
      ["    \x7d"] := by
  rw [updateParams, paramsFunction, updateBody, updateMembers_eq hd,
    lines_paramsBody hd (fun m hm => updateSkip?_eq hd hm) e.setMembers_eq]
  rfl

theorem writeParams_eq_of_update {u : Statement} (hu : u ∈ e.statements.update) :
    writeParams e = insertParams e ++ "" :: updateParams e := by
  obtain ⟨hwrite, hset⟩ := (isSome_update_iff e).1 (Option.isSome_of_mem hu)
  simp [writeParams, hwrite, hset]

/-- What is read-only has no traits of members that can be changed. -/
theorem fieldTraits_of_readOnly (h : e.readOnly = true) : e.fieldTraits = [] := by
  simp [fieldTraits, h]

section Run

variable {V : Type} [DecidableEq V] (v : Values V)

/-- The function binds the parameters of the members that are set. -/
theorem run_code_updateBody (hd : e.HasDistinctNames) :
    e.updateBody.code.run v = some (e.setMembers.filterMap (e.parameter? v)) := by
  rw [updateBody, updateMembers_eq hd]
  exact run_code_paramsBody v hd (fun m hm => updateSkip?_eq hd hm) e.setMembers_eq

/-- **The values of a changed row are bound in the order of its columns.**  There is an update when
the entity is not read-only and some member is neither a key nor filled in by the database.  It
binds the key first, then the columns of exactly these members, and its numbers are those from one
on, each once; the function has an argument or a block of code for the same members in the same
order, and what it binds are their parameters.  The function and the constant are written together
with the statement or not at all, and nothing that writes is left of an entity that is read-only. -/
theorem update_aligned (e : Entity) :
    (e.HasDistinctNames →
      (e.statements.update.isSome ↔
        e.readOnly = false ∧
          ∃ m ∈ e.members, m.name ∉ e.primaryKeys ∧ m.tags.has .dbManaged = false) ∧
      (∀ m ∈ e.members, e.columnOf m.name = m.column) ∧
      (∀ u ∈ e.statements.update,
        u.render =
          "UPDATE " ++ e.table ++ " SET " ++
            commaList (e.setMembers.mapIdx fun i m =>
              m.column ++ "=" ++ placeholder (e.primaryKeys.length + 1 + i)) ++
            " WHERE " ++ e.equalities e.primaryKeys ∧
        u.params.Perm (List.range' 1 (e.primaryKeys.length + e.setMembers.length)) ∧
        writeParams e = insertParams e ++ "" :: updateParams e) ∧
      updateParams e =
        ["    template<typename Entity>", signature "toUpdateParams"] ++
        (if ∀ m ∈ e.setMembers, e.isConverted m = false then
          s!"        return {paramsType}::make(" :: argumentLines e.changeReason? e.members ++
            ["        );"]
        else
          s!"        {paramsType} p;" :: pushLines e e.changeReason? e.members ++
            ["        return p;"]) ++
        ["    \x7d"] ∧
      (∀ m ∈ e.setMembers,
        (∀ s : Frame, ∃ buffer, (e.writeStep m).code.run v s =
          some ⟨buffer, s.bound ++ (e.parameter? v m).toList⟩) ∧
        (e.parameter? v m = none ↔ e.IsUnmapped v m)) ∧
      updateParams e =
        ["    template<typename Entity>", signature "toUpdateParams"] ++ e.updateBody.code.lines ++
          ["    \x7d"] ∧
      e.updateBody.code.run v = some (e.setMembers.filterMap (e.parameter? v))) ∧
    (signature "toUpdateParams" ∈ writeParams e ↔ constantLine "update" ∈ sqlStruct e) ∧
    (constantLine "update" ∈ sqlStruct e ↔ e.statements.update.isSome) ∧
    (e.readOnly = true →
      writeParams e = [] ∧ e.statements.update = none ∧ constantLine "update" ∉ sqlStruct e ∧
        traitsType e = ["    struct TraitsType \x7b", "    \x7d;"] ∧
        ∀ mapping, fieldInfo e mapping = []) := by
  refine ⟨fun hd => ?_, ?_, constantLine_update_iff e, fun hread => ?_⟩
  · refine ⟨isSome_update_iff_exists hd, fun m hm => columnOf_name hd hm, fun u hu => ?_,
      updateParams_eq hd, fun m _ => ⟨run_code_writeStep v e m, e.parameter?_eq_none_iff v m⟩,
      paramsFunction_eq_code _ _, run_code_updateBody v hd⟩
    exact ⟨render_update_eq hd hu, params_update_perm hd hu, writeParams_eq_of_update hu⟩
  · rw [signature_mem_writeParams_iff, constantLine_update_iff]
  · have hnone : e.statements.update = none := by
      rw [← Option.not_isSome_iff_eq_none, isSome_update_iff, hread]
      simp
    refine ⟨by simp [writeParams, hread], hnone, ?_, ?_, fun mapping => ?_⟩
    · rw [constantLine_update_iff, hnone]
      exact Bool.false_ne_true
    · rw [traitsType, fieldTraits_of_readOnly hread]
      rfl
    · rw [fieldInfo, fieldTraits_of_readOnly hread]
      rfl

end Run

/-- Memberships: a user is in a group, and neither key stands first. -/
def membership : Entity where
  className := "Membership"
  scope := "app"
  table := "memberships"
  model := none
  members := [
    ⟨"note", "std::optional<std::string>", "", 4, {}⟩,
    ⟨"group", "std::int32_t", "", 5, { flags := [.primaryKey], column := some "group_id" }⟩,
    ⟨"user_id", "std::string", "", 6, { flags := [.primaryKey] }⟩,
    ⟨"role", "Role", "", 7, { column := some "kind" }⟩,
    ⟨"joined_at", "std::string", "", 8, { flags := [.dbManaged, .partitionKey] }⟩]
  enums := [
    { field := "role", type := "Role", pairs := [⟨"admin", "Admin"⟩, ⟨"guest", "Guest"⟩]
      hasMeta := false }]
  readOnly := false
  tiers := []
  entityName := "app::Membership"
  hasStructMeta := false
  file := "Membership.h"
  line := 3

/-- An object whose enumerators are guests. -/
def asGuest : Values String where
  isPresent _ := true
  enumerator _ := "Guest"
  constant _ name := name

/-- The numbers of the columns that are set begin behind those of two keys, and the function binds
what these columns are set to.  Nothing that writes is left when the entity is read-only. -/
theorem update_aligned_membership :
    (membership.HasDistinctNames ∧
      (∃ u ∈ membership.statements.update,
        u.render =
          "UPDATE memberships SET note=$3, kind=$4 WHERE group_id = $1 AND user_id = $2") ∧
      updateParams membership = [
        "    template<typename Entity>",
        "    static jcailloux::relais::io::PgParams toUpdateParams(const Entity& e) \x7b",
        "        jcailloux::relais::io::PgParams p;",
        "        p.push(e.note);",
        "        // group: skipped (primary_key)",
        "        // user_id: skipped (primary_key)",
        "        switch (e.role) \x7b",
        "            case app::Role::Admin: p.push(\"admin\"); break;",
        "            case app::Role::Guest: p.push(\"guest\"); break;",
        "        \x7d",
        "        // joined_at: skipped (db_managed)",
        "        return p;",
        "    \x7d"] ∧
      membership.updateBody.code.run asGuest = some [.value "note", .literal "guest"] ∧
      signature "toUpdateParams" ∈ writeParams membership) ∧
    { membership with readOnly := true }.readOnly = true ∧
      writeParams { membership with readOnly := true } = [] ∧
      traitsType { membership with readOnly := true } =
        ["    struct TraitsType \x7b", "    \x7d;"] := by
  have hd : membership.HasDistinctNames := by decide
  obtain ⟨haligned, hwritten, hconstant, -⟩ := update_aligned asGuest membership
  obtain ⟨hsome, -, htext, hlines, -, -, hrun⟩ := haligned hd
  obtain ⟨-, -, -, hread⟩ := update_aligned asGuest { membership with readOnly := true }
  obtain ⟨hnothing, -, -, htraits, -⟩ := hread rfl
  obtain ⟨u, hu⟩ := Option.isSome_iff_exists.1 (hsome.2 (by decide))
  refine ⟨⟨hd, ⟨u, hu, (htext u hu).1.trans (by decide +kernel)⟩, hlines.trans (by decide +kernel),
    hrun.trans (by decide), hwritten.2 (hconstant.2 ?_)⟩, rfl, hnothing, htraits⟩
  exact Option.isSome_of_mem hu

end Entity

end RowMapping
