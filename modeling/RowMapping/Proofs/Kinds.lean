import RowMapping.Mapping.Decode
import RowMapping.Mapping.Params
import RowMapping.Mapping.Traits
import RowMapping.Proofs.Members
/-!
# Kinds of members

The value of a member is written and read in a way that goes by its tags and its type.  The code
that writes it, the code that reads it and the type of a value that is changed alone look at these
one by one, and agree on the kind.

* `Kind`, `Entity.kindOf`: the kind of a member, by its tags;
* `kind_readStep`, `kind?_writeStep`, `changedType_eq`: what goes by the kind;
* `steps_of_enumeration`, `steps_of_json`, `steps_of_rawJson`, `steps_of_plain`: the steps for a
  member of a kind.
-/

namespace RowMapping

open Mapping

namespace Mapping

/-- How the value of a member is written and read. -/
inductive Kind
  | json
  | rawJson
  | enumeration
  | plain
  deriving DecidableEq, Repr

/-- The kind of member that a step reads. -/
def ReadStep.kind : ReadStep → Kind
  | json _ | jsonOrNull _ => .json
  | text _ => .rawJson
  | choice _ _ _ | choiceOrNull _ _ _ => .enumeration
  | value _ _ | valueOrNull _ _ => .plain

/-- The kind of member that a step writes, unless it passes over one. -/
def WriteStep.kind? : WriteStep → Option Kind
  | skip _ _ => none
  | json _ | jsonOrNull _ => some .json
  | text _ => some .rawJson
  | choice _ _ _ | choiceOrNull _ _ _ => some .enumeration
  | value _ => some .plain

end Mapping

namespace Entity

variable {e : Entity} {m : Member}

/-- The kind of a member by its tags and its type: JSON goes before raw JSON and that before an
enum. -/
def kindOf (e : Entity) (m : Member) : Kind :=
  if m.tags.has .jsonField then .json
  else if m.tags.has .rawJson || m.holdsRawJson then .rawJson
  else if (e.enumFor? m.name).isSome then .enumeration
  else .plain

theorem exists_enumFor?_of_kindOf (h : e.kindOf m = .enumeration) :
    ∃ mapping, e.enumFor? m.name = some mapping := by
  unfold kindOf at h
  split at h
  · cases h
  split at h
  · cases h
  split at h
  · next hsome => exact Option.isSome_iff_exists.1 hsome
  · cases h

theorem carrier_eq_of_kindOf (hd : e.HasDistinctNames) (hm : m ∈ e.members) :
    e.carrier m =
      match e.kindOf m, e.enumFor? m.name with
      | .json, _ => .json
      | .rawJson, _ => .rawJson
      | .enumeration, some mapping =>
        .enumeration (Name.qualify e.scope mapping.type) mapping.pairs
      | _, _ => .plain := by
  rw [carrier, kindOf, isJson_name hd hm, isRawJson_eq hd hm]
  split
  · rfl
  split
  · rfl
  cases e.enumFor? m.name <;> rfl

theorem kind_readStep (hd : e.HasDistinctNames) (hm : m ∈ e.members) :
    (e.readStep m).kind = e.kindOf m := by
  rw [readStep, carrier_eq_of_kindOf hd hm]
  cases hkind : e.kindOf m with
  | json => cases m.isOptional <;> rfl
  | rawJson => rfl
  | plain => cases m.isOptional <;> rfl
  | enumeration =>
    obtain ⟨mapping, hmapping⟩ := exists_enumFor?_of_kindOf hkind
    cases m.isOptional <;> simp [hmapping, ReadStep.kind]

theorem kind?_writeStep (hd : e.HasDistinctNames) (hm : m ∈ e.members) :
    (e.writeStep m).kind? = some (e.kindOf m) := by
  rw [writeStep, carrier_eq_of_kindOf hd hm]
  cases hkind : e.kindOf m with
  | json => cases m.isOptional <;> rfl
  | rawJson => rfl
  | plain => rfl
  | enumeration =>
    obtain ⟨mapping, hmapping⟩ := exists_enumFor?_of_kindOf hkind
    cases m.isOptional <;> simp [hmapping, WriteStep.kind?]

/-- The type of a value that is changed alone goes by the kind of the member. -/
theorem changedType_eq (hd : e.HasDistinctNames) (hm : m ∈ e.members)
    (hjson : e.kindOf m ≠ .json) :
    e.changedType m =
      if e.kindOf m = .rawJson ∨ e.kindOf m = .enumeration then "std::string" else m.valueType := by
  rw [changedType, isRawJson_eq hd hm]
  unfold kindOf at hjson ⊢
  cases htag : m.tags.has .jsonField with
  | true => exact absurd (if_pos htag) hjson
  | false =>
    cases m.tags.has .rawJson || m.holdsRawJson with
    | true => simp
    | false => cases e.enumFor? m.name <;> simp

theorem kindOf_of_mem_updateableMembers (hd : e.HasDistinctNames)
    (hm : m ∈ e.updateableMembers) : m ∈ e.members ∧ e.kindOf m ≠ .json := by
  rw [updateableMembers, orderedMembers_eq hd] at hm
  obtain ⟨hm, hp⟩ := List.mem_filter.1 hm
  rw [isJson_name hd hm] at hp
  refine ⟨hm, ?_⟩
  unfold kindOf
  split
  · next hjson => simp [hjson] at hp
  · split
    · exact nofun
    · split <;> exact nofun

/-! ### The steps for a member -/

theorem steps_of_enumeration {mapping : EnumMapping} (hd : e.HasDistinctNames) (hm : m ∈ e.members)
    (hkind : e.kindOf m = .enumeration) (hmapping : e.enumFor? m.name = some mapping) :
    e.readStep m =
        (if m.isOptional then .choiceOrNull m.name (Name.qualify e.scope mapping.type) mapping.pairs
        else .choice m.name (Name.qualify e.scope mapping.type) mapping.pairs) ∧
      e.writeStep m =
        (if m.isOptional then .choiceOrNull m.name (Name.qualify e.scope mapping.type) mapping.pairs
        else .choice m.name (Name.qualify e.scope mapping.type) mapping.pairs) := by
  rw [readStep, writeStep, carrier_eq_of_kindOf hd hm, hkind, hmapping]
  cases m.isOptional <;> exact ⟨rfl, rfl⟩

theorem steps_of_json (hd : e.HasDistinctNames) (hm : m ∈ e.members) (hkind : e.kindOf m = .json) :
    e.readStep m = (if m.isOptional then .jsonOrNull m.name else .json m.name) ∧
      e.writeStep m = (if m.isOptional then .jsonOrNull m.name else .json m.name) := by
  rw [readStep, writeStep, carrier_eq_of_kindOf hd hm, hkind]
  cases m.isOptional <;> exact ⟨rfl, rfl⟩

theorem steps_of_rawJson (hd : e.HasDistinctNames) (hm : m ∈ e.members)
    (hkind : e.kindOf m = .rawJson) :
    e.readStep m = .text m.name ∧ e.writeStep m = .text m.name := by
  rw [readStep, writeStep, carrier_eq_of_kindOf hd hm, hkind]
  exact ⟨rfl, rfl⟩

theorem steps_of_plain (hd : e.HasDistinctNames) (hm : m ∈ e.members)
    (hkind : e.kindOf m = .plain) :
    e.readStep m =
        (if m.isOptional then .valueOrNull m.name m.valueType else .value m.name m.type) ∧
      e.writeStep m = .value m.name := by
  rw [readStep, writeStep, carrier_eq_of_kindOf hd hm, hkind]
  cases m.isOptional <;> exact ⟨rfl, rfl⟩

end Entity

end RowMapping
