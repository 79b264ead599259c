import Mathlib.Data.List.Nodup
import RowMapping.Entity.Basic
/-!
# Members with distinct names

The lists of an entity hold names of members, and its statements and functions look the members up
again.  Where no two members share a name, each look-up gives back the member that was meant, and a
list of names says the same as the tags of the members.

* `Entity.HasDistinctNames`: no two members share a name;
* `Entity.givenMembers`, `Entity.setMembers`: what a new and a changed row are given, by the tags;
* `member?_name`, `columnOf_name`, `orderedMembers_eq`: what a look-up gives;
* `name_mem_namesWhere_iff`: a name is listed for a property when its member has it;
* `insertMembers_eq`, `updateMembers_eq`: these are the members that the statements write.
-/

namespace RowMapping

namespace Entity

/-- No two members have the same name. -/
def HasDistinctNames (e : Entity) : Prop := (e.members.map Member.name).Nodup

instance (e : Entity) : Decidable e.HasDistinctNames :=
  inferInstanceAs (Decidable (e.members.map Member.name).Nodup)

/-- The members that are tagged as parts of the primary key. -/
def keyMembers (e : Entity) : List Member := e.members.filter fun m => m.tags.has .primaryKey

/-- The members that the database does not fill in. -/
def givenMembers (e : Entity) : List Member := e.members.filter fun m => !m.tags.has .dbManaged

/-- The members that are no keys and that the database does not fill in. -/
def setMembers (e : Entity) : List Member :=
  e.members.filter fun m => m.name ∉ e.primaryKeys ∧ m.tags.has .dbManaged = false

variable {e : Entity} {m n : Member}

/-! ### Look-ups -/

theorem HasDistinctNames.eq_of_name (hd : e.HasDistinctNames) (hm : m ∈ e.members)
    (hn : n ∈ e.members) (h : m.name = n.name) : m = n :=
  List.inj_on_of_nodup_map hd hm hn h

/-- A member is the one of its name. -/
theorem member?_name (hd : e.HasDistinctNames) (hm : m ∈ e.members) :
    e.member? m.name = some m := by
  cases h : e.member? m.name with
  | none => exact absurd (List.find?_eq_none.1 h m hm) (by simp)
  | some n =>
    have hname : n.name = m.name := by simpa using List.find?_some h
    rw [hd.eq_of_name (List.mem_of_find?_eq_some h) hm hname]

@[simp] theorem length_columns (e : Entity) : e.columns.length = e.members.length := by
  simp [columns]

theorem getElem?_columns (e : Entity) (i : Nat) :
    e.columns[i]? = e.members[i]?.map fun m => ⟨i, m.name, m.column⟩ := by
  simp [columns]

/-- What is read off the columns alone can be read off the members. -/
theorem map_columns {α : Type} (e : Entity) (f : Column → α) (g : Member → α)
    (h : ∀ i m, f ⟨i, m.name, m.column⟩ = g m) : e.columns.map f = e.members.map g := by
  apply List.ext_getElem?
  intro i
  rw [List.getElem?_map, List.getElem?_map, getElem?_columns, Option.map_map]
  exact Option.map_congr fun m _ => h i m

theorem map_field_columns (e : Entity) :
    e.columns.map Column.field = e.members.map Member.name :=
  e.map_columns _ _ fun _ _ => rfl

/-- The names of the columns stand in the order of the members. -/
theorem columnNames_eq (e : Entity) : e.columnNames = e.members.map Member.column :=
  e.map_columns _ _ fun _ _ => rfl

theorem exists_mem_of_mem_columns {c : Column} (hc : c ∈ e.columns) :
    ∃ m ∈ e.members, c.field = m.name ∧ c.column = m.column := by
  obtain ⟨i, hi, rfl⟩ := List.mem_mapIdx.1 hc
  exact ⟨e.members[i], List.getElem_mem hi, rfl, rfl⟩

/-- The column of a member's name is the column of the member. -/
theorem columnOf_name (hd : e.HasDistinctNames) (hm : m ∈ e.members) :
    e.columnOf m.name = m.column := by
  have hfield : m.name ∈ e.columns.map Column.field := by
    rw [map_field_columns]
    exact List.mem_map_of_mem hm
  obtain ⟨c, hc, hcm⟩ := List.mem_map.1 hfield
  unfold columnOf
  cases h : e.columns.find? fun c => c.field == m.name with
  | none => exact absurd (List.find?_eq_none.1 h c hc) (by simp [hcm])
  | some d =>
    obtain ⟨n, hn, hdn, hcol⟩ := exists_mem_of_mem_columns (List.mem_of_find?_eq_some h)
    have hname : d.field = m.name := by simpa using List.find?_some h
    obtain rfl := hd.eq_of_name hn hm (hdn.symm.trans hname)
    exact hcol

/-- The order of the columns is the order of the members. -/
theorem orderedMembers_eq (hd : e.HasDistinctNames) : e.orderedMembers = e.members := by
  have hself : ∀ m ∈ e.members, e.member? m.name = some m := fun m hm => member?_name hd hm
  calc e.orderedMembers
      = (e.columns.map Column.field).filterMap e.member? := by
        rw [List.filterMap_map]; rfl
    _ = e.members.filterMap fun m => e.member? m.name := by
        rw [map_field_columns, List.filterMap_map]; rfl
    _ = e.members := by
        rw [List.filterMap_congr hself, List.filterMap_some]

/-! ### Lists of names -/

/-- A name is listed for a property when its member has it. -/
theorem name_mem_namesWhere_iff (hd : e.HasDistinctNames) (hm : m ∈ e.members)
    (p : Member → Bool) : m.name ∈ e.namesWhere p ↔ p m = true := by
  constructor
  · intro h
    obtain ⟨n, hn, hname⟩ := List.mem_map.1 h
    obtain ⟨hn, hp⟩ := List.mem_filter.1 hn
    rwa [← hd.eq_of_name hn hm hname]
  · intro hp
    exact List.mem_map_of_mem (List.mem_filter.2 ⟨hm, hp⟩)

theorem contains_namesWhere (hd : e.HasDistinctNames) (hm : m ∈ e.members)
    (p : Member → Bool) : (e.namesWhere p).contains m.name = p m := by
  rw [Bool.eq_iff_iff, List.contains_iff_mem, name_mem_namesWhere_iff hd hm]

theorem isDbManaged_name (hd : e.HasDistinctNames) (hm : m ∈ e.members) :
    e.isDbManaged m.name = m.tags.has .dbManaged :=
  contains_namesWhere hd hm _

theorem isJson_name (hd : e.HasDistinctNames) (hm : m ∈ e.members) :
    e.isJson m.name = m.tags.has .jsonField :=
  contains_namesWhere hd hm _

theorem isRawJson_eq (hd : e.HasDistinctNames) (hm : m ∈ e.members) :
    e.isRawJson m = (m.tags.has .rawJson || m.holdsRawJson) := by
  rw [isRawJson, rawJson, contains_namesWhere hd hm]
  cases m.holdsRawJson <;> simp

/-- A new row gets the members that the database does not fill in. -/
theorem insertMembers_eq (hd : e.HasDistinctNames) : e.insertMembers = e.givenMembers := by
  rw [insertMembers, orderedMembers_eq hd]
  exact List.filter_congr fun m hm => by rw [isDbManaged_name hd hm]

/-- A changed row gets the members that are no keys and that the database does not fill in. -/
theorem updateMembers_eq (hd : e.HasDistinctNames) : e.updateMembers = e.setMembers := by
  rw [updateMembers, orderedMembers_eq hd]
  refine List.filter_congr fun m hm => ?_
  rw [isDbManaged_name hd hm]
  simp [isPrimaryKey]

theorem mem_setMembers_iff : m ∈ e.setMembers ↔
    m ∈ e.members ∧ m.name ∉ e.primaryKeys ∧ m.tags.has .dbManaged = false := by
  simp [setMembers]

/-! ### The primary key -/

/-- A key of several columns consists of the members tagged so. -/
theorem primaryKeys_eq_of_isComposite (h : 1 < e.primaryKeys.length) :
    e.primaryKeys = e.keyMembers.map Member.name := by
  unfold primaryKeys at h ⊢
  split
  · next hempty => simp [hempty] at h
  · rfl

end Entity

end RowMapping
