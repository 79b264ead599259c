import Mathlib.Data.List.Nodup
import RowMapping.Mapping.ListDescriptor
import RowMapping.Proofs.ByteOrder
/-!
# Filters in order

Filters are sorted by their parameters and members, byte by byte.  The sort is stable, and filters
that differ in one of the two come in one order only, wherever they stood before.

* `Filter.NotAfter`: the order, said of the bytes;
* `Entity.sortedFilters_perm`, `Entity.pairwise_sortedFilters`, `Entity.filter_sortedFilters`: what
  the sort does;
* `Entity.DifferInFilterOrder`: entities that differ in the order of their filters;
* `listDescriptor_congr`: their lists have one description.
-/

namespace RowMapping

/-! ### The order of filters -/

namespace Filter

/-- The parameter and the member of a filter, which it is sorted by. -/
def key (f : Filter) : String × String := (f.param, f.field)

/-- The filters have their place, or may have it, in the order of the bytes: first of the
parameters, then of the members. -/
def NotAfter (a b : Filter) : Prop :=
  Text.encode a.param < Text.encode b.param ∨
    a.param = b.param ∧ (Text.encode a.field < Text.encode b.field ∨ a.field = b.field)

variable {a b c : Filter}

theorem before_iff : a.before b = true ↔ a.NotAfter b := by
  have hfield : ¬b.field < a.field ↔ a.field < b.field ∨ a.field = b.field := by
    rw [not_lt, le_iff_lt_or_eq]
  simp only [before, NotAfter, Text.encode_lt_encode_iff, Bool.or_eq_true, Bool.and_eq_true,
    Bool.not_eq_true', decide_eq_true_iff, decide_eq_false_iff_not, beq_iff_eq, hfield]

theorem before_trans (hab : a.before b = true) (hbc : b.before c = true) : a.before c = true := by
  rw [before_iff] at hab hbc ⊢
  unfold NotAfter at hab hbc ⊢
  simp only [Text.encode_lt_encode_iff] at hab hbc ⊢
  rcases hab with hab | ⟨hab, hfield⟩
  · rcases hbc with hbc | ⟨hbc, -⟩
    · exact .inl (hab.trans hbc)
    · exact .inl (hbc ▸ hab)
  · rcases hbc with hbc | ⟨hbc, hfield'⟩
    · exact .inl (hab ▸ hbc)
    · refine .inr ⟨hab.trans hbc, ?_⟩
      rw [← le_iff_lt_or_eq] at hfield hfield' ⊢
      exact hfield.trans hfield'

theorem before_total (a b : Filter) : (a.before b || b.before a) = true := by
  rw [Bool.or_eq_true, before_iff, before_iff]
  unfold NotAfter
  simp only [Text.encode_lt_encode_iff]
  rcases lt_trichotomy a.param b.param with hlt | heq | hgt
  · exact .inl (.inl hlt)
  · rcases lt_trichotomy a.field b.field with hlt | hfield | hgt
    · exact .inl (.inr ⟨heq, .inl hlt⟩)
    · exact .inl (.inr ⟨heq, .inr hfield⟩)
    · exact .inr (.inr ⟨heq.symm, .inl hgt⟩)
  · exact .inr (.inl hgt)

/-- Filters that may come in both orders have the same key. -/
theorem key_eq_of_before (hab : a.before b = true) (hba : b.before a = true) : a.key = b.key := by
  rw [before_iff] at hab hba
  unfold NotAfter at hab hba
  simp only [Text.encode_lt_encode_iff] at hab hba
  rcases hab with hab | ⟨hparam, hab⟩
  · rcases hba with hba | ⟨hba, -⟩
    · exact absurd hba hab.asymm
    · exact absurd hba hab.ne'
  · rcases hba with hba | ⟨-, hba⟩
    · exact absurd hparam hba.ne'
    · refine Prod.ext hparam ?_
      rw [← le_iff_lt_or_eq] at hab hba
      exact le_antisymm hab hba

theorem before_of_key_eq (h : a.key = b.key) : a.before b = true := by
  rw [before_iff]
  exact .inr ⟨congrArg Prod.fst h, .inr (congrArg Prod.snd h)⟩

end Filter

/-! ### The sorted filters -/

namespace Entity

variable {e e' : Entity}

theorem sortedFilters_perm (e : Entity) : e.sortedFilters.Perm e.filters :=
  List.mergeSort_perm e.filters Filter.before

theorem pairwise_before_sortedFilters (e : Entity) :
    e.sortedFilters.Pairwise fun a b => a.before b = true := by
  unfold sortedFilters
  refine List.pairwise_mergeSort ?_ ?_ e.filters
  · intro a b c hab hbc
    exact Filter.before_trans hab hbc
  · exact Filter.before_total

theorem pairwise_sortedFilters (e : Entity) : e.sortedFilters.Pairwise Filter.NotAfter :=
  e.pairwise_before_sortedFilters.imp Filter.before_iff.1

/-- Filters of one key keep their order. -/
theorem filter_sortedFilters (e : Entity) (k : String × String) :
    e.sortedFilters.filter (fun f => f.key = k) = e.filters.filter fun f => f.key = k := by
  have hsame : (e.filters.filter fun f => f.key = k).Pairwise fun a b => a.before b = true := by
    refine List.pairwise_of_forall_mem_list fun a ha b hb => ?_
    have ha := (List.mem_filter.1 ha).2
    have hb := (List.mem_filter.1 hb).2
    rw [decide_eq_true_iff] at ha hb
    exact Filter.before_of_key_eq (ha.trans hb.symm)
  have hsub : (e.filters.filter fun f => f.key = k).Sublist e.sortedFilters := by
    unfold sortedFilters
    refine List.sublist_mergeSort ?_ ?_ hsame List.filter_sublist
    · intro a b c hab hbc
      exact Filter.before_trans hab hbc
    · exact Filter.before_total
  have hkept := hsub.filter fun f => f.key = k
  simp only [List.filter_filter, Bool.and_self] at hkept
  exact (hkept.eq_of_length (e.sortedFilters_perm.filter _).length_eq.symm).symm

/-- Filters with keys of their own are sorted in one order only. -/
theorem sortedFilters_congr (h : e.filters.Perm e'.filters)
    (hkeys : (e.filters.map Filter.key).Nodup) : e.sortedFilters = e'.sortedFilters := by
  have hperm : e.sortedFilters.Perm e'.sortedFilters :=
    (e.sortedFilters_perm.trans h).trans e'.sortedFilters_perm.symm
  refine hperm.eq_of_pairwise ?_ e.pairwise_before_sortedFilters e'.pairwise_before_sortedFilters
  intro a b ha hb hab hba
  have ha := e.sortedFilters_perm.mem_iff.1 ha
  have hb := h.mem_iff.2 (e'.sortedFilters_perm.mem_iff.1 hb)
  exact List.inj_on_of_nodup_map hkeys ha hb (Filter.key_eq_of_before hab hba)

/-- All that the description of lists depends on is the same, but for the order of the filters. -/
structure DifferInFilterOrder (e e' : Entity) : Prop where
  structName : e.structName = e'.structName
  columnOf : ∀ name, e.columnOf name = e'.columnOf name
  sorts : e.sorts = e'.sorts
  tiers : e.tiers = e'.tiers
  filters : e.filters.Perm e'.filters

theorem DifferInFilterOrder.hasList (h : e.DifferInFilterOrder e') : e.hasList = e'.hasList := by
  have hempty : e.filters.isEmpty = e'.filters.isEmpty := by
    rw [Bool.eq_iff_iff, List.isEmpty_iff, List.isEmpty_iff]
    constructor
    · intro hnil
      exact (hnil ▸ h.filters).nil_eq.symm
    · intro hnil
      exact (hnil ▸ h.filters).eq_nil
  rw [Entity.hasList, Entity.hasList, hempty, h.sorts, h.tiers]

end Entity

/-- The order of the filters does not show in the description of lists. -/
theorem Mapping.listDescriptor_congr {e e' : Entity} (h : e.DifferInFilterOrder e')
    (hkeys : (e.filters.map Filter.key).Nodup) : listDescriptor e = listDescriptor e' := by
  have hfilter : filterEntry e = filterEntry e' := by
    funext f
    rw [filterEntry, filterEntry, h.structName, h.columnOf]
  have hsort : sortEntry e = sortEntry e' := by
    funext s
    rw [sortEntry, sortEntry, h.structName, h.columnOf]
  rw [listDescriptor, listDescriptor, h.hasList, Entity.sortedFilters_congr h.filters hkeys,
    hfilter, h.sorts, hsort, Entity.pageLimits, Entity.pageLimits, h.tiers]

end RowMapping
