import Mathlib.Data.List.Induction
import Mathlib.Data.List.Nodup
import RowMapping.Entity.Resolve
/-!
# Members with an enum mapping

A class gets its enum mappings from two places: from the tags behind its members, and from its
block, whose mappings are added one by one to what is there already.  The result can be told without
that walk.  The members that ask for a mapping themselves come first, in the order of declaration;
then come the members that only the block names, in the order in which it names them.  Each has the
pairs of its own tags, or else those of the first mapping of the block that has any.

* `DeclaredClass.HasDistinctNames`: no two members share a name;
* `DeclaredClass.enumMembers`: the members with a mapping, in order;
* `DeclaredClass.givenPairs`: the pairs that the tags of the class give for a member;
* `DeclaredClass.enumDrafts_eq`: the mappings are those of these members, with these pairs.
-/

namespace RowMapping

/-- The pairs of the first mapping for a name that has any. -/
def EnumPair.firstFor (name : String) (given : List (String × List EnumPair)) : List EnumPair :=
  ((given.find? fun g => g.1 == name && !g.2.isEmpty).map Prod.snd).getD []

namespace DeclaredClass

/-- No two members have the same name. -/
def HasDistinctNames (c : DeclaredClass) : Prop := (c.members.map Member.name).Nodup

instance (c : DeclaredClass) : Decidable c.HasDistinctNames :=
  inferInstanceAs (Decidable (c.members.map Member.name).Nodup)

/-- The members whose own tags ask for a mapping, in the order of declaration. -/
def taggedMembers (c : DeclaredClass) : List Member :=
  c.members.filter fun m => m.wantsEnum && !m.isJson

/-- The members that only mappings of the block ask for, in the order in which these first name
them. -/
def namedMembers (c : DeclaredClass) (given : List (String × List EnumPair)) : List Member :=
  ((given.map Prod.fst).eraseDups.filterMap c.member?).filter fun m => !m.wantsEnum && !m.isJson

/-- The members that get a mapping when the block gives these. -/
def registered (c : DeclaredClass) (given : List (String × List EnumPair)) : List Member :=
  c.taggedMembers ++ c.namedMembers given

/-- The members with an enum mapping, in the order of the mappings. -/
def enumMembers (c : DeclaredClass) : List Member := c.registered c.classEnums

/-- The pairs that the tags of the class give for a member: its own ones come first. -/
def givenPairs (c : DeclaredClass) (m : Member) : List EnumPair :=
  if m.tags.pairs = [] then EnumPair.firstFor m.name c.classEnums else m.tags.pairs

end DeclaredClass

/-- The mapping of a member before the header is searched, when the block gives these. -/
def Member.draft (given : List (String × List EnumPair)) (m : Member) : EnumMapping :=
  ⟨m.name, m.valueType,
    if m.tags.pairs = [] then EnumPair.firstFor m.name given else m.tags.pairs, false⟩

/-! ### One more mapping of the block -/

section

variable {given : List (String × List EnumPair)} {g : String × List EnumPair} {name : String}

theorem EnumPair.firstFor_append_of_ne (h : name ≠ g.1) :
    EnumPair.firstFor name (given ++ [g]) = EnumPair.firstFor name given := by
  have hg : [g].find? (fun g => g.1 == name && !g.2.isEmpty) = none := by
    simp [Ne.symm h]
  rw [EnumPair.firstFor, List.find?_append, hg, Option.or_none, EnumPair.firstFor]

/-- A later mapping for the same member counts only when no earlier one has pairs. -/
theorem EnumPair.firstFor_append_self (given : List (String × List EnumPair))
    (g : String × List EnumPair) :
    EnumPair.firstFor g.1 (given ++ [g]) =
      if EnumPair.firstFor g.1 given = [] then g.2 else EnumPair.firstFor g.1 given := by
  unfold EnumPair.firstFor
  rw [List.find?_append]
  cases h : given.find? fun g' => g'.1 == g.1 && !g'.2.isEmpty with
  | none => by_cases hg : g.2 = [] <;> simp [hg]
  | some g' =>
    have hne : g'.2 ≠ [] := by
      have := List.find?_some h
      simp_all
    simp [hne]

theorem EnumPair.firstFor_eq_nil_iff :
    EnumPair.firstFor name given = [] ↔ ∀ g ∈ given, g.1 = name → g.2 = [] := by
  unfold EnumPair.firstFor
  cases h : given.find? fun g => g.1 == name && !g.2.isEmpty with
  | none =>
    rw [List.find?_eq_none] at h
    refine ⟨fun _ g hg hname => ?_, fun _ => rfl⟩
    simpa [hname] using h g hg
  | some g =>
    have hg := List.find?_some h
    simp only [Bool.and_eq_true, beq_iff_eq, Bool.not_eq_true', List.isEmpty_eq_false_iff] at hg
    refine ⟨fun hnil => absurd hnil hg.2, fun hall => ?_⟩
    exact absurd (hall g (List.mem_of_find?_eq_some h) hg.1) hg.2

theorem Member.draft_append_of_ne {m : Member} (h : m.name ≠ g.1) :
    m.draft (given ++ [g]) = m.draft given := by
  rw [Member.draft, Member.draft, EnumPair.firstFor_append_of_ne h]

theorem map_draft_append_of_ne {ms : List Member} (h : ∀ m ∈ ms, m.name ≠ g.1) :
    ms.map (Member.draft (given ++ [g])) = ms.map (Member.draft given) :=
  List.map_congr_left fun m hm => Member.draft_append_of_ne (h m hm)

/-- Pairs are filled in for the member of their name, and the others keep theirs. -/
theorem EnumMapping.fill_map_draft {ms : List Member} (hd : (ms.map Member.name).Nodup) :
    EnumMapping.fill g.1 g.2 (ms.map (Member.draft given)) =
      ms.map (Member.draft (given ++ [g])) := by
  induction ms with
  | nil => rfl
  | cons m ms ih =>
    rw [List.map_cons, List.nodup_cons] at hd
    rw [List.map_cons, List.map_cons, EnumMapping.fill]
    by_cases h : m.name = g.1
    · have hrest : ∀ n ∈ ms, n.name ≠ g.1 := fun n hn hname =>
        hd.1 (h ▸ hname ▸ List.mem_map_of_mem hn)
      rw [map_draft_append_of_ne hrest]
      simp only [Member.draft, h, EnumPair.firstFor_append_self, if_true]
      congr 1
      by_cases hp : m.tags.pairs = []
      · by_cases hq : EnumPair.firstFor g.1 given = [] <;> simp [hp, hq]
      · simp [hp]
    · rw [Member.draft_append_of_ne h, ih hd.2]
      exact if_neg h

end

namespace DeclaredClass

variable {c : DeclaredClass} {given : List (String × List EnumPair)}
  {g : String × List EnumPair} {m : Member} {name : String}

/-! ### Look-ups -/

theorem member?_eq_some_iff (hd : c.HasDistinctNames) :
    c.member? name = some m ↔ m ∈ c.members ∧ m.name = name := by
  constructor
  · intro h
    exact ⟨List.mem_of_find?_eq_some h, by simpa using List.find?_some h⟩
  · rintro ⟨hm, rfl⟩
    cases h : c.member? m.name with
    | none => exact absurd (List.find?_eq_none.1 h m hm) (by simp)
    | some n =>
      have hname : n.name = m.name := by simpa using List.find?_some h
      rw [List.inj_on_of_nodup_map hd (List.mem_of_find?_eq_some h) hm hname]

theorem isJson_name (hd : c.HasDistinctNames) (hm : m ∈ c.members) :
    c.isJson m.name = m.isJson := by
  rw [Bool.eq_iff_iff, isJson, List.any_eq_true]
  constructor
  · rintro ⟨n, hn, h⟩
    rw [Bool.and_eq_true, beq_iff_eq] at h
    rw [← List.inj_on_of_nodup_map hd hn hm h.2]
    exact h.1
  · intro h
    exact ⟨m, hm, by simp [h]⟩

/-! ### The members in order -/

/-- A member has a mapping when it is not stored as JSON and its tags or the block ask for one. -/
theorem mem_registered_iff (hd : c.HasDistinctNames) : m ∈ c.registered given ↔
    m ∈ c.members ∧ m.isJson = false ∧ (m.wantsEnum = true ∨ ∃ g ∈ given, g.1 = m.name) := by
  have hnamed : m ∈ c.namedMembers given ↔
      m ∈ c.members ∧ (∃ g ∈ given, g.1 = m.name) ∧ m.wantsEnum = false ∧ m.isJson = false := by
    simp only [namedMembers, List.mem_filter, List.mem_filterMap, List.mem_eraseDups, List.mem_map,
      member?_eq_some_iff hd, Bool.and_eq_true, Bool.not_eq_true']
    constructor
    · rintro ⟨⟨_, ⟨g, hg, rfl⟩, hm, hname⟩, hrest⟩
      exact ⟨hm, ⟨g, hg, hname.symm⟩, hrest⟩
    · rintro ⟨hm, ⟨g, hg, hname⟩, hrest⟩
      exact ⟨⟨_, ⟨g, hg, hname⟩, hm, rfl⟩, hrest⟩
  rw [registered, List.mem_append, hnamed, taggedMembers, List.mem_filter]
  cases m.wantsEnum <;> cases m.isJson <;> simp

theorem registered_append (c : DeclaredClass) (given : List (String × List EnumPair))
    (g : String × List EnumPair) :
    c.registered (given ++ [g]) = c.registered given ++
      if g.1 ∈ given.map Prod.fst then []
      else (c.member? g.1).toList.filter fun m => !m.wantsEnum && !m.isJson := by
  rw [registered, registered, namedMembers, namedMembers, List.map_append, List.eraseDups_append,
    List.filterMap_append, List.filter_append, List.append_assoc]
  congr 2
  by_cases h : g.1 ∈ given.map Prod.fst
  · rw [if_pos h]
    simp [List.removeAll, h]
  · rw [if_neg h]
    cases hm : c.member? g.1 <;> simp [List.removeAll, h, hm, List.eraseDups_cons]

theorem nodup_registered (hd : c.HasDistinctNames) (given : List (String × List EnumPair)) :
    ((c.registered given).map Member.name).Nodup := by
  induction given using List.reverseRecOn with
  | nil =>
    have hsub : (c.registered []).Sublist c.members := by
      simp [registered, namedMembers, taggedMembers, List.filter_sublist]
    exact hd.sublist (hsub.map Member.name)
  | append_singleton given g ih =>
    rw [registered_append]
    split
    · rwa [List.append_nil]
    · next hfresh =>
      cases hm : c.member? g.1 with
      | none => simpa using ih
      | some m =>
        obtain ⟨-, hname⟩ := (member?_eq_some_iff hd).1 hm
        by_cases hkeep : (!m.wantsEnum && !m.isJson) = true
        · rw [Option.toList_some, List.filter_singleton, hkeep, cond_true, List.map_append,
            List.map_singleton, List.nodup_append]
          refine ⟨ih, List.nodup_singleton _, ?_⟩
          rintro a ha b hb rfl
          rw [List.mem_singleton] at hb
          obtain ⟨n, hn, hnb⟩ := List.mem_map.1 ha
          -- a member of this name that is there already has tags of its own or is named before
          obtain ⟨hn, -, hasks⟩ := (mem_registered_iff hd).1 hn
          have hnm : c.member? g.1 = some n :=
            (member?_eq_some_iff hd).2 ⟨hn, by rw [hnb, hb, hname]⟩
          obtain rfl : m = n := by simpa [hm] using hnm
          rcases hasks with hwants | ⟨g', hg', hsame⟩
          · simp [hwants] at hkeep
          · exact hfresh (List.mem_map.2 ⟨g', hg', hsame.trans hname⟩)
        · rw [Option.toList_some, List.filter_singleton, Bool.eq_false_iff.2 hkeep, cond_false,
            List.append_nil]
          exact ih

/-! ### The mappings -/

theorem filterMap_enumDraft? (c : DeclaredClass) :
    c.members.filterMap Member.enumDraft? = (c.registered []).map (Member.draft []) := by
  have hnone : c.registered [] = c.taggedMembers := by simp [registered, namedMembers]
  rw [hnone, taggedMembers, ← List.filterMap_eq_map, List.filterMap_filter]
  refine List.filterMap_congr fun m _ => ?_
  by_cases hp : m.tags.pairs = [] <;>
    simp [Member.enumDraft?, Member.draft, hp, EnumPair.firstFor]

/-- A registered member is the member of its name. -/
theorem eq_of_mem_registered (hd : c.HasDistinctNames) (hm : m ∈ c.members) {n : Member}
    (hn : n ∈ c.registered given) (h : n.name = m.name) : n = m :=
  List.inj_on_of_nodup_map hd ((mem_registered_iff hd).1 hn).1 hm h

theorem any_field_map_draft (hd : c.HasDistinctNames) (hm : m ∈ c.members) :
    ((c.registered given).map (Member.draft given)).any (fun e => e.field == m.name) =
      decide (m ∈ c.registered given) := by
  rw [Bool.eq_iff_iff, List.any_eq_true, decide_eq_true_iff]
  constructor
  · rintro ⟨e, he, hfield⟩
    obtain ⟨n, hn, rfl⟩ := List.mem_map.1 he
    rwa [← eq_of_mem_registered hd hm hn (by simpa [Member.draft] using hfield)]
  · intro hreg
    exact ⟨m.draft given, List.mem_map_of_mem hreg, by simp [Member.draft]⟩

/-- The first mapping that is asked for a member has the pairs it is asked with. -/
theorem draft_append_of_unasked (hwants : m.wantsEnum = false)
    (hnamed : ∀ g' ∈ given, g'.1 ≠ m.name) (hg : g.1 = m.name) :
    m.draft (given ++ [g]) = ⟨g.1, m.valueType, g.2, false⟩ := by
  have hpairs : m.tags.pairs = [] := by
    rw [Member.wantsEnum, Bool.or_eq_false_iff] at hwants
    simpa using hwants.1
  have hfirst : EnumPair.firstFor g.1 given = [] :=
    EnumPair.firstFor_eq_nil_iff.2 fun g' hg' h => absurd (h.trans hg) (hnamed g' hg')
  rw [Member.draft, if_pos hpairs, ← hg, EnumPair.firstFor_append_self, if_pos hfirst]

/-- One more mapping of the block is added to the mappings of the members registered so far. -/
theorem addClassEnum_map_draft (hd : c.HasDistinctNames) :
    c.addClassEnum ((c.registered given).map (Member.draft given)) g =
      (c.registered (given ++ [g])).map (Member.draft (given ++ [g])) := by
  unfold addClassEnum
  cases hm : c.member? g.1 with
  | none =>
    have hne : ∀ n ∈ c.registered given, n.name ≠ g.1 := fun n hn hname => by
      have hfound := (member?_eq_some_iff hd).2 ⟨((mem_registered_iff hd).1 hn).1, hname⟩
      rw [hm] at hfound
      cases hfound
    rw [registered_append, hm]
    simpa using (map_draft_append_of_ne hne).symm
  | some m =>
    obtain ⟨hmem, hname⟩ := (member?_eq_some_iff hd).1 hm
    have hgiven : g.1 ∈ given.map Prod.fst ↔ ∃ g' ∈ given, g'.1 = m.name := by
      rw [List.mem_map, hname]
    have hne : m ∉ c.registered given → ∀ n ∈ c.registered given, n.name ≠ g.1 :=
      fun hreg n hn h => hreg (eq_of_mem_registered hd hmem hn (h.trans hname.symm) ▸ hn)
    simp only [← hname, isJson_name hd hmem, any_field_map_draft hd hmem] at hgiven ⊢
    simp only [registered_append, ← hname, (member?_eq_some_iff hd).2 ⟨hmem, rfl⟩, hgiven,
      Option.toList_some]
    cases hj : m.isJson with
    | true =>
      have hreg : m ∉ c.registered given := fun hreg => by
        rw [((mem_registered_iff hd).1 hreg).2.1] at hj
        cases hj
      simp [hj, map_draft_append_of_ne (hne hreg)]
    | false =>
      by_cases hreg : m ∈ c.registered given
      · -- the member has a mapping, which gets the pairs if it has none
        have hsame : (if ∃ g' ∈ given, g'.1 = m.name then []
            else [m].filter fun m => !m.wantsEnum && !m.isJson) = [] := by
          rcases ((mem_registered_iff hd).1 hreg).2.2 with hwants | hnamed
          · simp [hwants]
          · rw [if_pos hnamed]
        rw [hsame, List.append_nil, hname]
        simpa [hreg] using EnumMapping.fill_map_draft (nodup_registered hd given)
      · -- the block is the first to ask for a mapping of the member
        have hasks : ¬(m.wantsEnum = true ∨ ∃ g' ∈ given, g'.1 = m.name) := fun h =>
          hreg ((mem_registered_iff hd).2 ⟨hmem, hj, h⟩)
        obtain ⟨hwants, hnamed⟩ := not_or.1 hasks
        have hdraft : m.draft (given ++ [g]) = ⟨m.name, m.valueType, g.2, false⟩ := by
          rw [draft_append_of_unasked (Bool.eq_false_iff.2 hwants)
            (fun g' hg' h => hnamed ⟨g', hg', h⟩) hname.symm, hname]
        rw [if_neg hnamed, List.filter_cons_of_pos (by simp [hwants, hj]), List.filter_nil,
          List.map_append, List.map_singleton, map_draft_append_of_ne (hne hreg), hdraft]
        simp [hreg]

theorem foldl_addClassEnum (hd : c.HasDistinctNames) (given : List (String × List EnumPair)) :
    given.foldl c.addClassEnum (c.members.filterMap Member.enumDraft?) =
      (c.registered given).map (Member.draft given) := by
  induction given using List.reverseRecOn with
  | nil => exact c.filterMap_enumDraft?
  | append_singleton given g ih =>
    rw [List.foldl_append, ih]
    exact addClassEnum_map_draft hd

/-- **The mappings that tags ask for** are those of the members in order, each with the pairs that
the tags give. -/
theorem enumDrafts_eq (hd : c.HasDistinctNames) :
    c.enumDrafts = c.enumMembers.map fun m => ⟨m.name, m.valueType, c.givenPairs m, false⟩ :=
  foldl_addClassEnum hd c.classEnums

end DeclaredClass

end RowMapping
