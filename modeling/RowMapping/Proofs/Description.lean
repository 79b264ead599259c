import RowMapping.Proofs.Declared
import RowMapping.Proofs.EnumResolution
import RowMapping.Proofs.Members
/-!
# What resolved entities have in common

An entity is resolved from a class in one pass over its members, after which the block of the class
adds enum mappings and the header adds pairs.  Whatever tags the members and the block carry, and
however they contradict each other, the code that is generated for the entity can rely on this:
there is a key, the lists name members in their order, a member stored as JSON is neither a point in
time nor an enum, each enum has pairs, and of repeated words of the block the last one counts.

* `DeclaredClass.IsLast`: what the last tag of a sort says;
* `Entity.Describes`: what an entity has in common with its class;
* `field_of_mem_filters`, `field_of_mem_sorts`: a filter or sort key names the member before it;
* `describes_of_resolve`: an entity describes the class from which it is resolved.
-/

namespace RowMapping

/-! ### The last of several tags -/

/-- Of the tags that `f` reads, the last one says `b`. -/
def DeclaredClass.IsLast {β : Type} (c : DeclaredClass) (f : ClassTag → Option β) (b : β) : Prop :=
  ∃ before t after, c.tags = before ++ t :: after ∧ f t = some b ∧ ∀ u ∈ after, f u = none

theorem getLast?_filterMap_eq_some_iff {α β : Type} {f : α → Option β} {l : List α} {b : β} :
    (l.filterMap f).getLast? = some b ↔
      ∃ before a after, l = before ++ a :: after ∧ f a = some b ∧ ∀ x ∈ after, f x = none := by
  rw [List.getLast?_filterMap, List.findSome?_eq_some_iff]
  constructor
  · rintro ⟨after, a, before, hl, ha, hafter⟩
    refine ⟨before.reverse, a, after.reverse, ?_, ha, by simpa using hafter⟩
    rw [← List.reverse_reverse l, hl]
    simp
  · rintro ⟨before, a, after, rfl, ha, hafter⟩
    exact ⟨after.reverse, a, before.reverse, by simp, ha, by simpa using hafter⟩

theorem getLast?_filterMap_eq_none_iff {α β : Type} {f : α → Option β} {l : List α} :
    (l.filterMap f).getLast? = none ↔ ∀ a ∈ l, f a = none := by
  rw [List.getLast?_eq_none_iff, List.filterMap_eq_nil_iff]

/-! ### Tags are on their member -/

namespace MemberTags

/-- The filters and sort keys of the tags are on one member. -/
def AreOn (field : String) (tags : MemberTags) : Prop :=
  (∀ f ∈ tags.filters, f.field = field) ∧ ∀ s ∈ tags.sorts, s.field = field

theorem field_filterOfTag (field : String) (tag : List Char) :
    (Filter.ofTag field tag).field = field := by
  unfold Filter.ofTag
  split
  · rfl
  · split <;> rfl
  · rfl

theorem field_sortKeyOfTag (field : String) (tag : List Char) :
    (SortKey.ofTag field tag).field = field := by
  unfold SortKey.ofTag
  split
  · rfl
  · split <;> rfl
  · rfl

/-- One more word is on the same member. -/
theorem areOn_add {field : String} {tags : MemberTags} (h : tags.AreOn field) (w : Word) :
    (tags.add field w).AreOn field := by
  cases w with
  | pairs text => exact h
  | column name => exact h
  | filter tag =>
    refine ⟨fun f hf => ?_, h.2⟩
    rcases List.mem_append.1 hf with hf | hf
    · exact h.1 f hf
    · obtain rfl := List.mem_singleton.1 hf
      exact field_filterOfTag field tag
  | sort tag =>
    refine ⟨h.1, fun s hs => ?_⟩
    rcases List.mem_append.1 hs with hs | hs
    · exact h.2 s hs
    · obtain rfl := List.mem_singleton.1 hs
      exact field_sortKeyOfTag field tag
  | flag flag =>
    unfold add
    dsimp only
    split
    · exact h
    · exact h

theorem areOn_ofText (field : String) (text : List Char) : (ofText field text).AreOn field := by
  have hrun (ws : List Word) (tags : MemberTags) (h : tags.AreOn field) :
      (ws.foldl (add field) tags).AreOn field := by
    induction ws generalizing tags with
    | nil => exact h
    | cons w ws ih => exact ih _ (areOn_add h w)
  exact hrun _ _ ⟨nofun, nofun⟩

end MemberTags

/-- The tags of a declared member are on this member. -/
theorem Member.areOn_of_ofCode? {source : List Char} {code : List Token} {trailing : Option Token}
    {m : Member} (h : Member.ofCode? source code trailing = some m) : m.tags.AreOn m.name := by
  unfold Member.ofCode? at h
  simp only [Option.bind_eq_bind, Option.bind_eq_some_iff] at h
  obtain ⟨_, _, _, _, _, _, ⟨declarator, initial⟩, -, name, -, _, -, _, -, h⟩ := h
  cases h
  cases Declaration.tagText? trailing with
  | none => exact ⟨nofun, nofun⟩
  | some text => exact MemberTags.areOn_ofText name.text text

theorem DeclaredClass.areOn_of_mem_members {text : List Char} {c : DeclaredClass}
    (hc : c ∈ declaredClasses text) {m : Member} (hm : m ∈ c.members) : m.tags.AreOn m.name := by
  obtain ⟨site, -, rfl⟩ := List.mem_map.1 hc
  obtain ⟨s, -, hs⟩ := List.mem_filterMap.1 hm
  exact Member.areOn_of_ofCode? hs

namespace Entity

/-- What an entity has in common with the class `c` from which it is resolved. -/
structure Describes (e : Entity) (c : DeclaredClass) : Prop where
  members : e.members = c.members
  /-- The key consists of the members tagged so, in the order of declaration. -/
  tagged_keys : (∃ m ∈ c.members, m.tags.has .primaryKey = true) →
    e.primaryKeys = (c.members.filter fun m => m.tags.has .primaryKey).map Member.name
  default_key : (∀ m ∈ c.members, m.tags.has .primaryKey = false) → e.primaryKeys = ["id"]
  keys_ne_nil : e.primaryKeys ≠ []
  /-- The lists name members in the order of declaration, none twice. -/
  lists : ∀ names ∈ [e.partitionKeys, e.dbManaged, e.timestamps, e.rawJson, e.jsonFields],
    names.Sublist (c.members.map Member.name) ∧ names.Nodup
  json_timestamps : e.jsonFields.Disjoint e.timestamps
  json_enums : e.jsonFields.Disjoint (e.enums.map EnumMapping.field)
  /-- The enum mappings are those of different members, and each has pairs. -/
  enums_nodup : (e.enums.map EnumMapping.field).Nodup
  enums_members : e.enums.map EnumMapping.field ⊆ c.members.map Member.name
  enums_pairs : ∀ mapping ∈ e.enums, mapping.pairs ≠ []
  /-- Filters and sort keys stand in the order of the members, and each names its member. -/
  filters : e.filters = c.members.flatMap fun m => m.tags.filters
  sorts : e.sorts = c.members.flatMap fun m => m.tags.sorts
  filters_field : ∀ m ∈ c.members, ∀ f ∈ m.tags.filters, f.field = m.name
  sorts_field : ∀ m ∈ c.members, ∀ s ∈ m.tags.sorts, s.field = m.name
  /-- Of repeated words of the block the last one counts. -/
  last_table : ∀ name, c.IsLast ClassTag.table? name → e.table = name
  last_model : ∀ name, c.IsLast ClassTag.model? name ↔ e.model = some name
  last_limits : ∀ tiers, c.IsLast ClassTag.limits? tiers → e.tiers = tiers
  last_entity : ∀ name, c.IsLast ClassTag.entity? name → e.entityName = name
  /-- The table is derived, which a notice tells, just when the block names none. -/
  derived_table : (∀ t ∈ c.tags, t.table? = none) → e.table = Name.tableName c.name
  derived_notice : .derivedTable c.name (Name.tableName c.name) ∈ c.notices ↔
    ∀ t ∈ c.tags, t.table? = none
  default_limits : (∀ t ∈ c.tags, t.limits? = none) → e.tiers = []
  default_entity : (∀ t ∈ c.tags, t.entity? = none) →
    e.entityName = Name.qualify c.scope c.name

variable {c : DeclaredClass} {source : List Char} {file : String} {e : Entity}

/-! ### Lists of names -/

theorem namesWhere_sublist (e : Entity) (p : Member → Bool) :
    (e.namesWhere p).Sublist (e.members.map Member.name) :=
  List.filter_sublist.map Member.name

theorem lists_of_members (hd : e.HasDistinctNames) :
    ∀ names ∈ [e.partitionKeys, e.dbManaged, e.timestamps, e.rawJson, e.jsonFields],
      names.Sublist (e.members.map Member.name) ∧ names.Nodup := by
  have hlist (p : Member → Bool) : (e.namesWhere p).Sublist (e.members.map Member.name) ∧
      (e.namesWhere p).Nodup :=
    ⟨e.namesWhere_sublist p, List.Nodup.sublist (e.namesWhere_sublist p) hd⟩
  intro names hnames
  simp only [List.mem_cons, List.not_mem_nil, or_false] at hnames
  rcases hnames with rfl | rfl | rfl | rfl | rfl <;> exact hlist _

theorem disjoint_jsonFields_timestamps (hd : e.HasDistinctNames) :
    e.jsonFields.Disjoint e.timestamps := by
  intro name hjson htime
  obtain ⟨m, hm, rfl⟩ := List.mem_map.1 hjson
  obtain ⟨hm, -⟩ := List.mem_filter.1 hm
  have hjson := (name_mem_namesWhere_iff hd hm _).1 hjson
  have htime := (name_mem_namesWhere_iff hd hm _).1 htime
  simp [hjson] at htime

theorem primaryKeys_of_untagged (h : ∀ m ∈ e.members, m.tags.has .primaryKey = false) :
    e.primaryKeys = ["id"] := by
  have hnone : e.flagged .primaryKey = [] := by
    rw [flagged, namesWhere, List.map_eq_nil_iff, List.filter_eq_nil_iff]
    simpa using h
  rw [primaryKeys, hnone]
  rfl

theorem primaryKeys_of_tagged (h : ∃ m ∈ e.members, m.tags.has .primaryKey = true) :
    e.primaryKeys = (e.members.filter fun m => m.tags.has .primaryKey).map Member.name := by
  obtain ⟨m, hm, htag⟩ := h
  have hsome : m.name ∈ e.flagged .primaryKey :=
    List.mem_map_of_mem (List.mem_filter.2 ⟨hm, htag⟩)
  rw [primaryKeys, if_neg fun hempty => List.not_mem_nil (List.isEmpty_iff.1 hempty ▸ hsome)]
  rfl

end Entity

namespace DeclaredClass

variable {c : DeclaredClass} {source : List Char} {file : String} {e : Entity}

/-! ### Enum mappings -/

theorem map_field_enums (hd : c.HasDistinctNames) (h : c.resolve source file = .ok e) :
    e.enums.map EnumMapping.field = c.enumMembers.map Member.name := by
  rw [enums_of_resolve hd h, List.map_map]
  rfl

theorem pairs_ne_nil_of_resolve (hd : c.HasDistinctNames) (h : c.resolve source file = .ok e) :
    ∀ mapping ∈ e.enums, mapping.pairs ≠ [] := by
  rw [enums_of_resolve hd h, List.forall_mem_map]
  intro m hm hnil
  obtain ⟨err, herr⟩ := (exists_error_iff hd).2 ⟨m, hm, hnil⟩
  cases h.symm.trans herr

theorem disjoint_jsonFields_enums (hd : c.HasDistinctNames) (h : c.resolve source file = .ok e) :
    e.jsonFields.Disjoint (e.enums.map EnumMapping.field) := by
  intro name hjson henum
  rw [map_field_enums hd h] at henum
  obtain ⟨m, hm, rfl⟩ := List.mem_map.1 henum
  obtain ⟨hm, hplain, -⟩ := (mem_registered_iff hd).1 hm
  have hmembers : e.members = c.members := members_of_resolve h
  have hd' : e.HasDistinctNames := by rwa [Entity.HasDistinctNames, hmembers]
  have htag := (Entity.name_mem_namesWhere_iff hd' (hmembers ▸ hm) _).1 hjson
  exact absurd hplain (by rw [Member.isJson, htag]; decide)

/-! ### The block -/

theorem block_of_resolve (h : c.resolve source file = .ok e) :
    e.table = c.table ∧ e.model = c.model? ∧ e.tiers = c.tiers ∧ e.entityName = c.entityName := by
  unfold resolve at h
  simp only [bind, Except.bind] at h
  split at h
  · cases h
  · cases h
    exact ⟨rfl, rfl, rfl, rfl⟩

theorem getD_of_isLast {β : Type} {f : ClassTag → Option β} {b default : β} (h : c.IsLast f b) :
    (c.tags.filterMap f).getLast?.getD default = b := by
  rw [getLast?_filterMap_eq_some_iff.2 h]
  rfl

theorem getD_of_forall {β : Type} {f : ClassTag → Option β} {default : β}
    (h : ∀ t ∈ c.tags, f t = none) : (c.tags.filterMap f).getLast?.getD default = default := by
  rw [getLast?_filterMap_eq_none_iff.2 h]
  rfl

theorem not_derivedTable_mem_classEnumsNotices {className table : String}
    (given : List (String × List EnumPair)) (es : List EnumMapping) :
    .derivedTable className table ∉ c.classEnumsNotices es given := by
  induction given generalizing es with
  | nil => exact List.not_mem_nil
  | cons g given ih =>
    rw [classEnumsNotices, List.mem_append, not_or]
    refine ⟨?_, ih _⟩
    unfold classEnumNotices
    split
    · simp
    · split
      · simp
      · split
        · split <;> simp
        · simp

/-- A notice tells of a derived table just when the block names none. -/
theorem derivedTable_mem_notices_iff :
    .derivedTable c.name (Name.tableName c.name) ∈ c.notices ↔ ∀ t ∈ c.tags, t.table? = none := by
  have hignored : Notice.derivedTable c.name (Name.tableName c.name) ∉
      (c.tags.filterMap ClassTag.other?).map (Notice.ignoredTag c.name) := by simp
  have hmembers : Notice.derivedTable c.name (Name.tableName c.name) ∉
      c.members.flatMap c.memberNotices := by
    rw [List.mem_flatMap]
    rintro ⟨m, -, hm⟩
    unfold memberNotices at hm
    split at hm <;> simp at hm
  have hclass : Notice.derivedTable c.name (Name.tableName c.name) ∉
      c.classEnumsNotices (c.members.filterMap Member.enumDraft?) c.classEnums :=
    not_derivedTable_mem_classEnumsNotices _ _
  rw [← getLast?_filterMap_eq_none_iff, notices, List.mem_append, List.mem_append, List.mem_append]
  change _ ↔ c.table? = none
  cases c.table? with
  | none => simp
  | some name => simp [hignored, hmembers, hclass]

end DeclaredClass

/-- **An entity describes its class.**  Every class of a header whose members have distinct names
and that can be resolved, against whatever text, gives an entity with these properties. -/
theorem Entity.describes_of_resolve {text : List Char} {c : DeclaredClass} {source : List Char}
    {file : String} {e : Entity} (hc : c ∈ declaredClasses text) (hd : c.HasDistinctNames)
    (h : c.resolve source file = .ok e) : e.Describes c := by
  have hmembers : e.members = c.members := DeclaredClass.members_of_resolve h
  have hd' : e.HasDistinctNames := by rwa [Entity.HasDistinctNames, hmembers]
  obtain ⟨htable, hmodel, htiers, hentity⟩ := DeclaredClass.block_of_resolve h
  exact {
    members := hmembers
    tagged_keys := hmembers ▸ e.primaryKeys_of_tagged
    default_key := hmembers ▸ e.primaryKeys_of_untagged
    keys_ne_nil := e.primaryKeys_ne_nil
    lists := hmembers ▸ lists_of_members hd'
    json_timestamps := disjoint_jsonFields_timestamps hd'
    json_enums := DeclaredClass.disjoint_jsonFields_enums hd h
    enums_nodup := by
      rw [DeclaredClass.map_field_enums hd h]
      exact DeclaredClass.nodup_registered hd _
    enums_members := by
      rw [DeclaredClass.map_field_enums hd h]
      exact List.map_subset _ fun m hm => ((DeclaredClass.mem_registered_iff hd).1 hm).1
    enums_pairs := DeclaredClass.pairs_ne_nil_of_resolve hd h
    filters := by rw [Entity.filters, hmembers]
    sorts := by rw [Entity.sorts, hmembers]
    filters_field := fun m hm => (DeclaredClass.areOn_of_mem_members hc hm).1
    sorts_field := fun m hm => (DeclaredClass.areOn_of_mem_members hc hm).2
    last_table := fun name hlast => htable.trans (DeclaredClass.getD_of_isLast hlast)
    last_model := fun name => hmodel ▸ getLast?_filterMap_eq_some_iff.symm
    last_limits := fun sizes hlast => htiers.trans (DeclaredClass.getD_of_isLast hlast)
    last_entity := fun name hlast => hentity.trans (DeclaredClass.getD_of_isLast hlast)
    derived_table := fun hnone => htable.trans (DeclaredClass.getD_of_forall hnone)
    derived_notice := DeclaredClass.derivedTable_mem_notices_iff
    default_limits := fun hnone => htiers.trans (DeclaredClass.getD_of_forall hnone)
    default_entity := fun hnone => hentity.trans (DeclaredClass.getD_of_forall hnone) }

/-! ### Contradicting tags -/

/-- A header with memos, whose tags contradict each other. -/
def memoSource : String :=
  "// @relais table=notes table=memos\nstruct Memo \x7b\n" ++
    "    Blob body; // @relais json_field timestamp enum=a:A\n\x7d;\n"

/-- Its class. -/
def memo : DeclaredClass where
  name := "Memo"
  scope := ""
  isStruct := true
  line := 2
  tags := [.table "notes", .table "memos"]
  members := [
    ⟨"body", "Blob", "", 3, { flags := [.jsonField, .timestamp], pairs := [⟨"a", "A"⟩] }⟩]

/-- The body of a memo is stored as JSON, and the last table counts. -/
theorem Entity.describes_of_resolve_memo : ∃ e, memo ∈ declaredClasses memoSource.toList ∧
    memo.HasDistinctNames ∧ memo.resolve memoSource.toList "Memo.h" = .ok e ∧
    e.primaryKeys = ["id"] ∧ e.table = "memos" ∧ e.jsonFields = ["body"] ∧
    "body" ∉ e.timestamps ∧ "body" ∉ e.enums.map EnumMapping.field := by
  have hsource : memoSource.toList = _ :=
    Text.toList_append_of_eq String.toList_ofList String.toList_ofList
  have hmem : memo ∈ declaredClasses memoSource.toList := by
    rw [hsource]
    decide +kernel
  have hd : memo.HasDistinctNames := by decide
  obtain ⟨e, h⟩ : ∃ e, memo.resolve memoSource.toList "Memo.h" = .ok e := by
    cases hresolve : memo.resolve memoSource.toList "Memo.h" with
    | ok e => exact ⟨e, rfl⟩
    | error err =>
      rw [hsource] at hresolve
      exact absurd ((DeclaredClass.exists_error_iff hd).1 ⟨err, hresolve⟩) (by decide +kernel)
  have hdescribes := Entity.describes_of_resolve hmem hd h
  have hjson : e.jsonFields = ["body"] := by
    rw [Entity.jsonFields, Entity.flagged, Entity.namesWhere, hdescribes.members]
    decide
  have hbody : "body" ∈ e.jsonFields := by simp [hjson]
  refine ⟨e, hmem, hd, h, hdescribes.default_key (by decide), ?_, hjson,
    fun htime => hdescribes.json_timestamps hbody htime,
    fun henum => hdescribes.json_enums hbody henum⟩
  exact hdescribes.last_table "memos" ⟨[.table "notes"], .table "memos", [], rfl, rfl, nofun⟩

end RowMapping
