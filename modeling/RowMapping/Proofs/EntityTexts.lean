import RowMapping.Proofs.OwnMetadata
import RowMapping.Proofs.UntaggedText
/-!
# The texts of an entity

What an entity holds comes from different places of the header.  Its own name, the names of its
members and that of its namespace are words, whatever stands elsewhere; the types are as the header
spells them.

* `IsScopeText`: the characters of a namespace;
* `isScopeText_of_mem_findings`: the namespace of an annotated class;
* `DeclaredClass.exists_member_of_mem_enumDrafts`: an enum mapping is for the type of a member;
* `Member.field_of_ofCode?`: lists are filtered and sorted by members;
* `Entity.isWorded_of_mem_entities`: all of this for an entity that is built;
* `Entity.IsCoded`, `Entity.isCoded_of_mem_entities`: the texts that are written as code are code,
  when the types of members and the enumerators are.
-/

namespace RowMapping

open Declaration Text

/-! ### Namespaces -/

/-- A text of names and scope signs. -/
def IsScopeText (cs : List Char) : Prop := ∀ c ∈ cs, isNamePart c = true ∨ c = ':'

theorem isScopeText_namespaceHead {name scope : String} {ts : List Token}
    (hts : ∀ t ∈ ts, t.kind = .word → ∀ c ∈ t.text.toList, isNamePart c)
    (hname : IsScopeText name.toList) (h : (namespaceHead name ts).1 = some scope) :
    IsScopeText scope.toList := by
  fun_induction namespaceHead name ts with
  | case1 => cases h
  | case2 => cases h; exact hname
  | case3 name t ts _ hpart ih =>
    refine ih (fun u hu => hts u (List.mem_cons_of_mem t hu)) (fun c hc => ?_) h
    rw [String.toList_append, List.mem_append] at hc
    rcases hc with hc | hc
    · exact hname c hc
    rcases Bool.or_eq_true_iff.1 hpart with hword | hsign
    · exact .inl (hts t List.mem_cons_self (beq_iff_eq.1 hword) c hc)
    · rw [Token.reads, Bool.and_eq_true, beq_iff_eq] at hsign
      rw [hsign.2] at hc
      right
      simpa using hc
  | case4 name t ts _ _ _ ih => exact ih (fun u hu => hts u (List.mem_cons_of_mem t hu)) hname h
  | case5 => cases h

/-- Scopes with such names only. -/
def AreScopeTexts (scopes : List Scope) : Prop :=
  ∀ s ∈ scopes, ∀ name ∈ s.name?, IsScopeText name.toList

theorem AreScopeTexts.path {scopes : List Scope} (h : AreScopeTexts scopes) :
    IsScopeText (Scope.path scopes).toList := by
  have hnames : ∀ name ∈ scopes.reverse.filterMap Scope.name?, IsScopeText name.toList := by
    intro name hname
    obtain ⟨s, hs, hsome⟩ := List.mem_filterMap.1 hname
    exact h s (List.mem_reverse.1 hs) name hsome
  rw [Scope.path, String.toList_intercalate]
  generalize scopes.reverse.filterMap Scope.name? = names at hnames
  induction names with
  | nil => simp [IsScopeText]
  | cons name names ih =>
    rw [List.forall_mem_cons] at hnames
    cases names with
    | nil => simpa using hnames.1
    | cons next names =>
      rw [List.map_cons, List.map_cons, List.intercalate_cons_cons]
      intro c hc
      rcases List.mem_append.1 hc with hc | hc
      · rcases List.mem_append.1 hc with hc | hc
        · exact hnames.1 c hc
        · right
          simpa using hc
      · exact ih hnames.2 c hc

/-- The namespace of an annotated class is made of names and scope signs. -/
theorem isScopeText_of_mem_findings {before : Option Token} {scopes : List Scope}
    {waiting : Option (List TagLine)} {ts : List Token} {site : ClassSite}
    (hts : ∀ t ∈ ts, t.kind = .word → ∀ c ∈ t.text.toList, isNamePart c)
    (hscopes : AreScopeTexts scopes) (h : .defined site ∈ findings before scopes waiting ts) :
    IsScopeText site.scope.toList := by
  have hblock : ∀ {scopes : List Scope}, AreScopeTexts scopes → AreScopeTexts (.block :: scopes) :=
    fun hscopes => List.forall_mem_cons.2 ⟨fun _ hname => (by cases hname), hscopes⟩
  fun_induction findings before scopes waiting ts with
  | case1 _ _ waiting => exact absurd h (not_mem_finishing waiting site)
  | case2 _ _ _ t ts _ _ ih => exact ih (fun u hu => hts u (List.mem_cons_of_mem t hu)) hscopes h
  | case3 _ _ t ts _ _ _ _ ih =>
    have h := (List.mem_cons.1 h).resolve_left (fun heq => by cases heq)
    exact ih (fun u hu => hts u (List.mem_cons_of_mem t hu)) hscopes h
  | case4 _ _ t ts _ _ _ ih =>
    have h := (List.mem_cons.1 h).resolve_left (fun heq => by cases heq)
    exact ih (fun u hu => hts u (List.mem_cons_of_mem t (tagRun_subset ts hu))) hscopes h
  | case5 _ _ _ t ts _ _ ih =>
    have hts' := fun u hu => hts u (List.mem_cons_of_mem t hu)
    refine ih (fun u hu => hts' u (namespaceHead_subset "" ts hu)) (fun s hs => ?_) h
    rcases List.mem_append.1 hs with hs | hs
    · obtain ⟨name, hname, rfl⟩ := Option.map_eq_some_iff.1 (Option.mem_toList.1 hs)
      intro scope hscope
      rw [Scope.name?] at hscope
      split at hscope
      · cases hscope
      · cases hscope
        exact isScopeText_namespaceHead hts' (by simp [IsScopeText]) hname
    · exact hscopes s hs
  | case8 before scopes t ts _ _ _ _ _ block name body hhead ih =>
    rcases List.mem_cons.1 h with heq | h
    · cases heq
      exact hscopes.path
    · exact ih (fun u hu => hts u (List.mem_cons_of_mem t (classHead?_subset hhead hu))) hscopes h
  | case6 _ _ _ t ts _ _ _ ih =>
    exact ih (fun u hu => hts u (List.mem_cons_of_mem t hu)) (hblock hscopes) h
  | case7 _ _ _ t ts _ _ _ _ ih =>
    exact ih (fun u hu => hts u (List.mem_cons_of_mem t hu))
      (fun s hs => hscopes s (List.mem_of_mem_tail hs)) h
  | case9 _ _ _ t ts _ _ _ _ _ _ ih =>
    exact ih (fun u hu => hts u (List.mem_cons_of_mem t hu)) hscopes h
  | case10 _ _ _ t ts _ _ _ _ _ ih =>
    exact ih (fun u hu => hts u (List.mem_cons_of_mem t hu)) hscopes h

theorem DeclaredClass.isScopeText_of_mem {source : List Char} {c : DeclaredClass}
    (hc : c ∈ declaredClasses source) : IsScopeText c.scope.toList := by
  obtain ⟨site, hsite, rfl⟩ := List.mem_map.1 hc
  obtain ⟨finding, hfinding, hdefined⟩ := List.mem_filterMap.1 hsite
  cases finding with
  | defined site' =>
    cases hdefined
    exact isScopeText_of_mem_findings (fun t ht hword => isNamePart_of_ofText ht hword)
      (by simp [AreScopeTexts]) hfinding
  | _ => cases hdefined

/-! ### Enum mappings -/

namespace DeclaredClass

variable {c : DeclaredClass}

/-- The mapping is for the type of a member. -/
def IsMapped (c : DeclaredClass) (d : EnumMapping) : Prop := ∃ m ∈ c.members, d.type = m.valueType

theorem isMapped_of_mem_fill {field : String} {pairs : List EnumPair} {es : List EnumMapping}
    (hes : ∀ d ∈ es, c.IsMapped d) : ∀ d ∈ EnumMapping.fill field pairs es, c.IsMapped d := by
  induction es with
  | nil => exact List.forall_mem_nil _
  | cons d es ih =>
    obtain ⟨hd, hes⟩ := List.forall_mem_cons.1 hes
    rw [EnumMapping.fill]
    split
    · refine List.forall_mem_cons.2 ⟨?_, hes⟩
      split <;> exact hd
    · exact List.forall_mem_cons.2 ⟨hd, ih hes⟩

theorem isMapped_of_mem_foldl {given : List (String × List EnumPair)} {es : List EnumMapping}
    (hes : ∀ d ∈ es, c.IsMapped d) : ∀ d ∈ given.foldl c.addClassEnum es, c.IsMapped d := by
  induction given generalizing es with
  | nil => exact hes
  | cons g given ih =>
    rw [List.foldl_cons]
    refine ih ?_
    rw [addClassEnum]
    split
    · exact hes
    · next m hm =>
      split
      · exact hes
      · split
        · exact isMapped_of_mem_fill hes
        · intro d hd
          rcases List.mem_append.1 hd with hd | hd
          · exact hes d hd
          · rw [List.mem_singleton.1 hd]
            exact ⟨m, List.mem_of_find?_eq_some hm, rfl⟩

/-- A mapping that the tags ask for is for the type of a member. -/
theorem exists_member_of_mem_enumDrafts {d : EnumMapping} (hd : d ∈ c.enumDrafts) :
    ∃ m ∈ c.members, d.type = m.valueType := by
  refine isMapped_of_mem_foldl (fun e he => ?_) d hd
  obtain ⟨m, hm, hdraft⟩ := List.mem_filterMap.1 he
  rw [Member.enumDraft?] at hdraft
  split at hdraft
  · cases hdraft
    exact ⟨m, hm, rfl⟩
  · cases hdraft

end DeclaredClass

/-! ### Filters and sort keys -/

namespace MemberTags

theorem field_ofTag (field : String) (tag : List Char) : (Filter.ofTag field tag).field = field ∧
    (SortKey.ofTag field tag).field = field := by
  constructor
  · unfold Filter.ofTag
    split
    · rfl
    · split <;> rfl
    · rfl
  · unfold SortKey.ofTag
    split
    · rfl
    · split <;> rfl
    · rfl

/-- Filters and sort keys behind a member are on this member. -/
theorem field_of_mem_foldl {field : String} {ws : List Word} {tags : MemberTags}
    (hfilters : ∀ f ∈ tags.filters, f.field = field) (hsorts : ∀ k ∈ tags.sorts, k.field = field) :
    (∀ f ∈ (ws.foldl (add field) tags).filters, f.field = field) ∧
      ∀ k ∈ (ws.foldl (add field) tags).sorts, k.field = field := by
  induction ws generalizing tags with
  | nil => exact ⟨hfilters, hsorts⟩
  | cons w ws ih =>
    rw [List.foldl_cons]
    cases w with
    | pairs text => exact ih hfilters hsorts
    | column name => exact ih hfilters hsorts
    | filter tag =>
      refine ih (fun f hf => ?_) hsorts
      rcases List.mem_append.1 hf with hf | hf
      · exact hfilters f hf
      · rw [List.mem_singleton.1 hf]
        exact (field_ofTag field tag).1
    | sort tag =>
      refine ih hfilters fun k hk => ?_
      rcases List.mem_append.1 hk with hk | hk
      · exact hsorts k hk
      · rw [List.mem_singleton.1 hk]
        exact (field_ofTag field tag).2
    | flag flag =>
      rw [add]
      split <;> exact ih hfilters hsorts

end MemberTags

theorem Member.field_of_ofCode? {source : List Char} {code : List Token}
    {trailing : Option Token} {m : Member} (h : Member.ofCode? source code trailing = some m) :
    (∀ f ∈ m.tags.filters, f.field = m.name) ∧ ∀ k ∈ m.tags.sorts, k.field = m.name := by
  unfold Member.ofCode? at h
  simp only [Option.bind_eq_bind, Option.bind_eq_some_iff] at h
  obtain ⟨_, _, _, _, _, _, ⟨declarator, initial⟩, _, name, _, _, _, _, _, h⟩ := h
  cases h
  cases Declaration.tagText? trailing with
  | none => exact ⟨nofun, nofun⟩
  | some text => exact MemberTags.field_of_mem_foldl nofun nofun

/-! ### Entities -/

namespace Entity

variable {source : List Char} {file : String} {e : Entity}

/-- The texts of an entity that is built from a header. -/
structure IsWorded (e : Entity) : Prop where
  className : ∀ c ∈ e.className.toList, isNamePart c
  scope : IsScopeText e.scope.toList
  names : ∀ m ∈ e.members, ∀ c ∈ m.name.toList, isNamePart c
  types : ∀ m ∈ e.enums, ∃ n ∈ e.members, m.type = n.valueType
  filters : ∀ f ∈ e.filters, ∃ m ∈ e.members, f.field = m.name
  sorts : ∀ k ∈ e.sorts, ∃ m ∈ e.members, k.field = m.name

/-- The filters and sort keys that are read behind a member are on this member. -/
theorem field_of_mem_entities (he : .ok e ∈ entities source file) {m : Member}
    (hm : m ∈ e.members) :
    (∀ f ∈ m.tags.filters, f.field = m.name) ∧ ∀ k ∈ m.tags.sorts, k.field = m.name := by
  obtain ⟨c, hc, hresolve⟩ := List.mem_map.1 he
  rw [DeclaredClass.members_of_resolve hresolve] at hm
  obtain ⟨site, -, rfl⟩ := List.mem_map.1 hc
  obtain ⟨s, -, hmember⟩ := List.mem_filterMap.1 hm
  exact Member.field_of_ofCode? hmember

/-- **Names are words**, and every other text of code is a name or a type of a member. -/
theorem isWorded_of_mem_entities (he : .ok e ∈ entities source file) : e.IsWorded := by
  obtain ⟨c, hc, hresolve⟩ := List.mem_map.1 he
  have hmembers := DeclaredClass.members_of_resolve hresolve
  refine ⟨?_, ?_, fun m hm => isNamePart_of_name he hm, fun m hm => ?_, fun f hf => ?_,
    fun k hk => ?_⟩
  · rw [DeclaredClass.eq_of_resolve hresolve]
    exact isNamePart_of_className hc
  · rw [DeclaredClass.eq_of_resolve hresolve]
    exact DeclaredClass.isScopeText_of_mem hc
  · obtain ⟨d, hd, hdraft⟩ := DeclaredClass.exists_draft_of_mem_enums hresolve hm
    have htype : m.type = d.type := by rw [(EnumMapping.resolve_eq_ok_iff.1 hdraft).1]
    rw [htype, hmembers]
    exact DeclaredClass.exists_member_of_mem_enumDrafts hd
  · obtain ⟨m, hm, hf⟩ := List.mem_flatMap.1 hf
    exact ⟨m, hm, (field_of_mem_entities he hm).1 f hf⟩
  · obtain ⟨m, hm, hk⟩ := List.mem_flatMap.1 hk
    exact ⟨m, hm, (field_of_mem_entities he hm).2 k hk⟩

end Entity

/-! ### The texts of an entity as code -/

/-- A character of a type that is spelled with names, scope signs, template arguments, pointers and
references. -/
def isTypeChar (c : Char) : Bool :=
  isNamePart c || isBlank c || c == ':' || c == '<' || c == '>' || c == ',' || c == '*' || c == '&'

theorem isCode_of_isTypeChar {s : String} (h : ∀ c ∈ s.toList, isTypeChar c) : IsCode s := by
  refine List.all_eq_true.2 fun c hc => ?_
  have hc := h c hc
  rw [isCodeChar, Bool.not_eq_true', Bool.eq_false_iff]
  intro hmark
  simp only [Bool.or_eq_true, beq_iff_eq] at hmark
  rcases hmark with ((rfl | rfl) | rfl) | rfl <;> exact absurd hc (by decide)

/-- The value of a member is of a type that is spelled as part of the member's type. -/
theorem Member.toList_valueType_subset (m : Member) : m.valueType.toList ⊆ m.type.toList := by
  have htrim : ∀ cs : List Char, trim cs ⊆ cs := fun cs c hc => by
    rw [trim, List.mem_reverse] at hc
    have hc := (List.dropWhile_sublist _).subset hc
    exact (List.dropWhile_sublist _).subset (List.mem_reverse.1 hc)
  unfold valueType
  split
  · next inner hinner =>
    rw [String.toList_ofList]
    unfold optionalInner? at hinner
    split at hinner
    · cases hinner
    · next rest hrest =>
      split at hinner
      · cases hinner
        intro c hc
        rw [isPrefixOf?_eq_some_iff.1 hrest]
        exact List.mem_append_right _ ((List.dropLast_sublist _).subset (htrim _ hc))
      · cases hinner
  · exact List.Subset.refl _

namespace Entity

/-- The texts of an entity that are written as code are code. -/
structure IsCoded (e : Entity) : Prop where
  className : ∀ c ∈ e.className.toList, isNamePart c
  scope : IsCode e.scope
  names : ∀ m ∈ e.members, ∀ c ∈ m.name.toList, isNamePart c
  types : ∀ m ∈ e.members, IsCode m.type
  enums : ∀ m ∈ e.enums, IsCode m.type ∧ ∀ p ∈ m.pairs, IsCode p.enumerator
  filters : ∀ f ∈ e.filters, IsCode f.field
  sorts : ∀ k ∈ e.sorts, IsCode k.field

namespace IsCoded

variable {e : Entity} (h : e.IsCoded)

include h

theorem isCode_className : IsCode e.className := isCode_of_isNamePart h.className

theorem isCode_name {m : Member} (hm : m ∈ e.members) : IsCode m.name :=
  isCode_of_isNamePart (h.names m hm)

theorem isCode_valueType {m : Member} (hm : m ∈ e.members) : IsCode m.valueType :=
  List.all_eq_true.2 fun _ hc => List.all_eq_true.1 (h.types m hm) _ (m.toList_valueType_subset hc)

theorem isCode_qualify {name : String} (hname : IsCode name) :
    IsCode (Name.qualify e.scope name) := by
  unfold Name.qualify
  split
  · exact hname
  · simp +decide [h.scope, hname]

theorem isCode_structName : IsCode e.structName := h.isCode_qualify h.isCode_className

theorem isCode_mappingName : IsCode e.mappingName := by
  simp +decide [mappingName, h.isCode_className]

theorem isCode_wrapperName : IsCode e.wrapperName := by
  simp +decide [wrapperName, h.isCode_className]

theorem names_namesWhere {p : Member → Bool} {name : String} (hname : name ∈ e.namesWhere p) :
    ∀ c ∈ name.toList, isNamePart c := by
  obtain ⟨m, hm, rfl⟩ := List.mem_map.1 hname
  exact h.names m (List.mem_of_mem_filter hm)

theorem isCode_of_mem_primaryKeys {name : String} (hname : name ∈ e.primaryKeys) : IsCode name := by
  unfold primaryKeys at hname
  split at hname
  · rw [List.mem_singleton.1 hname]
    decide
  · exact isCode_of_isNamePart (h.names_namesWhere hname)

theorem isCode_of_mem_hintMembers {name : String} (hname : name ∈ e.hintMembers) : IsCode name := by
  rcases List.mem_append.1 hname with hname | hname
  · exact h.isCode_of_mem_primaryKeys hname
  · exact isCode_of_isNamePart (h.names_namesWhere hname)

omit h in
theorem mem_members_of_orderedMembers {m : Member} (hm : m ∈ e.orderedMembers) : m ∈ e.members := by
  obtain ⟨c, -, hc⟩ := List.mem_filterMap.1 hm
  exact List.mem_of_find?_eq_some hc

theorem isCode_field {c : Column} (hc : c ∈ e.columns) : IsCode c.field := by
  obtain ⟨i, hi, rfl⟩ := List.mem_mapIdx.1 hc
  exact h.isCode_name (List.getElem_mem hi)

theorem carrier {m : Member} {type : String} {pairs : List EnumPair}
    (hm : e.carrier m = .enumeration type pairs) :
    IsCode type ∧ ∀ p ∈ pairs, IsCode p.enumerator := by
  unfold Entity.carrier at hm
  split at hm
  · cases hm
  split at hm
  · cases hm
  split at hm
  · next mapping hmapping =>
    cases hm
    obtain ⟨htype, hpairs⟩ := h.enums mapping (List.mem_of_find?_eq_some hmapping)
    exact ⟨h.isCode_qualify htype, hpairs⟩
  · cases hm

theorem traits {f : Mapping.FieldTraits} (hf : f ∈ e.fieldTraits) :
    IsCode f.member ∧ IsCode f.valueType := by
  unfold fieldTraits at hf
  split at hf
  · cases hf
  obtain ⟨m, hm, rfl⟩ := List.mem_map.1 hf
  have hm := mem_members_of_orderedMembers (List.mem_of_mem_filter hm)
  refine ⟨h.isCode_name hm, ?_⟩
  change IsCode (e.changedType m)
  unfold changedType
  split
  · decide
  · exact h.isCode_valueType hm

end IsCoded

/-- **The code of an entity is code**, when the types and the enumerators of the header are. -/
theorem isCoded_of_mem_entities {source : List Char} {file : String} {e : Entity}
    (he : .ok e ∈ entities source file) (htypes : ∀ m ∈ e.members, IsCode m.type)
    (henumerators : ∀ m ∈ e.enums, ∀ p ∈ m.pairs, IsCode p.enumerator) : e.IsCoded := by
  have hworded := isWorded_of_mem_entities he
  have hname : ∀ {field : String}, (∃ m ∈ e.members, field = m.name) → IsCode field := by
    rintro _ ⟨m, hm, rfl⟩
    exact isCode_of_isNamePart (hworded.names m hm)
  have hscope : IsCode e.scope := isCode_of_isTypeChar fun c hc => by
    rcases hworded.scope c hc with hpart | rfl
    · simp [isTypeChar, hpart]
    · decide
  refine ⟨hworded.className, hscope, hworded.names, htypes, fun m hm => ⟨?_, henumerators m hm⟩,
    fun f hf => hname (hworded.filters f hf), fun k hk => hname (hworded.sorts k hk)⟩
  obtain ⟨n, hn, htype⟩ := hworded.types m hm
  rw [htype]
  exact List.all_eq_true.2 fun c hc =>
    List.all_eq_true.1 (htypes n hn) c (n.toList_valueType_subset hc)

end Entity

end RowMapping
