import RowMapping.Proofs.InertHeader
/-!
# Names of tables and columns

Names of tables and columns come from words of tags, which hold no blanks, or they are made of names
of the program.  So none of them holds a blank.

* `Name.isNamePart_tableName`: the table that is derived from the name of a class;
* `MemberTags.isUnbroken_column`, `ClassTag.isUnbroken_table`: names in words of tags;
* `Entity.isUnbroken_column`, `Entity.isUnbroken_table`: the names of an entity.
-/

namespace RowMapping

open Text

/-! ### Derived names -/

namespace Text

variable {c d : Char} {cs before : List Char}

/-- The characters of a name are those of ASCII. -/
theorem lt_of_isNamePart (h : isNamePart c = true) : c.toNat < 128 := by
  simp only [isNamePart, isNameStart, isAsciiLetter, isAsciiDigit, Bool.or_eq_true,
    Bool.and_eq_true, decide_eq_true_eq, beq_iff_eq] at h
  rcases h with (h | rfl) | h
  · omega
  · decide
  · omega

theorem isNamePart_lowerForm (hc : isNamePart c = true) (hd : d ∈ lowerForm c) :
    isNamePart d = true := by
  have hlower : ∀ n < 91, 65 ≤ n → isNamePart (Char.ofNat (n + 32)) = true := by decide
  unfold lowerForm at hd
  rw [if_pos (lt_of_isNamePart hc)] at hd
  split at hd
  · next hupper =>
    rw [isAsciiUpper, Bool.and_eq_true, decide_eq_true_iff, decide_eq_true_iff] at hupper
    rw [List.mem_singleton.1 hd]
    exact hlower c.toNat (by omega) hupper.1
  · rw [List.mem_singleton.1 hd]
    exact hc

theorem isNamePart_lowerCaseFrom (hcs : ∀ c ∈ cs, isNamePart c = true)
    (hd : d ∈ lowerCaseFrom before cs) : isNamePart d = true := by
  induction cs generalizing before with
  | nil => cases hd
  | cons c cs ih =>
    obtain ⟨hc, hcs⟩ := List.forall_mem_cons.1 hcs
    rw [lowerCaseFrom] at hd
    rcases List.mem_append.1 hd with hd | hd
    · have hsigma : c ≠ 'Σ' := by
        rintro rfl
        cases hc
      rw [if_neg hsigma] at hd
      exact isNamePart_lowerForm hc hd
    · exact ih hcs hd

end Text

namespace Name

/-- The characters of the words stand in the clusters. -/
theorem exists_mem_of_mem_splitWords {boundaries : List Boundary} {gs : List (List Char)}
    {w : List Char} {d : Char} (hw : w ∈ splitWords boundaries gs) (hd : d ∈ w) :
    ∃ g ∈ gs, d ∈ g := by
  induction gs generalizing w with
  | nil =>
    rw [splitWords, List.mem_singleton] at hw
    rw [hw] at hd
    cases hd
  | cons g rest ih =>
    have hlater : w ∈ splitWords boundaries rest → ∃ g' ∈ g :: rest, d ∈ g' := by
      intro hw
      obtain ⟨g', hg', hd⟩ := ih hw hd
      exact ⟨g', List.mem_cons_of_mem g hg', hd⟩
    rw [splitWords] at hw
    split at hw
    · rcases List.mem_cons.1 hw with rfl | hw
      · split at hd
        · cases hd
        · exact ⟨g, List.mem_cons_self, hd⟩
      · exact hlater hw
    · split at hw
      · rw [List.mem_singleton.1 hw] at hd
        exact ⟨g, List.mem_cons_self, hd⟩
      · next first ws hwords =>
        rw [hwords] at hlater ih
        rcases List.mem_cons.1 hw with rfl | hw
        · rcases List.mem_append.1 hd with hd | hd
          · exact ⟨g, List.mem_cons_self, hd⟩
          · obtain ⟨g', hg', hd⟩ := ih List.mem_cons_self hd
            exact ⟨g', List.mem_cons_of_mem g hg', hd⟩
        · exact hlater (List.mem_cons_of_mem first hw)

/-- A table that is derived from the name of a class is named by a word. -/
theorem isNamePart_tableName {name : String} (hname : ∀ c ∈ name.toList, isNamePart c = true) :
    ∀ c ∈ (tableName name).toList, isNamePart c = true := by
  intro c hc
  rw [tableName, String.toList_intercalate, List.map_map] at hc
  rcases mem_of_mem_intercalate hc with rfl | hc
  · rfl
  obtain ⟨_, hw, hc⟩ := List.mem_flatten.1 hc
  obtain ⟨w, hword, rfl⟩ := List.mem_map.1 hw
  rw [Function.comp_apply, String.toList_ofList] at hc
  refine isNamePart_lowerCaseFrom (fun d hd => ?_) hc
  obtain ⟨g, hg, hd⟩ := exists_mem_of_mem_splitWords hword hd
  refine hname d ?_
  rw [← flatten_clusters name.toList]
  exact List.mem_flatten_of_mem hg hd

end Name

/-! ### Names in words of tags -/

theorem MemberTags.column_of_ofText {w : List Char} {name : String}
    (h : Word.ofText w = .column name) : ∃ text, ClassTag.value? "column" w = some text ∧
      name = String.ofList text := by
  unfold Word.ofText at h
  simp only at h
  split at h
  · cases h
  · split at h
    · next text hvalue =>
      cases h
      exact ⟨text, hvalue, rfl⟩
    · split at h
      · cases h
      · split at h <;> cases h

/-- The name of a column that is given behind a member holds no blank. -/
theorem MemberTags.isUnbroken_column {field : String} {ws : List (List Char)}
    (hws : ∀ w ∈ ws, IsUnbrokenText w) {tags : MemberTags}
    (htags : ∀ name ∈ tags.column, IsUnbrokenText name.toList) :
    ∀ name ∈ ((ws.map Word.ofText).foldl (add field) tags).column, IsUnbrokenText name.toList := by
  induction ws generalizing tags with
  | nil => exact htags
  | cons w ws ih =>
    obtain ⟨hw, hws⟩ := List.forall_mem_cons.1 hws
    rw [List.map_cons, List.foldl_cons]
    refine ih hws ?_
    cases hword : Word.ofText w with
    | column name =>
      obtain ⟨text, htext, rfl⟩ := column_of_ofText hword
      rintro _ ⟨⟩
      rw [String.toList_ofList]
      exact hw.value? htext
    | flag flag =>
      rw [add]
      split <;> exact htags
    | pairs text => exact htags
    | filter tag => exact htags
    | sort tag => exact htags

theorem Member.isUnbroken_column_of_ofCode? {source : List Char} {code : List Token}
    {trailing : Option Token} {m : Member} (h : Member.ofCode? source code trailing = some m) :
    ∀ name ∈ m.tags.column, IsUnbrokenText name.toList := by
  unfold Member.ofCode? at h
  simp only [Option.bind_eq_bind, Option.bind_eq_some_iff] at h
  obtain ⟨_, _, _, _, _, _, ⟨declarator, initial⟩, _, name, _, _, _, _, _, h⟩ := h
  cases h
  cases Declaration.tagText? trailing with
  | none => exact nofun
  | some text =>
    exact MemberTags.isUnbroken_column (fun w hw => isUnbrokenText_of_mem_words hw) nofun

/-- The name of a table that is given in a block holds no blank. -/
theorem ClassTag.isUnbroken_table {isList : Bool} {line : List Char} {name : String}
    (h : .table name ∈ ofLine isList line) : IsUnbrokenText name.toList := by
  obtain ⟨w, hw, hword⟩ := List.mem_map.1 h
  have hbroken := isUnbrokenText_of_mem_words hw
  cases isList with
  | true =>
    rw [if_pos rfl] at hword
    unfold ofListWord at hword
    split at hword
    · cases hword
    · split at hword <;> cases hword
  | false =>
    rw [if_neg Bool.false_ne_true] at hword
    unfold ofWord at hword
    split at hword
    · next text htext =>
      cases hword
      rw [String.toList_ofList]
      exact hbroken.value? htext
    · split at hword
      · cases hword
      · split at hword
        · cases hword
        · split at hword <;> cases hword

/-! ### The names of an entity -/

theorem isUnbrokenText_of_isNamePart {cs : List Char} (h : ∀ c ∈ cs, isNamePart c = true) :
    IsUnbrokenText cs :=
  fun c hc => Mapping.not_isBlank_of_isNamePart (h c hc)

namespace Entity

variable {e : Entity} {source : List Char} {file : String}

theorem isUnbroken_column (he : .ok e ∈ entities source file) {m : Member} (hm : m ∈ e.members) :
    IsUnbrokenText m.column.toList := by
  have hname := isUnbrokenText_of_isNamePart ((isWorded_of_mem_entities he).names m hm)
  have htag : ∀ name ∈ m.tags.column, IsUnbrokenText name.toList := by
    obtain ⟨c, hc, hresolve⟩ := List.mem_map.1 he
    rw [DeclaredClass.members_of_resolve hresolve] at hm
    obtain ⟨site, -, rfl⟩ := List.mem_map.1 hc
    obtain ⟨s, -, hmember⟩ := List.mem_filterMap.1 hm
    exact Member.isUnbroken_column_of_ofCode? hmember
  unfold Member.column
  cases hcolumn : m.tags.column with
  | none => exact hname
  | some name => exact htag name hcolumn

theorem isUnbroken_table (he : .ok e ∈ entities source file) : IsUnbrokenText e.table.toList := by
  have hclass := isUnbrokenText_of_isNamePart
    (Name.isNamePart_tableName (isWorded_of_mem_entities he).className)
  obtain ⟨c, hc, hresolve⟩ := List.mem_map.1 he
  rw [DeclaredClass.eq_of_resolve hresolve] at hclass ⊢
  dsimp only at hclass ⊢
  rw [DeclaredClass.table]
  cases htable : c.table? with
  | none => exact hclass
  | some name =>
    obtain ⟨tag, htag, hname⟩ := List.mem_filterMap.1 (List.mem_of_getLast? htable)
    obtain ⟨site, -, rfl⟩ := List.mem_map.1 hc
    obtain ⟨line, -, htag⟩ := List.mem_flatMap.1 htag
    cases tag with
    | table name' =>
      cases hname
      exact ClassTag.isUnbroken_table htag
    | _ => cases hname

end Entity

end RowMapping
