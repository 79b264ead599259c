import RowMapping.Proofs.Lines
import RowMapping.Proofs.OwnMetadata
/-!
# The types that generated headers specialize

A generated header specializes `glz::meta` for its class and for the enums of its class.  Which
types these are is read from its lines: a line that starts a specialization names the type, and no
other line looks like one.  No enum comes twice in one header, but each class of the annotated
header writes the enums of its own members, whatever the others write.

* `metaOpening`, `specializedTypes`: the line that starts a specialization, and the types that lines
  specialize, in order;
* `IsIndented`: a line that stands inside the mapping;
* `specializedTypes_headerLines`: the types of one generated header;
* `Name.bare_qualify`: a qualified name has the last segment of the name;
* `exists_type_specialized_twice`: two classes that share an enum;
* `count_specializedTypes`: how often all headers together specialize a type.
-/

namespace RowMapping

open Text RowMapping.Specialization

namespace Mapping

/-! ### Reading specializations from lines -/

/-- The line that starts a specialization of `glz::meta`. -/
def metaOpening (type : String) : String := s!"struct glz::meta<{type}> \x7b"

/-- The type that a line starts a specialization for. -/
def specializedType? (line : String) : Option String :=
  (headStart.isPrefixOf? line.toList).bind fun rest =>
    (['\x7b', ' ', '>'].isPrefixOf? rest.reverse).map fun type => String.ofList type.reverse

/-- The types that lines specialize, in order. -/
def specializedTypes (lines : List String) : List String := lines.filterMap specializedType?

theorem toList_metaOpening (type : String) :
    (metaOpening type).toList = headStart ++ (type.toList ++ ['>', ' ', '\x7b']) := by
  have hend : "> \x7b".toList = ['>', ' ', '\x7b'] := rfl
  have htext : metaOpening type = "struct glz::meta<" ++ type ++ "> \x7b" := rfl
  rw [htext, String.toList_append, String.toList_append, hend, ← headStart_eq, List.append_assoc]

theorem specializedType?_eq_some_iff {line type : String} :
    specializedType? line = some type ↔ line = metaOpening type := by
  simp only [specializedType?, Option.bind_eq_some_iff, Option.map_eq_some_iff,
    isPrefixOf?_eq_some_iff]
  rw [← String.toList_inj, toList_metaOpening]
  constructor
  · rintro ⟨rest, hline, name, hrest, rfl⟩
    have hrest : rest = name.reverse ++ ['>', ' ', '\x7b'] := by
      rw [← List.reverse_reverse rest, hrest]
      simp
    rw [hline, hrest, String.toList_ofList]
  · intro hline
    exact ⟨_, hline, type.toList.reverse, by simp, by simp⟩

theorem specializedType?_metaOpening (type : String) :
    specializedType? (metaOpening type) = some type :=
  specializedType?_eq_some_iff.2 rfl

/-- How the line that starts a specialization begins, and no other line does. -/
def metaStart : List Char := ['s', 't', 'r', 'u', 'c', 't', ' ', 'g']

/-- A line that does not begin like a specialization starts none. -/
theorem specializedType?_of_beginsWith {start : List Char} {line : String}
    (h : BeginsWith (String.ofList start) line)
    (hstart : ¬(start <+: metaStart ∨ metaStart <+: start)) : specializedType? line = none := by
  rw [Option.eq_none_iff_forall_ne_some]
  intro type htype
  have hhead : metaStart <+: headStart := ⟨"lz::meta<".toList, rfl⟩
  rw [specializedType?_eq_some_iff] at htype
  rw [BeginsWith, htype, toList_metaOpening, String.toList_ofList] at h
  exact hstart (List.prefix_or_prefix_of_prefix h (hhead.trans (List.prefix_append _ _)))

theorem specializedType?_ofList {line : List Char}
    (h : ¬(line <+: metaStart ∨ metaStart <+: line)) :
    specializedType? (String.ofList line) = none :=
  specializedType?_of_beginsWith (beginsWith_ofList.2 List.prefix_rfl) h

theorem specializedType?_empty : specializedType? "" = none := by decide

/-! ### Lines inside the mapping -/

/-- A line that is empty or stands to the right of the margin. -/
def IsIndented (line : String) : Prop := line = "" ∨ BeginsWith " " line

instance : DecidablePred IsIndented := fun line =>
  inferInstanceAs (Decidable (line = "" ∨ BeginsWith " " line))

theorem IsIndented.specializedType? {line : String} (h : IsIndented line) :
    specializedType? line = none := by
  rcases h with rfl | h
  · exact specializedType?_empty
  · exact specializedType?_of_beginsWith h (by decide)

/-- How the lines inside a mapping begin, but for those that open the description of lists. -/
def insideStarts : List (List Char) :=
  [[' ', ' ', ' ', ' '], ['s', 't', 'a', 't', 'i', 'c'], ['t'],
    ['s', 't', 'r', 'u', 'c', 't', ' ', 'S'], ['s', 't', 'r', 'u', 'c', 't', ' ', 'T'], ['e'],
    ['\x7d'], [')']].map ([' ', ' ', ' ', ' '] ++ ·)

/-- The line begins in one of these ways. -/
def StartsInside (line : String) : Prop := ∃ start ∈ insideStarts, start <+: line.toList

theorem startsInside_ofList {line : List Char} :
    StartsInside (String.ofList line) ↔ ∃ start ∈ insideStarts, start <+: line := by
  rw [StartsInside, String.toList_ofList]

theorem StartsInside.append {line : String} (h : StartsInside line) (rest : String) :
    StartsInside (line ++ rest) := by
  obtain ⟨start, hstart, hline⟩ := h
  refine ⟨start, hstart, ?_⟩
  rw [String.toList_append]
  exact hline.trans (List.prefix_append _ _)

/-- A line that is empty or begins as one inside a mapping. -/
def IsInside (line : String) : Prop := line = "" ∨ StartsInside line

theorem isInside_ofList {line : List Char} (h : ∃ start ∈ insideStarts, start <+: line) :
    IsInside (String.ofList line) :=
  .inr (startsInside_ofList.2 h)

theorem IsInside.isIndented {line : String} (h : IsInside line) : IsIndented line := by
  rcases h with rfl | ⟨start, hstart, hline⟩
  · exact .inl rfl
  · have hspace : ∀ start ∈ insideStarts, [' '] <+: start := by decide
    have hblank : " ".toList = [' '] := rfl
    right
    rw [BeginsWith, hblank]
    exact (hspace start hstart).trans hline

theorem BeginsWith.isInside {start line : String} (h : BeginsWith start line)
    (hstart : StartsInside start) : IsInside line := by
  obtain ⟨first, hfirst, hbegins⟩ := hstart
  exact .inr ⟨first, hfirst, hbegins.trans h⟩

theorem isInside_commaLines (indent : String) (h : StartsInside indent) (items : List String) :
    ∀ line ∈ commaLines indent items, IsInside line := by
  intro line hline
  obtain ⟨item, -, rfl | rfl⟩ := mem_commaLines hline
  · exact .inr (h.append _)
  · exact .inr ((h.append _).append _)

variable {e : Entity} {names : SourceNames}

theorem isInside_keyConstants (e : Entity) : ∀ line ∈ keyConstants e, IsInside line := by
  intro line hline
  unfold keyConstants at hline
  rcases List.mem_cons.1 hline with rfl | hline
  · right
    repeat' with_reducible apply StartsInside.append
    exact startsInside_ofList.2 (by decide)
  split at hline
  · rw [List.mem_singleton] at hline
    subst hline
    right
    repeat' with_reducible apply StartsInside.append
    exact startsInside_ofList.2 (by decide)
  · cases hline

theorem isInside_columnEnum (e : Entity) : IsInside (columnEnum e) := by
  right
  unfold columnEnum
  repeat' with_reducible apply StartsInside.append
  exact startsInside_ofList.2 (by decide)

theorem isInside_sqlStruct (e : Entity) : ∀ line ∈ sqlStruct e, IsInside line := by
  intro line hline
  simp only [sqlStruct, List.cons_append, List.mem_cons, List.mem_append, List.mem_flatMap,
    List.not_mem_nil, or_false] at hline
  rcases hline with rfl | ⟨⟨name, text⟩, -, hline⟩ | rfl
  · exact isInside_ofList (by decide)
  · simp only [sqlConstant, List.mem_cons, List.not_mem_nil, or_false] at hline
    rcases hline with rfl | rfl <;>
    · right
      repeat' with_reducible apply StartsInside.append
      exact startsInside_ofList.2 (by decide)
  · exact isInside_ofList (by decide)

theorem isInside_traitsType (e : Entity) : ∀ line ∈ traitsType e, IsInside line := by
  intro line hline
  unfold traitsType at hline
  rcases List.mem_cons.1 hline with rfl | hline
  · exact isInside_ofList (by decide)
  rcases List.mem_append.1 hline with hline | hline
  · split at hline
    · cases hline
    rcases List.mem_cons.1 hline with rfl | hline
    · exact isInside_ofList (by decide)
    rcases List.mem_append.1 hline with hline | hline
    · exact isInside_commaLines _ (startsInside_ofList.2 (by decide)) _ line hline
    simp only [List.mem_cons, List.not_mem_nil, or_false] at hline
    rcases hline with rfl | rfl | rfl
    · exact isInside_ofList (by decide)
    · exact .inl rfl
    · exact isInside_ofList (by decide)
  · rw [List.mem_singleton] at hline
    subst hline
    exact isInside_ofList (by decide)

theorem isInside_keyFunction (e : Entity) : ∀ line ∈ keyFunction e, IsInside line := by
  intro line hline
  simp only [keyFunction, List.mem_cons, List.not_mem_nil, or_false] at hline
  rcases hline with rfl | rfl | rfl | rfl
  · exact isInside_ofList (by decide)
  · exact isInside_ofList (by decide)
  · right
    repeat' with_reducible apply StartsInside.append
    exact startsInside_ofList.2 (by decide)
  · exact isInside_ofList (by decide)

theorem isInside_partitionHint (e : Entity) : ∀ line ∈ partitionHint e, IsInside line := by
  intro line hline
  unfold partitionHint at hline
  split at hline
  · cases hline
  simp only [List.mem_append, List.mem_cons, List.not_mem_nil, or_false] at hline
  rcases hline with ((rfl | rfl | rfl) | hline) | rfl | rfl
  · exact isInside_ofList (by decide)
  · exact isInside_ofList (by decide)
  · exact isInside_ofList (by decide)
  · exact isInside_commaLines _ (startsInside_ofList.2 (by decide)) _ line hline
  · exact isInside_ofList (by decide)
  · exact isInside_ofList (by decide)

theorem isInside_readStep (step : ReadStep) : ∀ line ∈ step.lines, IsInside line := by
  have hchoice : ∀ m type ps, ∀ line ∈ ReadStep.choiceLines m type ps, IsInside line := by
    intro m type ps line hline
    cases ps with
    | nil => cases hline
    | cons p ps =>
      simp only [ReadStep.choiceLines, List.mem_cons, List.mem_map] at hline
      rcases hline with rfl | ⟨q, -, rfl⟩ <;>
      · right
        unfold ReadStep.choiceLine
        repeat' with_reducible apply StartsInside.append
        exact startsInside_ofList.2 (by decide)
  intro line hline
  cases step with
  | choice m type pairs | choiceOrNull m type pairs =>
    simp only [ReadStep.lines, List.cons_append, List.mem_cons, List.mem_append, List.not_mem_nil,
      or_false] at hline
    rcases hline with rfl | rfl | hline | rfl
    · right
      repeat' with_reducible apply StartsInside.append
      exact startsInside_ofList.2 (by decide)
    · right
      repeat' with_reducible apply StartsInside.append
      exact startsInside_ofList.2 (by decide)
    · exact hchoice _ _ _ line hline
    · exact isInside_ofList (by decide)
  | json m | jsonOrNull m | text m | value m type | valueOrNull m type =>
    simp only [ReadStep.lines, List.mem_cons, List.not_mem_nil, or_false] at hline
    rcases hline with rfl | rfl | rfl | rfl | rfl | rfl | rfl | rfl
    all_goals
      right
      repeat' with_reducible apply StartsInside.append
      exact startsInside_ofList.2 (by decide)

theorem isInside_fromRow (e : Entity) : ∀ line ∈ fromRow e, IsInside line := by
  intro line hline
  simp only [fromRow, List.mem_append, List.mem_cons, List.mem_flatMap, List.not_mem_nil,
    or_false] at hline
  rcases hline with ((rfl | rfl | rfl) | ⟨step, -, hline⟩) | rfl | rfl
  · exact isInside_ofList (by decide)
  · exact isInside_ofList (by decide)
  · exact isInside_ofList (by decide)
  · exact isInside_readStep step line hline
  · exact isInside_ofList (by decide)
  · exact isInside_ofList (by decide)

theorem isInside_paramsFunction (name : String) (body : ParamsBody) :
    ∀ line ∈ paramsFunction name body, IsInside line := by
  intro line hline
  simp only [paramsFunction, List.mem_append, List.mem_cons, List.not_mem_nil, or_false] at hline
  rcases hline with ((rfl | rfl) | hline) | rfl
  · exact isInside_ofList (by decide)
  · exact (beginsWith_signature name).isInside (startsInside_ofList.2 (by decide))
  · exact (beginsWith_body body line hline).isInside (startsInside_ofList.2 (by decide))
  · exact isInside_ofList (by decide)

theorem isInside_writeParams (e : Entity) : ∀ line ∈ writeParams e, IsInside line := by
  intro line hline
  unfold writeParams at hline
  split at hline
  · cases hline
  rcases List.mem_append.1 hline with hline | hline
  · exact isInside_paramsFunction _ _ line hline
  split at hline
  · cases hline
  rcases List.mem_cons.1 hline with rfl | hline
  · exact .inl rfl
  · exact isInside_paramsFunction _ _ line hline

theorem isInside_glazeValue (e : Entity) : ∀ line ∈ glazeValue e, IsInside line := by
  intro line hline
  simp only [glazeValue, List.mem_append, List.mem_cons, List.not_mem_nil, or_false] at hline
  rcases hline with ((rfl | rfl) | hline) | rfl
  · exact isInside_ofList (by decide)
  · exact isInside_ofList (by decide)
  · exact isInside_commaLines _ (startsInside_ofList.2 (by decide)) _ line hline
  · exact isInside_ofList (by decide)

theorem isInside_entryTuple (name : String) (entries : List String) :
    ∀ line ∈ entryTuple name entries, IsInside line := by
  intro line hline
  unfold entryTuple at hline
  split at hline
  · cases hline
  simp only [List.mem_append, List.mem_cons, List.not_mem_nil, or_false] at hline
  rcases hline with ((rfl | rfl) | hline) | rfl
  · exact .inl rfl
  · right
    repeat' with_reducible apply StartsInside.append
    exact startsInside_ofList.2 (by decide)
  · exact isInside_commaLines _ (startsInside_ofList.2 (by decide)) _ line hline
  · exact isInside_ofList (by decide)

theorem isIndented_listDescriptor (e : Entity) : ∀ line ∈ listDescriptor e, IsIndented line := by
  intro line hline
  unfold listDescriptor at hline
  split at hline
  · cases hline
  simp only [List.cons_append, List.mem_append, List.mem_cons, List.not_mem_nil, or_false]
    at hline
  rcases hline with rfl | (hline | hline) | rfl | rfl | rfl | rfl
  · exact .inr (beginsWith_ofList.2 (by decide))
  · exact (isInside_entryTuple _ _ line hline).isIndented
  · exact (isInside_entryTuple _ _ line hline).isIndented
  · exact .inl rfl
  · right
    repeat' with_reducible apply BeginsWith.append
    exact beginsWith_ofList.2 (by decide)
  · right
    repeat' with_reducible apply BeginsWith.append
    exact beginsWith_ofList.2 (by decide)
  · exact .inr (beginsWith_ofList.2 (by decide))

/-! ### The lines of a generated header -/

theorem specializedTypes_append (a b : List String) :
    specializedTypes (a ++ b) = specializedTypes a ++ specializedTypes b :=
  List.filterMap_append

theorem specializedTypes_of_isIndented {lines : List String}
    (h : ∀ line ∈ lines, IsIndented line) : specializedTypes lines = [] :=
  List.filterMap_eq_nil_iff.2 fun line hline => (h line hline).specializedType?

theorem specializedTypes_of_isInside {lines : List String}
    (h : ∀ line ∈ lines, IsInside line) : specializedTypes lines = [] :=
  specializedTypes_of_isIndented fun line hline => (h line hline).isIndented

theorem specializedTypes_setOff (lines : List String) :
    specializedTypes (setOff lines) = specializedTypes lines := by
  cases lines with
  | nil => rfl
  | cons line lines => exact List.filterMap_cons_none specializedType?_empty

/-- The name of a class holds no colon, so a line about its mapping starts no specialization. -/
theorem specializedType?_mappingName (hname : ∀ c ∈ e.className.toList, isNamePart c)
    (rest : String) : specializedType? ("struct " ++ e.mappingName ++ rest) = none := by
  rw [Option.eq_none_iff_forall_ne_some]
  intro type htype
  have hline := congrArg String.toList (specializedType?_eq_some_iff.1 htype)
  have hhead : headStart = "struct ".toList ++ ("glz:".toList ++ ":meta<".toList) := rfl
  rw [toList_metaOpening, hhead, String.toList_append, String.toList_append] at hline
  simp only [List.append_assoc, List.append_cancel_left_eq] at hline
  have hlength : "glz:".toList.length ≤ e.mappingName.toList.length := by
    simp [Entity.mappingName]
  have hglz : "glz:".toList <+: e.mappingName.toList :=
    List.prefix_of_prefix_length_le ⟨_, hline.symm⟩ (List.prefix_append _ _) hlength
  have hcolon : ':' ∈ e.mappingName.toList := hglz.subset (by decide)
  rw [Entity.mappingName, String.toList_append, List.mem_append] at hcolon
  rcases hcolon with hcolon | hcolon
  · exact absurd (hname _ hcolon) (by decide)
  · exact absurd hcolon (by decide)

theorem specializedTypes_mappingStruct (hname : ∀ c ∈ e.className.toList, isNamePart c) :
    specializedTypes (mappingStruct e) = [] := by
  have hopen : specializedType? s!"struct {e.mappingName} \x7b" = none :=
    specializedType?_mappingName hname " \x7b"
  have hflag : IsIndented s!"    static constexpr bool read_only = {e.readOnly};" := by
    right
    repeat' with_reducible apply BeginsWith.append
    exact beginsWith_ofList.2 (by decide)
  have htable : IsIndented s!"    static constexpr const char* table_name = {quote e.table};" := by
    right
    repeat' with_reducible apply BeginsWith.append
    exact beginsWith_ofList.2 (by decide)
  have hclose : specializedType? "\x7d;" = none := specializedType?_ofList (by decide)
  simp only [mappingStruct, specializedTypes_append, specializedTypes_setOff,
    specializedTypes_of_isInside (isInside_keyConstants e),
    specializedTypes_of_isInside (isInside_sqlStruct e),
    specializedTypes_of_isInside (isInside_traitsType e),
    specializedTypes_of_isInside (isInside_keyFunction e),
    specializedTypes_of_isInside (isInside_partitionHint e),
    specializedTypes_of_isInside (isInside_fromRow e),
    specializedTypes_of_isInside (isInside_writeParams e),
    specializedTypes_of_isInside (isInside_glazeValue e),
    specializedTypes_of_isIndented (isIndented_listDescriptor e)]
  simp only [specializedTypes, List.filterMap_cons, hopen, hflag.specializedType?,
    htable.specializedType?, specializedType?_empty, (isInside_columnEnum e).isIndented.specializedType?, hclose,
    List.filterMap_nil, List.append_nil]

theorem specializedTypes_fieldInfo (hname : ∀ c ∈ e.className.toList, isNamePart c) :
    specializedTypes (fieldInfo e e.mappingName) = [] := by
  rw [specializedTypes, List.filterMap_eq_nil_iff]
  intro line hline
  obtain ⟨f, -, hline⟩ := List.mem_flatMap.1 hline
  simp only [FieldTraits.lines, List.mem_cons, List.not_mem_nil, or_false] at hline
  rcases hline with rfl | rfl | rfl | rfl | rfl | rfl | rfl | rfl
  · exact specializedType?_ofList (by decide)
  · simp only [toString, String.append_assoc]
    exact specializedType?_mappingName hname _
  · refine IsIndented.specializedType? (.inr ?_)
    repeat' with_reducible apply BeginsWith.append
    exact beginsWith_ofList.2 (by decide)
  · refine IsIndented.specializedType? (.inr ?_)
    repeat' with_reducible apply BeginsWith.append
    exact beginsWith_ofList.2 (by decide)
  · refine IsIndented.specializedType? (.inr ?_)
    repeat' with_reducible apply BeginsWith.append
    exact beginsWith_ofList.2 (by decide)
  · refine IsIndented.specializedType? (.inr ?_)
    repeat' with_reducible apply BeginsWith.append
    exact beginsWith_ofList.2 (by decide)
  · exact specializedType?_ofList (by decide)
  · exact specializedType?_empty

theorem specializedTypes_wrapperAliases (e : Entity) :
    specializedTypes (wrapperAliases e) = [] := by
  have hlist : ∀ line ∈ linesIf e.hasList ["",
      s!"using {e.className}ListWrapper = jcailloux::relais::wrapper::ListWrapper<{e.wrapperName}>;"],
      specializedType? line = none := by
    intro line hline
    unfold linesIf at hline
    split at hline
    · simp only [List.mem_cons, List.not_mem_nil, or_false] at hline
      rcases hline with rfl | rfl
      · exact specializedType?_empty
      · refine specializedType?_of_beginsWith (show BeginsWith "using " _ from ?_) (by decide)
        repeat' with_reducible apply BeginsWith.append
        exact beginsWith_ofList.2 (by decide)
    · cases hline
  rw [specializedTypes, List.filterMap_eq_nil_iff]
  intro line hline
  rcases List.mem_append.1 hline with hline | hline
  · simp only [List.mem_cons, List.not_mem_nil, or_false] at hline
    rcases hline with rfl | rfl | rfl | rfl | rfl | rfl
    · exact specializedType?_ofList (by decide)
    · refine specializedType?_of_beginsWith (show BeginsWith "// " _ from ?_) (by decide)
      repeat' with_reducible apply BeginsWith.append
      exact beginsWith_ofList.2 (by decide)
    · exact specializedType?_ofList (by decide)
    · exact specializedType?_empty
    · refine specializedType?_of_beginsWith (show BeginsWith "using " _ from ?_) (by decide)
      repeat' with_reducible apply BeginsWith.append
      exact beginsWith_ofList.2 (by decide)
    · refine IsIndented.specializedType? (.inr ?_)
      repeat' with_reducible apply BeginsWith.append
      exact beginsWith_ofList.2 (by decide)
  · exact hlist line hline

theorem beginsWith_includeLines (e : Entity) (names : SourceNames) :
    ∀ line ∈ includeLines e names, BeginsWith "#include " line := by
  intro line hline
  simp only [includeLines, linesIf, List.mem_append, List.mem_ite_nil_right, List.mem_cons,
    List.not_mem_nil, or_false] at hline
  rcases hline with (((((rfl | rfl | rfl) | ⟨-, rfl | rfl⟩) | ⟨-, rfl⟩) | ⟨-, rfl⟩) | rfl | rfl) |
    ⟨-, rfl | rfl | rfl⟩
  all_goals
    repeat' with_reducible apply BeginsWith.append
    exact beginsWith_ofList.2 (by decide)

theorem specializedTypes_includeLines (e : Entity) (names : SourceNames) :
    specializedTypes (includeLines e names) = [] :=
  List.filterMap_eq_nil_iff.2 fun line hline =>
    specializedType?_of_beginsWith (beginsWith_includeLines e names line hline) (by decide)

/-- The first line of a specialization and its last lines start none. -/
theorem specializedTypes_around : specializedType? "template<>" = none ∧
    specializedTypes ["    );", "\x7d;"] = [] := by
  have hclose : specializedType? "    );" = none := specializedType?_ofList (by decide)
  have hend : specializedType? "\x7d;" = none := specializedType?_ofList (by decide)
  refine ⟨specializedType?_ofList (by decide), ?_⟩
  rw [specializedTypes, List.filterMap_cons_none hclose, List.filterMap_cons_none hend,
    List.filterMap_nil]

theorem specializedTypes_enumMeta (type : String) (pairs : List EnumPair) :
    specializedTypes (enumMeta type pairs) = [type] := by
  have husing : IsIndented s!"    using enum {type};" := by
    right
    repeat' with_reducible apply BeginsWith.append
    exact beginsWith_ofList.2 (by decide)
  have hitems := specializedTypes_of_isInside (isInside_commaLines "        "
    (startsInside_ofList.2 (by decide)) (pairs.map fun p => s!"{quote p.external}, {p.enumerator}"))
  have hopen : specializedType? s!"struct glz::meta<{type}> \x7b" = some type :=
    specializedType?_metaOpening type
  obtain ⟨htemplate, hclose⟩ := specializedTypes_around
  have hvalue : specializedType? "    static constexpr auto value = glz::enumerate(" = none :=
    specializedType?_ofList (by decide)
  rw [enumMeta, specializedTypes_append, specializedTypes_append, hitems, hclose]
  simp only [specializedTypes, List.filterMap_cons, htemplate, hopen, husing.specializedType?,
    hvalue, List.filterMap_nil, List.append_nil]

theorem specializedTypes_structMeta (e : Entity) :
    specializedTypes (structMeta e) = if e.hasStructMeta then [] else [e.structName] := by
  have husing : IsIndented s!"    using T = {e.structName};" := by
    right
    repeat' with_reducible apply BeginsWith.append
    exact beginsWith_ofList.2 (by decide)
  have hitems := specializedTypes_of_isInside (isInside_commaLines "        "
    (startsInside_ofList.2 (by decide)) (objectEntries e))
  have hopen : specializedType? s!"struct glz::meta<{e.structName}> \x7b" = some e.structName :=
    specializedType?_metaOpening e.structName
  obtain ⟨htemplate, hclose⟩ := specializedTypes_around
  have hvalue : specializedType? "    static constexpr auto value = glz::object(" = none :=
    specializedType?_ofList (by decide)
  unfold structMeta
  split
  · rfl
  · rw [specializedTypes_append, specializedTypes_append, hitems, hclose]
    simp only [specializedTypes, List.filterMap_cons, htemplate, hopen, husing.specializedType?,
      hvalue, List.filterMap_nil, List.append_nil]

/-- The empty lines between specializations specialize nothing. -/
theorem specializedTypes_intersperse (blocks : List (List String)) :
    specializedTypes (blocks.intersperse [""]).flatten = blocks.flatMap specializedTypes := by
  have hempty : specializedTypes [""] = [] := List.filterMap_cons_none specializedType?_empty
  induction blocks with
  | nil => rfl
  | cons block blocks ih =>
    cases blocks with
    | nil => simp
    | cons next blocks =>
      rw [List.intersperse_cons_cons, List.flatten_cons, List.flatten_cons, specializedTypes_append,
        specializedTypes_append, hempty, List.nil_append, ih, ← List.flatMap_cons]

theorem specializedTypes_enumMetas (e : Entity) :
    specializedTypes (enumMetas e) = e.metaEnums.map Prod.fst := by
  rw [enumMetas, specializedTypes_intersperse, List.flatMap_map]
  simp only [specializedTypes_enumMeta]
  exact List.flatMap_pure_eq_map _ _

end Mapping

open Mapping

/-- The types that the header for an entity specializes: its class, unless the annotated header has
a specialization for it, and the enums that the annotated header leaves unspecialized. -/
def Entity.metaTypes (e : Entity) : List String :=
  (if e.hasStructMeta then [] else [e.structName]) ++ e.metaEnums.map Prod.fst

/-- The lines of a generated header specialize these types, in order. -/
theorem Mapping.specializedTypes_headerLines {e : Entity} (names : SourceNames)
    (hname : ∀ c ∈ e.className.toList, isNamePart c) :
    specializedTypes (headerLines e names) = e.metaTypes := by
  have hbanner : specializedType? "// GENERATED AUTOMATICALLY - DO NOT MODIFY" = none :=
    specializedType?_ofList (by decide)
  have hsource : specializedType? s!"// Source: {names.name}" = none := by
    refine specializedType?_of_beginsWith (show BeginsWith "// " _ from ?_) (by decide)
    repeat' with_reducible apply BeginsWith.append
    exact beginsWith_ofList.2 (by decide)
  have honce : specializedType? "#pragma once" = none := specializedType?_ofList (by decide)
  have hnamespace : specializedType? "namespace entity::generated \x7b" = none :=
    specializedType?_ofList (by decide)
  have hend : specializedType? "\x7d  // namespace entity::generated" = none :=
    specializedType?_ofList (by decide)
  have hfront : specializedTypes ["// GENERATED AUTOMATICALLY - DO NOT MODIFY",
      s!"// Source: {names.name}", "", "#pragma once", ""] = [] := by
    simp only [specializedTypes, List.filterMap_cons, hbanner, hsource, honce,
      specializedType?_empty, List.filterMap_nil]
  have hopen : specializedTypes ["", "namespace entity::generated \x7b", ""] = [] := by
    simp only [specializedTypes, List.filterMap_cons, hnamespace, specializedType?_empty,
      List.filterMap_nil]
  have hempty : specializedTypes [""] = [] := List.filterMap_cons_none specializedType?_empty
  have hclose : specializedTypes ["", "\x7d  // namespace entity::generated"] = [] := by
    simp only [specializedTypes, List.filterMap_cons, hend, specializedType?_empty,
      List.filterMap_nil]
  simp only [headerLines, specializedTypes_append, hfront, specializedTypes_includeLines, hopen,
    specializedTypes_mappingStruct hname, hempty, specializedTypes_fieldInfo hname,
    specializedTypes_wrapperAliases, hclose, specializedTypes_setOff, specializedTypes_structMeta,
    specializedTypes_enumMetas, List.nil_append, Entity.metaTypes]

/-! ### The segment that is searched for -/

namespace Name

/-- An unqualified name is its own last segment. -/
theorem bare_of_not_isQualified {name : String} (h : isQualified name = false) :
    bare name = name := by
  have hnone : splitFirst? scopeSign.reverse name.toList.reverse = none := by
    rw [Option.eq_none_iff_forall_ne_some]
    rintro ⟨a, b⟩ hsplit
    refine occursIn_eq_false_iff.1 h b.reverse a.reverse ?_
    rw [← List.reverse_reverse name.toList, eq_of_splitFirst? hsplit]
    simp
  rw [bare, afterLast, hnone, String.ofList_toList]

/-- A qualified name has the last segment of the name, if that does not begin with a part of the
scope sign. -/
theorem bare_qualify {scope name : String}
    (h : name.toList.head? = some ':' → isQualified name = true) :
    bare (qualify scope name) = bare name := by
  unfold qualify
  split
  · rfl
  next hscope =>
  obtain ⟨hname, -⟩ : isQualified name = false ∧ scope.isEmpty = false := by simpa using hscope
  rw [bare_of_not_isQualified hname, bare, afterLast]
  -- read backwards, the first scope sign is the one that the name was put behind
  have hsplit : splitFirst? scopeSign (name.toList.reverse ++ (scopeSign ++ scope.toList.reverse)) =
      some (name.toList.reverse, scope.toList.reverse) := by
    refine splitFirst?_append (by decide) ?_
    rintro c t ⟨s, hs⟩ ⟨rest, hrest⟩
    have hname' : name.toList = t.reverse ++ (c :: s.reverse) := by
      rw [← List.reverse_reverse name.toList, ← hs]
      simp
    rw [show scopeSign = [':', ':'] from rfl, List.cons_append, List.cons.injEq] at hrest
    obtain ⟨rfl, hrest⟩ := hrest
    cases t with
    | nil =>
      have hhead : name.toList.head? = some ':' := by rw [hname']; rfl
      rw [h hhead] at hname
      cases hname
    | cons d t =>
      obtain ⟨rfl, -⟩ := List.cons.inj hrest
      exact occursIn_eq_false_iff.1 hname t.reverse s.reverse (by rw [hname']; simp [scopeSign])
  have hreverse : (scope ++ "::" ++ name).toList.reverse =
      name.toList.reverse ++ (scopeSign ++ scope.toList.reverse) := by
    simp [scopeSign]
  rw [hreverse, show scopeSign.reverse = scopeSign from rfl, hsplit]
  simp

end Name

/-! ### Enums that several classes share -/

namespace Entity

variable {e : Entity} {type : String}

/-- A member is an enum of a type that the annotated header leaves unspecialized. -/
def hasOpenEnum (e : Entity) (type : String) : Bool :=
  e.enums.any fun m => !m.hasMeta && Name.qualify e.scope m.type == type

theorem hasOpenEnum_iff : e.hasOpenEnum type = true ↔
    ∃ m ∈ e.enums, m.hasMeta = false ∧ Name.qualify e.scope m.type = type := by
  simp [hasOpenEnum]

theorem mem_metaEnums_iff : type ∈ e.metaEnums.map Prod.fst ↔ e.hasOpenEnum type = true := by
  rw [hasOpenEnum_iff, List.mem_map]
  constructor
  · rintro ⟨⟨t, pairs⟩, hg, rfl⟩
    obtain ⟨m, hm, hmeta, htype, -⟩ := exists_of_mem_metaEnums hg
    exact ⟨m, hm, hmeta, htype⟩
  · rintro ⟨m, hm, hmeta, rfl⟩
    obtain ⟨pairs, hpairs⟩ := exists_mem_metaEnums hm hmeta
    exact ⟨_, hpairs, rfl⟩

theorem nodup_metaEnums (e : Entity) : (e.metaEnums.map Prod.fst).Nodup :=
  List.pairwise_map.2 (pairwise_firstOfType [] _)

theorem count_metaTypes (e : Entity) (type : String) :
    e.metaTypes.count type =
      (if !e.hasStructMeta && e.structName == type then 1 else 0) +
        if e.hasOpenEnum type then 1 else 0 := by
  have henum : (e.metaEnums.map Prod.fst).count type = if e.hasOpenEnum type then 1 else 0 := by
    rw [e.nodup_metaEnums.count]
    simp only [mem_metaEnums_iff]
  rw [metaTypes, List.count_append, henum]
  cases e.hasStructMeta <;> simp [List.count_singleton]

end Entity

/-- Over several headers, a type is specialized once for each class of this name that the annotated
header leaves unspecialized, and once for each class with an enum of this type. -/
theorem Mapping.count_flatMap_metaTypes (es : List Entity) (type : String) :
    (es.flatMap Entity.metaTypes).count type =
      es.countP (fun e => !e.hasStructMeta && e.structName == type) +
        es.countP fun e => e.hasOpenEnum type := by
  induction es with
  | nil => rfl
  | cons e es ih =>
    rw [List.flatMap_cons, List.count_append, ih, e.count_metaTypes, List.countP_cons,
      List.countP_cons]
    omega

/-! ### All headers of an annotated one -/

section

variable {source : List Char} {file : String} {es : List Entity} {e : Entity} {type : String}

theorem exists_class_of_allEntities (h : allEntities source file = .ok es) (he : e ∈ es) :
    ∃ c ∈ declaredClasses source, c.resolve source file = .ok e :=
  exists_of_mem_forall₂ (mapM_eq_ok_iff.1 h).flip he

theorem specializedTypes_of_allEntities (h : allEntities source file = .ok es)
    (names : SourceNames) (he : e ∈ es) :
    specializedTypes (headerLines e names) = e.metaTypes := by
  obtain ⟨c, hc, hresolve⟩ := exists_class_of_allEntities h he
  have hclass : e.className = c.name :=
    congrArg Entity.className (DeclaredClass.eq_of_resolve hresolve)
  exact specializedTypes_headerLines names (hclass ▸ isNamePart_of_className hc)

/-- A type is written only if no specialization in the annotated header has its last segment. -/
theorem occurs_of_mem_metaTypes (h : allEntities source file = .ok es) (he : e ∈ es)
    (hcolon : ∀ m ∈ e.enums, m.type.toList.head? = some ':' → Name.isQualified m.type = true)
    (htype : type ∈ e.metaTypes) : occurs source (Name.bare type) = false := by
  obtain ⟨c, hc, hresolve⟩ := exists_class_of_allEntities h he
  rcases List.mem_append.1 htype with htype | htype
  · have hclass : e.className = c.name :=
      congrArg Entity.className (DeclaredClass.eq_of_resolve hresolve)
    have hname : ':' ∉ e.className.toList := fun hmem =>
      absurd (isNamePart_of_className hc _ (hclass ▸ hmem)) (by decide)
    have hbare : Name.bare e.structName = e.className := by
      have hhead : e.className.toList.head? ≠ some ':' := fun hhead =>
        hname (List.mem_of_mem_head? hhead)
      rw [Entity.structName, Name.bare_qualify fun hcolon => absurd hcolon hhead]
      refine Name.bare_of_not_isQualified (occursIn_eq_false_iff.2 fun a b hab => hname ?_)
      simp [hab, Name.scopeSign]
    have hmeta : e.hasStructMeta = occurs source c.name :=
      congrArg Entity.hasStructMeta (DeclaredClass.eq_of_resolve hresolve)
    split at htype
    · cases htype
    · next hnot =>
      rw [List.mem_singleton] at htype
      rw [htype, hbare, hclass, ← hmeta]
      simpa using hnot
  · obtain ⟨m, hm, hmeta, rfl⟩ := Entity.hasOpenEnum_iff.1 (Entity.mem_metaEnums_iff.1 htype)
    rw [Name.bare_qualify (hcolon m hm), ← DeclaredClass.hasMeta_of_mem_enums hresolve hm, hmeta]

end

/-! ### Two classes that share an enum -/

/-- A header with two classes, each with a member of one enum type. -/
def jobsSource : List Char := (
  "namespace app \x7b\n" ++
  "// @relais table=jobs\nstruct Job \x7b\n    int64_t id;\n" ++
  "    State state; // @relais enum=open:Open\n\x7d;\n" ++
  "// @relais table=tasks\nstruct Task \x7b\n    int64_t id;\n" ++
  "    State state; // @relais enum=open:Open\n\x7d;\n\x7d\n").toList

/-- One of its classes. -/
def jobEntity (className table : String) (line : Nat) : Entity where
  className := className
  scope := "app"
  table := table
  model := none
  members := [⟨"id", "int64_t", "", line + 1, {}⟩,
    ⟨"state", "State", "", line + 2, { pairs := [⟨"open", "Open"⟩] }⟩]
  enums := [⟨"state", "State", [⟨"open", "Open"⟩], false⟩]
  readOnly := false
  tiers := []
  entityName := "app::" ++ className
  hasStructMeta := false
  file := "Job.h"
  line := line

theorem allEntities_jobs : allEntities jobsSource "Job.h" =
    .ok [jobEntity "Job" "jobs" 3, jobEntity "Task" "tasks" 8] := by
  have hsource : jobsSource = _ :=
    toList_append_of_eq
      (toList_append_of_eq
        (toList_append_of_eq
          (toList_append_of_eq String.toList_ofList String.toList_ofList)
          String.toList_ofList)
        String.toList_ofList)
      String.toList_ofList
  rw [hsource]
  decide +kernel

theorem compile_jobs : compile jobsSource "Job.h" ⟨"Job.h", "Job.h"⟩ =
    .ok ([jobEntity "Job" "jobs" 3, jobEntity "Task" "tasks" 8].map
      (Entity.generate ⟨"Job.h", "Job.h"⟩)) := by
  rw [compile, allEntities_jobs]
  rfl

theorem metaTypes_jobEntity : (jobEntity "Job" "jobs" 3).metaTypes = ["app::Job", "app::State"] ∧
    (jobEntity "Task" "tasks" 8).metaTypes = ["app::Task", "app::State"] := by
  decide +kernel

/-- Two classes of a header that have members of one enum type both specialize the enum. -/
theorem exists_type_specialized_twice : ¬ ∀ (source : List Char) (file : String)
    (names : SourceNames) (units : List GeneratedHeader), compile source file names = .ok units →
      ∃ es, allEntities source file = .ok es ∧
        (es.flatMap fun e => specializedTypes (headerLines e names)).Nodup := by
  intro hclaim
  obtain ⟨es, hes, hnodup⟩ := hclaim _ _ _ _ compile_jobs
  have hlines : ∀ e ∈ es, specializedTypes (headerLines e ⟨"Job.h", "Job.h"⟩) = e.metaTypes :=
    fun e he => specializedTypes_of_allEntities hes _ he
  cases hes.symm.trans allEntities_jobs
  rw [List.flatMap_congr hlines] at hnodup
  simp [metaTypes_jobEntity] at hnodup

section

variable {source : List Char} {file : String} {names : SourceNames}

/-- **A type is specialized once for each class that leaves it open.**  When a header is compiled,
the lines of the generated headers specialize a type as often as there are classes of this name
without a specialization of their own, and classes with an enum of this type without one.  So no
enum comes twice in one generated header, however many members have its type, but it comes in the
headers of all classes that use it.  An enum that the header specializes is written for none of
them, in whatever spelling; an unqualified type is taken not to begin with a colon, which would run
into the scope sign. -/
theorem count_specializedTypes {units : List GeneratedHeader}
    (h : compile source file names = .ok units) : ∃ es, allEntities source file = .ok es ∧
      units = es.map (fun e => ⟨e.className, e.fileName,
        "\n".intercalate (headerLines e names ++ [""])⟩) ∧
      (∀ type, (es.flatMap fun e => specializedTypes (headerLines e names)).count type =
        es.countP (fun e => !e.hasStructMeta && e.structName == type) +
          es.countP fun e => e.hasOpenEnum type) ∧
      (∀ e ∈ es, (specializedTypes (enumMetas e)).Nodup ∧
        ∀ type, type ∈ specializedTypes (enumMetas e) ↔ e.hasOpenEnum type = true) ∧
      ((∀ e ∈ es, ∀ m ∈ e.enums,
          m.type.toList.head? = some ':' → Name.isQualified m.type = true) →
        ∀ e ∈ es, ∀ m ∈ e.enums, m.hasMeta = true → ∀ e' ∈ es,
          Name.qualify e.scope m.type ∉ specializedTypes (headerLines e' names)) := by
  obtain ⟨es, hes, hunits⟩ : ∃ es, allEntities source file = .ok es ∧
      units = es.map (Entity.generate names) := by
    unfold compile at h
    cases hes : allEntities source file with
    | error e => rw [hes] at h; cases h
    | ok es =>
      rw [hes] at h
      exact ⟨es, rfl, (Except.ok.inj h).symm⟩
  have hlines : ∀ e ∈ es, specializedTypes (headerLines e names) = e.metaTypes := fun e he =>
    specializedTypes_of_allEntities hes names he
  refine ⟨es, hes, hunits, fun type => ?_, fun e he => ?_,
    fun hcolon e he m hm hmeta e' he' hmem => ?_⟩
  · rw [List.flatMap_congr hlines, count_flatMap_metaTypes]
  · rw [specializedTypes_enumMetas]
    exact ⟨e.nodup_metaEnums, fun type => Entity.mem_metaEnums_iff⟩
  · obtain ⟨c, hc, hresolve⟩ := exists_class_of_allEntities hes he
    rw [hlines e' he'] at hmem
    have hnot := occurs_of_mem_metaTypes hes he' (hcolon e' he') hmem
    rw [Name.bare_qualify (hcolon e he m hm), ← DeclaredClass.hasMeta_of_mem_enums hresolve hm,
      hmeta] at hnot
    cases hnot

theorem count_specializedTypes_jobs : ∃ units,
    compile jobsSource "Job.h" ⟨"Job.h", "Job.h"⟩ = .ok units ∧ units.length = 2 ∧
    ∃ es, allEntities jobsSource "Job.h" = .ok es ∧
      (es.flatMap fun e => specializedTypes
        (headerLines e ⟨"Job.h", "Job.h"⟩)).count "app::State" = 2 := by
  obtain ⟨es, hes, -, hcount, -⟩ := count_specializedTypes compile_jobs
  refine ⟨_, compile_jobs, rfl, es, hes, ?_⟩
  cases hes.symm.trans allEntities_jobs
  rw [hcount]
  decide +kernel

end

end RowMapping
