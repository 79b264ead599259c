import RowMapping.Proofs.EntityTexts
import RowMapping.Proofs.SortedFilters
import RowMapping.Proofs.SpecializedTypes
/-!
# The description of lists

The generated header describes the lists of an entity in a structure with tuples of filters and sort
keys and with two page sizes, and it includes headers and has an alias for them.  All of these are
written by parts that do not know of each other.

* `tupleItems`, `tupleItems_filters`, `tupleItems_sorts`: the items of a tuple, read from the lines;
* `boundFilter`, `boundSort`: the items for a member;
* `listMarks`, `filter_headerLines`: the lines that are there for lists;
* `limitLine`, `filter_limits`: the page sizes;
* `listDescriptor_faithful`: all of them.
-/

namespace RowMapping

open Text

namespace Mapping

variable {e : Entity} {m : Member}

/-! ### Items of tuples -/

/-- The lines behind a line, up to one that ends them. -/
def linesBetween (first last : String) (lines : List String) : List String :=
  (lines.dropWhile (· ≠ first)).tail.takeWhile (· ≠ last)

/-- The line that opens the tuple of a name. -/
def tupleOpening (name : String) : String :=
  s!"        static constexpr auto {name} = std::tuple\x7b"

/-- The items of the tuple of a name. -/
def tupleItems (name : String) (lines : List String) : List String :=
  (linesBetween (tupleOpening name) "        \x7d;" lines).map (lineItem "            ")

theorem tupleOpening_inj {name other : String} (h : tupleOpening name = tupleOpening other) :
    name = other :=
  (String.append_right_inj _).1 ((String.append_left_inj _).1 h)

theorem beginsWith_tupleOpening (name : String) :
    BeginsWith "        static constexpr auto " (tupleOpening name) :=
  (beginsWith_append _ _).append _

theorem tupleOpening_not_mem_commaLines (name : String) (items : List String) :
    tupleOpening name ∉ commaLines "            " items := by
  intro h
  obtain ⟨item, -, hline⟩ := mem_commaLines h
  have hindent : BeginsWith "            " (tupleOpening name) := by
    rcases hline with hline | hline <;> rw [hline]
    · exact beginsWith_append _ _
    · exact (beginsWith_append _ _).append _
  exact (beginsWith_tupleOpening name).ne hindent (by decide) rfl

theorem tupleOpening_ne_empty (name : String) : tupleOpening name ≠ "" := by
  intro hnil
  have hbegins := beginsWith_tupleOpening name
  rw [hnil] at hbegins
  exact absurd hbegins (by decide)

/-- A tuple is opened by its own line only. -/
theorem tupleOpening_not_mem_entryTuple {name other : String} (h : name ≠ other)
    (items : List String) : tupleOpening name ∉ entryTuple other items := by
  have hclose : tupleOpening name ≠ "        \x7d;" :=
    (beginsWith_tupleOpening name).ne_ofList (by decide)
  have hother : tupleOpening name ≠ tupleOpening other := fun heq => h (tupleOpening_inj heq)
  unfold entryTuple
  split
  · exact List.not_mem_nil
  · simp only [List.mem_append, List.mem_cons, List.not_mem_nil, or_false, hclose,
      tupleOpening_ne_empty, tupleOpening_not_mem_commaLines, false_or]
    exact hother

/-- What is in front of a tuple does not count. -/
theorem tupleItems_append {name : String} {front : List String} (h : tupleOpening name ∉ front)
    (lines : List String) : tupleItems name (front ++ lines) = tupleItems name lines := by
  unfold tupleItems linesBetween
  rw [List.dropWhile_append_of_pos]
  intro line hline
  rw [decide_eq_true_iff]
  rintro rfl
  exact h hline

theorem tupleItems_of_not_mem {name : String} {lines : List String}
    (h : tupleOpening name ∉ lines) : tupleItems name lines = [] := by
  rw [← List.append_nil lines, tupleItems_append h]
  rfl

/-- The items of a tuple are read off its lines. -/
theorem tupleItems_entryTuple {name : String} {items : List String}
    (hitems : ∀ item ∈ items, item.toList.getLast? ≠ some ',') {rest : List String}
    (hrest : tupleOpening name ∉ rest) :
    tupleItems name (entryTuple name items ++ rest) = items := by
  unfold entryTuple
  split
  · next hnil =>
    rw [List.nil_append, tupleItems_of_not_mem hrest, List.isEmpty_iff.1 hnil]
  · have hinner : ∀ line ∈ commaLines "            " items, line ≠ "        \x7d;" := by
      intro line hline
      obtain ⟨item, -, rfl | rfl⟩ := mem_commaLines hline
      · exact (beginsWith_append _ _).ne_ofList (by decide)
      · exact ((beginsWith_append _ _).append _).ne_ofList (by decide)
    have hempty : tupleOpening name ∉ [""] := by
      rw [List.mem_singleton]
      exact tupleOpening_ne_empty name
    have hlines :
        (["", tupleOpening name] ++ commaLines "            " items ++ ["        \x7d;"]) ++ rest =
          [""] ++ (tupleOpening name ::
            (commaLines "            " items ++ "        \x7d;" :: rest)) := by
      simp
    change tupleItems name ((["", tupleOpening name] ++ commaLines "            " items ++
      ["        \x7d;"]) ++ rest) = items
    rw [hlines, tupleItems_append hempty, tupleItems, linesBetween,
      List.dropWhile_cons_of_neg (by simp), List.tail_cons,
      List.takeWhile_append_of_pos (by simpa using hinner),
      List.takeWhile_cons_of_neg (by simp), List.append_nil, map_lineItem_commaLines hitems]

/-! ### Items of the description -/

/-- The line that opens the description of lists. -/
def listOpening : String := "    struct ListDescriptor \x7b"

/-- The line with a page size. -/
def limitLine (name : String) (size : UInt16) : String :=
  s!"        static constexpr uint16_t {name} = {size};"

/-- The lines behind the tuples. -/
def limitLines (e : Entity) : List String :=
  ["", limitLine "defaultLimit" (e.tiers.head?.getD 10),
    limitLine "maxLimit" (e.tiers.getLast?.getD 50), "    \x7d;"]

theorem listDescriptor_of_hasList (h : e.hasList = true) :
    listDescriptor e = [listOpening] ++
      (entryTuple "filters" (e.sortedFilters.map (filterEntry e)) ++
        (entryTuple "sorts" (e.sorts.map (sortEntry e)) ++ limitLines e)) := by
  rw [listDescriptor, h]
  simp only [Bool.not_true, Bool.false_eq_true, if_false, List.cons_append, List.nil_append,
    List.append_assoc]
  rfl

theorem listDescriptor_of_not (h : e.hasList = false) : listDescriptor e = [] := by
  rw [listDescriptor, h]
  rfl

theorem hasList_eq_false_iff :
    e.hasList = false ↔ e.filters = [] ∧ e.sorts = [] ∧ e.tiers = [] := by
  simp [Entity.hasList, and_assoc]

theorem beginsWith_limitLine (name : String) (size : UInt16) :
    BeginsWith "        static constexpr uint16_t " (limitLine name size) := by
  unfold limitLine
  repeat' with_reducible apply BeginsWith.append
  exact beginsWith_ofList.2 (by decide)

theorem getLast?_append (text : String) {last : List Char} {c : Char}
    (h : last.getLast? = some c) : (text ++ String.ofList last).toList.getLast? = some c := by
  rw [String.toList_append, String.toList_ofList, List.getLast?_append, h, Option.some_or]

theorem getLast?_close (text : String) : (text ++ ">\x7b\x7d").toList.getLast? ≠ some ',' := by
  have hlast : (text ++ ">\x7b\x7d").toList.getLast? = some '\x7d' :=
    getLast?_append text (by decide)
  rw [hlast]
  decide

theorem tupleOpening_not_mem_limitLines (name : String) : tupleOpening name ∉ limitLines e := by
  have hlimit : ∀ other size, tupleOpening name ≠ limitLine other size := fun other size =>
    (beginsWith_tupleOpening name).ne (beginsWith_limitLine other size) (by decide)
  have hclose : tupleOpening name ≠ "    \x7d;" :=
    (beginsWith_tupleOpening name).ne_ofList (by decide)
  simp only [limitLines, List.mem_cons, List.not_mem_nil, tupleOpening_ne_empty, hlimit,
    hclose, or_self, not_false_eq_true]

theorem tupleOpening_not_mem_opening (name : String) : tupleOpening name ∉ [listOpening] := by
  rw [List.mem_singleton]
  exact (beginsWith_tupleOpening name).ne_ofList (by decide)

/-- The filters are described one by one, sorted. -/
theorem tupleItems_filters (e : Entity) :
    tupleItems "filters" (listDescriptor e) = e.sortedFilters.map (filterEntry e) := by
  have hitems : ∀ item ∈ e.sortedFilters.map (filterEntry e), item.toList.getLast? ≠ some ',' := by
    intro item hitem
    obtain ⟨f, -, rfl⟩ := List.mem_map.1 hitem
    exact getLast?_close _
  cases h : e.hasList with
  | true =>
    have hrest : tupleOpening "filters" ∉
        entryTuple "sorts" (e.sorts.map (sortEntry e)) ++ limitLines e := by
      rw [List.mem_append, not_or]
      exact ⟨tupleOpening_not_mem_entryTuple (by decide) _, tupleOpening_not_mem_limitLines _⟩
    rw [listDescriptor_of_hasList h, tupleItems_append (tupleOpening_not_mem_opening _),
      tupleItems_entryTuple hitems hrest]
  | false =>
    have hnil : e.sortedFilters = [] :=
      (e.sortedFilters_perm.trans (List.Perm.of_eq (hasList_eq_false_iff.1 h).1)).eq_nil
    rw [listDescriptor_of_not h, hnil]
    rfl

/-- The sort keys are described one by one, as they come. -/
theorem tupleItems_sorts (e : Entity) :
    tupleItems "sorts" (listDescriptor e) = e.sorts.map (sortEntry e) := by
  have hitems : ∀ item ∈ e.sorts.map (sortEntry e), item.toList.getLast? ≠ some ',' := by
    intro item hitem
    obtain ⟨k, -, rfl⟩ := List.mem_map.1 hitem
    exact getLast?_close _
  cases h : e.hasList with
  | true =>
    rw [listDescriptor_of_hasList h, tupleItems_append (tupleOpening_not_mem_opening _),
      tupleItems_append (tupleOpening_not_mem_entryTuple (by decide) _),
      tupleItems_entryTuple hitems (tupleOpening_not_mem_limitLines _)]
  | false =>
    rw [listDescriptor_of_not h, (hasList_eq_false_iff.1 h).2.1]
    rfl

/-- The text that refers to a member. -/
def reference (e : Entity) (m : Member) : String := s!"&{e.structName}::{m.name}"

/-- A parameter, a member that it is about, and the column of this member. -/
def boundTo (e : Entity) (m : Member) (param : String) : String :=
  quote param ++ ", " ++ reference e m ++ ", " ++ quote m.column

/-- The item for a filter on a member, with the operator unless it is equality. -/
def boundFilter (e : Entity) (m : Member) (f : Filter) : String :=
  declScope ++ "::Filter<" ++ boundTo e m f.param ++
    (if f.op = .eq then "" else ", " ++ declScope ++ "::Op::" ++ f.op.capitalName) ++ ">\x7b\x7d"

/-- The item for a sort key on a member, with the direction. -/
def boundSort (e : Entity) (m : Member) (k : SortKey) : String :=
  declScope ++ "::Sort<" ++ boundTo e m k.param ++ ", " ++ declScope ++ "::SortDirection::" ++
    k.direction.capitalName ++ ">\x7b\x7d"

theorem filterEntry_eq_boundFilter (hd : e.HasDistinctNames) (hm : m ∈ e.members) {f : Filter}
    (hf : f.field = m.name) : filterEntry e f = boundFilter e m f := by
  have hcolumn : e.columnOf f.field = m.column := by rw [hf, Entity.columnOf_name hd hm]
  have hreference : s!"&{e.structName}::{f.field}" = reference e m := by rw [hf, reference]
  unfold filterEntry boundFilter boundTo
  rw [hcolumn, hreference]
  cases hop : f.op <;>
    simp [operatorArgument, toString, String.append_assoc]

theorem sortEntry_eq_boundSort (hd : e.HasDistinctNames) (hm : m ∈ e.members) {k : SortKey}
    (hk : k.field = m.name) : sortEntry e k = boundSort e m k := by
  have hcolumn : e.columnOf k.field = m.column := by rw [hk, Entity.columnOf_name hd hm]
  have hreference : s!"&{e.structName}::{k.field}" = reference e m := by rw [hk, reference]
  unfold sortEntry boundSort boundTo
  rw [hcolumn, hreference]
  simp [toString, String.append_assoc]

/-! ### The lines that are there for lists -/

/-- The headers that are included for lists. -/
def listIncludes : List String :=
  ["#include <jcailloux/relais/wrapper/ListWrapper.h>",
    "#include <jcailloux/relais/list/decl/FilterDescriptor.h>",
    "#include <jcailloux/relais/list/decl/SortDescriptor.h>"]

/-- The alias for the wrapper of lists. -/
def listAlias (e : Entity) : String :=
  s!"using {e.className}ListWrapper = jcailloux::relais::wrapper::ListWrapper<{e.wrapperName}>;"

/-- The lines that are there for lists only, in order. -/
def listMarks (e : Entity) : List String := listIncludes ++ [listOpening, listAlias e]

/-- How these lines begin, as some others of the header do. -/
def listStarts : List (List Char) :=
  [['#', 'i', 'n', 'c', 'l', 'u', 'd', 'e'],
    [' ', ' ', ' ', ' ', 's', 't', 'r', 'u', 'c', 't', ' ', 'L'], ['u', 's', 'i', 'n', 'g']]

/-- A line does not begin like one that is there for lists. -/
def IsApart (line : String) : Prop := ∀ start ∈ listStarts, ¬start <+: line.toList

theorem isApart_of_beginsWith {start : List Char} {line : String}
    (h : BeginsWith (String.ofList start) line)
    (hstart : ∀ mark ∈ listStarts, ¬(mark <+: start ∨ start <+: mark)) : IsApart line := by
  intro mark hmark hline
  rw [BeginsWith, String.toList_ofList] at h
  exact hstart mark hmark (List.prefix_or_prefix_of_prefix hline h)

theorem isApart_ofList {line : List Char} (h : ∀ mark ∈ listStarts, ¬mark <+: line) :
    IsApart (String.ofList line) := by
  rw [IsApart, String.toList_ofList]
  exact h

theorem isApart_empty : IsApart "" := isApart_ofList (by decide)

theorem IsInside.isApart {line : String} (h : IsInside line) : IsApart line := by
  have hinside : ∀ start ∈ insideStarts, ∀ mark ∈ listStarts,
      ¬(mark <+: start ∨ start <+: mark) := by decide
  rcases h with rfl | ⟨start, hstart, hline⟩
  · exact isApart_empty
  · have hbegins : BeginsWith (String.ofList start) line := by
      rw [BeginsWith, String.toList_ofList]
      exact hline
    exact isApart_of_beginsWith hbegins (hinside start hstart)

theorem beginsWith_listAlias (e : Entity) : BeginsWith "using " (listAlias e) := by
  unfold listAlias
  repeat' with_reducible apply BeginsWith.append
  exact beginsWith_ofList.2 (by decide)

theorem beginsWith_listIncludes : ∀ line ∈ listIncludes, BeginsWith "#include <" line := by
  intro line hline
  simp only [listIncludes, List.mem_cons, List.not_mem_nil, or_false] at hline
  rcases hline with rfl | rfl | rfl <;> exact beginsWith_ofList.2 (by decide)

theorem beginsWith_listOpening : BeginsWith "    struct L" listOpening :=
  beginsWith_ofList.2 (by decide)

theorem IsApart.not_mem {line : String} (h : IsApart line) : line ∉ listMarks e := by
  have hstart : ∀ {line : List Char} {text : String}, BeginsWith (String.ofList line) text →
      (∃ start ∈ listStarts, start <+: line) → ¬IsApart text := by
    rintro line text htext ⟨start, hstart, hline⟩ hapart
    rw [BeginsWith, String.toList_ofList] at htext
    exact hapart start hstart (hline.trans htext)
  intro hline
  rcases List.mem_append.1 hline with hline | hline
  · exact hstart (beginsWith_listIncludes line hline) (by decide) h
  rcases List.mem_cons.1 hline with rfl | hline
  · exact hstart beginsWith_listOpening (by decide) h
  · rw [List.mem_singleton] at hline
    exact hstart (hline ▸ beginsWith_listAlias e) (by decide) h

/-- Another header than those for lists may be included. -/
theorem not_mem_of_include {line : String} (h : BeginsWith "#include " line)
    (hline : line ∉ listIncludes) : line ∉ listMarks e := by
  intro hmark
  rcases List.mem_append.1 hmark with hmark | hmark
  · exact hline hmark
  rcases List.mem_cons.1 hmark with rfl | hmark
  · exact h.ne beginsWith_listOpening (by decide) rfl
  · rw [List.mem_singleton] at hmark
    exact h.ne (beginsWith_listAlias e) (by decide) hmark

/-- The lines among these that are there for lists. -/
def marksAmong (e : Entity) (lines : List String) : List String :=
  lines.filter fun line => line ∈ listMarks e

theorem marksAmong_append (a b : List String) :
    marksAmong e (a ++ b) = marksAmong e a ++ marksAmong e b :=
  List.filter_append a b

theorem marksAmong_of_isApart {lines : List String} (h : ∀ line ∈ lines, IsApart line) :
    marksAmong e lines = [] :=
  List.filter_eq_nil_iff.2 fun line hline => by simpa using (h line hline).not_mem

theorem marksAmong_of_isInside {lines : List String} (h : ∀ line ∈ lines, IsInside line) :
    marksAmong e lines = [] :=
  marksAmong_of_isApart fun line hline => (h line hline).isApart

theorem marksAmong_of_subset {lines : List String} (h : ∀ line ∈ lines, line ∈ listMarks e) :
    marksAmong e lines = lines :=
  List.filter_eq_self.2 fun line hline => by simpa using h line hline

theorem marksAmong_setOff (lines : List String) :
    marksAmong e (setOff lines) = marksAmong e lines := by
  cases lines with
  | nil => rfl
  | cons line lines =>
    exact List.filter_cons_of_neg (by simpa using isApart_empty.not_mem)

theorem ofList_ne {a b : List Char} (h : a ≠ b) : String.ofList a ≠ String.ofList b := by
  intro heq
  rw [← String.toList_inj, String.toList_ofList, String.toList_ofList] at heq
  exact h heq

theorem marksAmong_includeLines (e : Entity) (names : SourceNames) :
    marksAmong e (includeLines e names) = linesIf e.hasList listIncludes := by
  have hlist : marksAmong e (linesIf e.hasList listIncludes) = linesIf e.hasList listIncludes := by
    refine marksAmong_of_subset fun line hline => ?_
    unfold linesIf at hline
    split at hline
    · exact List.mem_append_left _ hline
    · cases hline
  have hother : ∀ {line : List Char}, ['#', 'i', 'n', 'c', 'l', 'u', 'd', 'e', ' '] <+: line →
      String.ofList line ∉ listIncludes → String.ofList line ∉ listMarks e := fun hline hne =>
    not_mem_of_include (beginsWith_ofList.2 hline) hne
  have hpath : s!"#include \"{names.includePath}\"" ∉ listMarks e := by
    have hquote : BeginsWith "#include \"" s!"#include \"{names.includePath}\"" := by
      repeat' with_reducible apply BeginsWith.append
      exact beginsWith_ofList.2 (by decide)
    refine not_mem_of_include ((beginsWith_ofList.2 (by decide)).trans hquote) fun hline => ?_
    exact hquote.ne (beginsWith_listIncludes _ hline) (by decide) rfl
  change marksAmong e (_ ++ linesIf e.hasList listIncludes) = _
  rw [marksAmong_append, hlist]
  refine (congrArg (· ++ _) (List.filter_eq_nil_iff.2 fun line hline => ?_)).trans
    (List.nil_append _)
  rw [decide_eq_true_iff]
  simp only [linesIf, List.mem_append, List.mem_ite_nil_right, List.mem_cons, List.not_mem_nil,
    or_false] at hline
  rcases hline with ((((rfl | rfl | rfl) | ⟨-, rfl | rfl⟩) | ⟨-, rfl⟩) | ⟨-, rfl⟩) | rfl | rfl
  case inr.inr => exact hpath
  all_goals
    refine hother (by decide) ?_
    simp only [listIncludes, List.mem_cons, List.not_mem_nil, or_false, not_or]
    exact ⟨ofList_ne (by decide), ofList_ne (by decide), ofList_ne (by decide)⟩

theorem marksAmong_listDescriptor (e : Entity) :
    marksAmong e (listDescriptor e) = linesIf e.hasList [listOpening] := by
  cases h : e.hasList with
  | true =>
    have hopening : marksAmong e [listOpening] = [listOpening] := by
      refine marksAmong_of_subset fun line hline => ?_
      exact List.mem_append_right _ (List.mem_cons.2 (.inl (List.mem_singleton.1 hline)))
    have hlimits : marksAmong e (limitLines e) = [] := by
      refine marksAmong_of_isApart fun line hline => ?_
      simp only [limitLines, List.mem_cons, List.not_mem_nil, or_false] at hline
      rcases hline with rfl | rfl | rfl | rfl
      · exact isApart_ofList (by decide)
      · exact isApart_of_beginsWith (beginsWith_limitLine _ _) (by decide)
      · exact isApart_of_beginsWith (beginsWith_limitLine _ _) (by decide)
      · exact isApart_ofList (by decide)
    rw [listDescriptor_of_hasList h, marksAmong_append, marksAmong_append, marksAmong_append,
      hopening, hlimits, marksAmong_of_isInside (isInside_entryTuple _ _),
      marksAmong_of_isInside (isInside_entryTuple _ _)]
    rfl
  | false =>
    rw [listDescriptor_of_not h]
    rfl

theorem marksAmong_mappingStruct (e : Entity) :
    marksAmong e (mappingStruct e) = linesIf e.hasList [listOpening] := by
  have hhead : marksAmong e [s!"struct {e.mappingName} \x7b",
      s!"    static constexpr bool read_only = {e.readOnly};",
      s!"    static constexpr const char* table_name = {Text.quote e.table};"] = [] := by
    refine marksAmong_of_isApart fun line hline => ?_
    simp only [List.mem_cons, List.not_mem_nil, or_false] at hline
    rcases hline with rfl | rfl | rfl
    · refine isApart_of_beginsWith (show BeginsWith "struct " _ from ?_) (by decide)
      repeat' with_reducible apply BeginsWith.append
      exact beginsWith_ofList.2 (by decide)
    · refine isApart_of_beginsWith (show BeginsWith "    static " _ from ?_) (by decide)
      repeat' with_reducible apply BeginsWith.append
      exact beginsWith_ofList.2 (by decide)
    · refine isApart_of_beginsWith (show BeginsWith "    static " _ from ?_) (by decide)
      repeat' with_reducible apply BeginsWith.append
      exact beginsWith_ofList.2 (by decide)
  have hcolumns : marksAmong e ["", columnEnum e] = [] := by
    refine marksAmong_of_isInside fun line hline => ?_
    simp only [List.mem_cons, List.not_mem_nil, or_false] at hline
    rcases hline with rfl | rfl
    · exact .inl rfl
    · exact isInside_columnEnum e
  have hclose : marksAmong e ["\x7d;"] = [] := by
    refine marksAmong_of_isApart fun line hline => ?_
    rw [List.mem_singleton.1 hline]
    exact isApart_ofList (by decide)
  simp only [mappingStruct, marksAmong_append, marksAmong_setOff, hhead, hcolumns, hclose,
    marksAmong_of_isInside (isInside_keyConstants e), marksAmong_of_isInside (isInside_sqlStruct e),
    marksAmong_of_isInside (isInside_traitsType e), marksAmong_of_isInside (isInside_keyFunction e),
    marksAmong_of_isInside (isInside_partitionHint e), marksAmong_of_isInside (isInside_fromRow e),
    marksAmong_of_isInside (isInside_writeParams e), marksAmong_of_isInside (isInside_glazeValue e),
    marksAmong_listDescriptor, List.nil_append, List.append_nil]

theorem marksAmong_fieldInfo (e : Entity) (mapping : String) :
    marksAmong e (fieldInfo e mapping) = [] := by
  refine marksAmong_of_isApart fun line hline => ?_
  obtain ⟨f, -, hline⟩ := List.mem_flatMap.1 hline
  simp only [FieldTraits.lines, List.mem_cons, List.not_mem_nil, or_false] at hline
  rcases hline with rfl | rfl | rfl | rfl | rfl | rfl | rfl | rfl
  · exact isApart_ofList (by decide)
  · refine isApart_of_beginsWith (show BeginsWith "struct " _ from ?_) (by decide)
    repeat' with_reducible apply BeginsWith.append
    exact beginsWith_ofList.2 (by decide)
  · refine isApart_of_beginsWith (show BeginsWith "    using " _ from ?_) (by decide)
    repeat' with_reducible apply BeginsWith.append
    exact beginsWith_ofList.2 (by decide)
  · refine isApart_of_beginsWith (show BeginsWith "    static " _ from ?_) (by decide)
    repeat' with_reducible apply BeginsWith.append
    exact beginsWith_ofList.2 (by decide)
  · refine isApart_of_beginsWith (show BeginsWith "    static " _ from ?_) (by decide)
    repeat' with_reducible apply BeginsWith.append
    exact beginsWith_ofList.2 (by decide)
  · refine isApart_of_beginsWith (show BeginsWith "    static " _ from ?_) (by decide)
    repeat' with_reducible apply BeginsWith.append
    exact beginsWith_ofList.2 (by decide)
  · exact isApart_ofList (by decide)
  · exact isApart_ofList (by decide)

theorem getLast?_of_mem_listMarks {line : String} (h : line ∈ listMarks e) :
    line.toList.getLast? ≠ some '<' := by
  have hconstant : ∀ {line : List Char}, line.getLast? ≠ some '<' →
      (String.ofList line).toList.getLast? ≠ some '<' := fun h => by rwa [String.toList_ofList]
  have halias : (listAlias e).toList.getLast? = some ';' := getLast?_append _ (by decide)
  simp only [listMarks, listIncludes, List.mem_append, List.mem_cons, List.not_mem_nil,
    or_false] at h
  rcases h with (rfl | rfl | rfl) | rfl | rfl
  · exact hconstant (by decide)
  · exact hconstant (by decide)
  · exact hconstant (by decide)
  · exact hconstant (by decide)
  · rw [halias]
    decide

theorem eq_listOpening_of_mem {line : String} (h : line ∈ listMarks e)
    (hline : BeginsWith "    " line) : line = listOpening := by
  rcases List.mem_append.1 h with h | h
  · exact absurd rfl (hline.ne (beginsWith_listIncludes line h) (by decide))
  rcases List.mem_cons.1 h with h | h
  · exact h
  · exact absurd (List.mem_singleton.1 h) (hline.ne (beginsWith_listAlias e) (by decide))

theorem marksAmong_wrapperAliases (e : Entity) :
    marksAmong e (wrapperAliases e) = linesIf e.hasList [listAlias e] := by
  have hheading : ∀ line ∈ [sectionRule, s!"// {e.wrapperName}: public API type", sectionRule, ""],
      line ∉ listMarks e := by
    intro line hline
    simp only [List.mem_cons, List.not_mem_nil, or_false] at hline
    rcases hline with rfl | rfl | rfl | rfl
    · exact (isApart_ofList (by decide)).not_mem
    · refine (isApart_of_beginsWith (show BeginsWith "// " _ from ?_) (by decide)).not_mem
      repeat' with_reducible apply BeginsWith.append
      exact beginsWith_ofList.2 (by decide)
    · exact (isApart_ofList (by decide)).not_mem
    · exact (isApart_ofList (by decide)).not_mem
  -- the alias of the wrapper begins like a line for lists, and so may the line behind it
  have halias : s!"using {e.wrapperName} = jcailloux::relais::wrapper::EntityWrapper<" ∉
      listMarks e :=
    fun h => getLast?_of_mem_listMarks h (getLast?_append _ (by decide))
  have hmapping : s!"    {e.structName}, {e.mappingName}>;" ∉ listMarks e := by
    intro h
    have hlast : s!"    {e.structName}, {e.mappingName}>;".toList.getLast? = some ';' :=
      getLast?_append _ (by decide)
    rw [eq_listOpening_of_mem h] at hlast
    · exact absurd hlast (by decide)
    · repeat' with_reducible apply BeginsWith.append
      exact beginsWith_ofList.2 (by decide)
  have hfront : marksAmong e
      ([sectionRule, s!"// {e.wrapperName}: public API type", sectionRule, ""] ++
      [s!"using {e.wrapperName} = jcailloux::relais::wrapper::EntityWrapper<",
        s!"    {e.structName}, {e.mappingName}>;"]) = [] := by
    refine List.filter_eq_nil_iff.2 fun line hline => ?_
    rw [decide_eq_true_iff]
    rcases List.mem_append.1 hline with hline | hline
    · exact hheading line hline
    rcases List.mem_cons.1 hline with rfl | hline
    · exact halias
    · rw [List.mem_singleton.1 hline]
      exact hmapping
  have hlist : marksAmong e (linesIf e.hasList ["", listAlias e]) =
      linesIf e.hasList [listAlias e] := by
    cases e.hasList with
    | true =>
      have halias : marksAmong e [listAlias e] = [listAlias e] := by
        refine marksAmong_of_subset fun line hline => ?_
        exact List.mem_append_right _ (List.mem_cons_of_mem _ hline)
      exact (marksAmong_setOff [listAlias e]).trans halias
    | false => rfl
  refine (marksAmong_append _ _).trans ?_
  exact (congrArg₂ (· ++ ·) hfront hlist).trans (List.nil_append _)

theorem marksAmong_structMeta (e : Entity) : marksAmong e (structMeta e) = [] := by
  have hopen : IsApart s!"struct glz::meta<{e.structName}> \x7b" := by
    refine isApart_of_beginsWith (show BeginsWith "struct " _ from ?_) (by decide)
    repeat' with_reducible apply BeginsWith.append
    exact beginsWith_ofList.2 (by decide)
  have husing : IsApart s!"    using T = {e.structName};" := by
    refine isApart_of_beginsWith (show BeginsWith "    using " _ from ?_) (by decide)
    repeat' with_reducible apply BeginsWith.append
    exact beginsWith_ofList.2 (by decide)
  unfold structMeta
  split
  · rfl
  · refine marksAmong_of_isApart fun line hline => ?_
    simp only [List.mem_append, List.mem_cons, List.not_mem_nil, or_false] at hline
    rcases hline with ((rfl | rfl | rfl | rfl) | hline) | rfl | rfl
    · exact isApart_ofList (by decide)
    · exact hopen
    · exact husing
    · exact isApart_ofList (by decide)
    · exact (isInside_commaLines _ (startsInside_ofList.2 (by decide)) _ line hline).isApart
    · exact isApart_ofList (by decide)
    · exact isApart_ofList (by decide)

theorem marksAmong_enumMetas (e : Entity) : marksAmong e (enumMetas e) = [] := by
  refine marksAmong_of_isApart fun line hline => ?_
  rcases mem_enumMetas hline with rfl | ⟨type, pairs, -, hline⟩
  · exact isApart_ofList (by decide)
  simp only [enumMeta, List.mem_append, List.mem_cons, List.not_mem_nil, or_false] at hline
  rcases hline with ((rfl | rfl | rfl | rfl) | hline) | rfl | rfl
  · exact isApart_ofList (by decide)
  · refine isApart_of_beginsWith (show BeginsWith "struct " _ from ?_) (by decide)
    repeat' with_reducible apply BeginsWith.append
    exact beginsWith_ofList.2 (by decide)
  · refine isApart_of_beginsWith (show BeginsWith "    using " _ from ?_) (by decide)
    repeat' with_reducible apply BeginsWith.append
    exact beginsWith_ofList.2 (by decide)
  · exact isApart_ofList (by decide)
  · exact (isInside_commaLines _ (startsInside_ofList.2 (by decide)) _ line hline).isApart
  · exact isApart_ofList (by decide)
  · exact isApart_ofList (by decide)

/-- The lines that are there for lists stand in a generated header together or not at all. -/
theorem filter_headerLines (e : Entity) (names : SourceNames) :
    (headerLines e names).filter (fun line => line ∈ listMarks e) =
      linesIf e.hasList (listMarks e) := by
  have hbanner : marksAmong e ["// GENERATED AUTOMATICALLY - DO NOT MODIFY",
      s!"// Source: {names.name}", "", "#pragma once", ""] = [] := by
    refine marksAmong_of_isApart fun line hline => ?_
    simp only [List.mem_cons, List.not_mem_nil, or_false] at hline
    rcases hline with rfl | rfl | rfl | rfl | rfl
    · exact isApart_ofList (by decide)
    · refine isApart_of_beginsWith (show BeginsWith "// " _ from ?_) (by decide)
      repeat' with_reducible apply BeginsWith.append
      exact beginsWith_ofList.2 (by decide)
    · exact isApart_ofList (by decide)
    · exact isApart_ofList (by decide)
    · exact isApart_ofList (by decide)
  have hempty : marksAmong e [""] = [] :=
    marksAmong_of_isApart fun line hline => List.mem_singleton.1 hline ▸ isApart_empty
  have hopen : marksAmong e ["", "namespace entity::generated \x7b", ""] = [] := by
    refine marksAmong_of_isApart fun line hline => ?_
    simp only [List.mem_cons, List.not_mem_nil, or_false] at hline
    rcases hline with rfl | rfl | rfl <;> exact isApart_ofList (by decide)
  have hclose : marksAmong e ["", "\x7d  // namespace entity::generated"] = [] := by
    refine marksAmong_of_isApart fun line hline => ?_
    simp only [List.mem_cons, List.not_mem_nil, or_false] at hline
    rcases hline with rfl | rfl <;> exact isApart_ofList (by decide)
  change marksAmong e (headerLines e names) = _
  simp only [headerLines, marksAmong_append, marksAmong_setOff, hbanner, hopen, hempty, hclose,
    marksAmong_includeLines, marksAmong_mappingStruct, marksAmong_fieldInfo,
    marksAmong_wrapperAliases, marksAmong_structMeta, marksAmong_enumMetas, List.nil_append,
    List.append_nil]
  cases e.hasList <;> rfl

/-! ### The page sizes -/

theorem not_beginsWith_entryTuple (name : String) (items : List String) :
    ∀ line ∈ entryTuple name items, ¬BeginsWith "        static constexpr uint16_t " line := by
  intro line hline hbegins
  unfold entryTuple at hline
  split at hline
  · cases hline
  simp only [List.mem_append, List.mem_cons, List.not_mem_nil, or_false] at hline
  rcases hline with ((rfl | rfl) | hline) | rfl
  · exact absurd hbegins (by decide)
  · exact hbegins.ne (beginsWith_tupleOpening name) (by decide) rfl
  · obtain ⟨item, -, hline⟩ := mem_commaLines hline
    have hindent : BeginsWith "            " line := by
      rcases hline with rfl | rfl
      · exact beginsWith_append _ _
      · exact (beginsWith_append _ _).append _
    exact hbegins.ne hindent (by decide) rfl
  · exact absurd hbegins (by decide)

/-- The page sizes of the description are the first and the last one, or 10 and 50. -/
theorem filter_limits (e : Entity) :
    (listDescriptor e).filter (fun line => BeginsWith "        static constexpr uint16_t " line) =
      linesIf e.hasList [limitLine "defaultLimit" (e.tiers.head?.getD 10),
        limitLine "maxLimit" (e.tiers.getLast?.getD 50)] := by
  cases h : e.hasList with
  | true =>
    have hopening : ¬BeginsWith "        static constexpr uint16_t " listOpening := fun h =>
      h.ne_ofList (by decide) rfl
    have hclose : ¬BeginsWith "        static constexpr uint16_t " "    \x7d;" := fun h =>
      h.ne_ofList (by decide) rfl
    have hempty : ¬BeginsWith "        static constexpr uint16_t " "" := fun h =>
      h.ne_ofList (by decide) rfl
    have htuple : ∀ name items, (entryTuple name items).filter
        (fun line => BeginsWith "        static constexpr uint16_t " line) = [] := fun name items =>
      List.filter_eq_nil_iff.2 fun line hline => by
        simpa using not_beginsWith_entryTuple name items line hline
    simp only [listDescriptor_of_hasList h, List.filter_append, htuple, limitLines,
      List.filter_cons, hopening, hclose, hempty, beginsWith_limitLine, decide_true, decide_false,
      if_true, Bool.false_eq_true, if_false, List.filter_nil, List.nil_append]
    rfl
  | false =>
    rw [listDescriptor_of_not h]
    rfl

/-! ### The whole description -/

/-- The description stands in the generated header as it is. -/
theorem listDescriptor_isInfix (e : Entity) (names : SourceNames) :
    listDescriptor e <:+: headerLines e names := by
  have hsetOff : ∀ lines : List String, lines <:+: setOff lines := by
    intro lines
    cases lines with
    | nil => exact List.infix_rfl
    | cons line lines => exact (List.suffix_cons _ _).isInfix
  have hstruct : listDescriptor e <:+: mappingStruct e :=
    (hsetOff _).trans (List.infix_append _ _ _)
  have hheader : mappingStruct e <:+: headerLines e names := by
    unfold headerLines
    simp only [List.append_assoc]
    exact (List.infix_append' _ _ _).trans
      ((List.suffix_append _ _).trans (List.suffix_append _ _)).isInfix
  exact hstruct.trans hheader

end Mapping

open Mapping

/-- **Lists are described whole, whatever the order of the filters.**  The filters are sorted by
parameter and member, byte by byte, and stably; entities that differ in the order of their filters
only have one description, if no two filters have one parameter and member.  The description holds
one item for each filter, in this order, and one for each sort key, as they come.  In a header whose
members have names of their own, the items are those of the members: each refers to its member and
to the member's column, and an operator is given unless it is equality.  The description, the
included headers and the alias stand in a generated header together, when there is a filter, a sort
key or a page size; and the page sizes are the first and the last one, or 10 and 50. -/
theorem listDescriptor_faithful (e : Entity) :
    (e.sortedFilters.Perm e.filters ∧ e.sortedFilters.Pairwise Filter.NotAfter ∧
      ∀ k, e.sortedFilters.filter (fun f => f.key = k) = e.filters.filter fun f => f.key = k) ∧
    (∀ e', e.DifferInFilterOrder e' → (e.filters.map Filter.key).Nodup →
      listDescriptor e = listDescriptor e') ∧
    (tupleItems "filters" (listDescriptor e) = e.sortedFilters.map (filterEntry e) ∧
      tupleItems "sorts" (listDescriptor e) = e.sorts.map (sortEntry e)) ∧
    (∀ source file, .ok e ∈ entities source file → e.HasDistinctNames →
      (tupleItems "filters" (listDescriptor e)).Perm
          (e.members.flatMap fun m => m.tags.filters.map (boundFilter e m)) ∧
        tupleItems "sorts" (listDescriptor e) =
          e.members.flatMap fun m => m.tags.sorts.map (boundSort e m)) ∧
    (∀ names, listDescriptor e <:+: headerLines e names ∧
      (headerLines e names).filter (fun line => line ∈ listMarks e) =
        if e.filters = [] ∧ e.sorts = [] ∧ e.tiers = [] then [] else listMarks e) ∧
    (¬(e.filters = [] ∧ e.sorts = [] ∧ e.tiers = []) →
      (listDescriptor e).filter (fun line => BeginsWith "        static constexpr uint16_t " line) =
        [limitLine "defaultLimit" (e.tiers.head?.getD 10),
          limitLine "maxLimit" (e.tiers.getLast?.getD 50)]) := by
  refine ⟨⟨e.sortedFilters_perm, e.pairwise_sortedFilters, e.filter_sortedFilters⟩,
    fun e' h hkeys => listDescriptor_congr h hkeys,
    ⟨tupleItems_filters e, tupleItems_sorts e⟩, fun source file he hd => ⟨?_, ?_⟩,
    fun names => ⟨listDescriptor_isInfix e names, ?_⟩, fun hlist => ?_⟩
  · rw [tupleItems_filters]
    refine (e.sortedFilters_perm.map _).trans (List.Perm.of_eq ?_)
    rw [Entity.filters, List.map_flatMap]
    refine List.flatMap_congr fun m hm => List.map_congr_left fun f hf => ?_
    exact filterEntry_eq_boundFilter hd hm ((Entity.field_of_mem_entities he hm).1 f hf)
  · rw [tupleItems_sorts, Entity.sorts, List.map_flatMap]
    refine List.flatMap_congr fun m hm => List.map_congr_left fun k hk => ?_
    exact sortEntry_eq_boundSort hd hm ((Entity.field_of_mem_entities he hm).2 k hk)
  · rw [filter_headerLines, linesIf]
    simp only [← hasList_eq_false_iff]
    cases e.hasList <;> rfl
  · rw [filter_limits, linesIf, if_pos]
    rw [← hasList_eq_false_iff] at hlist
    simpa using hlist

/-- A header with visits that are filtered in two ways. -/
def visitSource : List Char :=
  ("// @relais table=visits\n// @relais_list limits=25,100\nstruct Visit \x7b\n    int64_t id;\n" ++
    "    int32_t room; // @relais column=room_id filterable filterable:floor:ge\n" ++
    "    int64_t at; // @relais sortable:asc\n\x7d;\n").toList

/-- Its class, with the filters in some order. -/
def visit (filters : List Filter) : Entity where
  className := "Visit"
  scope := ""
  table := "visits"
  model := none
  members := [⟨"id", "int64_t", "", 4, {}⟩,
    ⟨"room", "int32_t", "", 5, { column := some "room_id", filters := filters }⟩,
    ⟨"at", "int64_t", "", 6, { sorts := [⟨"at", "at", .asc⟩] }⟩]
  enums := []
  readOnly := false
  tiers := [25, 100]
  entityName := "Visit"
  hasStructMeta := false
  file := "Visit.h"
  line := 3

theorem visit_mem_entities :
    .ok (visit [⟨"room", "room", .eq⟩, ⟨"floor", "room", .ge⟩]) ∈
      entities visitSource "Visit.h" := by
  have hsource : visitSource = _ :=
    toList_append_of_eq
      (toList_append_of_eq String.toList_ofList String.toList_ofList)
      String.toList_ofList
  rw [hsource]
  decide +kernel

/-- The filters of visits are described with the member and its column, in one order. -/
theorem listDescriptor_faithful_visit :
    let e := visit [⟨"room", "room", .eq⟩, ⟨"floor", "room", .ge⟩]
    .ok e ∈ entities visitSource "Visit.h" ∧
    listDescriptor e = listDescriptor (visit [⟨"floor", "room", .ge⟩, ⟨"room", "room", .eq⟩]) ∧
    (tupleItems "filters" (listDescriptor e)).Perm
      [declScope ++ "::Filter<\"room\", &Visit::room, \"room_id\">\x7b\x7d",
        declScope ++ "::Filter<\"floor\", &Visit::room, \"room_id\", " ++ declScope ++
          "::Op::GE>\x7b\x7d"] ∧
    (headerLines e ⟨"Visit.h", "Visit.h"⟩).filter (fun line => line ∈ listMarks e) = listMarks e ∧
    (listDescriptor e).filter (fun line => BeginsWith "        static constexpr uint16_t " line) =
      [limitLine "defaultLimit" 25, limitLine "maxLimit" 100] := by
  intro e
  obtain ⟨-, horder, -, hmembers, hmarks, hlimits⟩ := listDescriptor_faithful e
  have hfilters : e.filters ≠ [] := by decide
  refine ⟨visit_mem_entities, horder _ ?_ (by decide), ?_, ?_, hlimits fun h => hfilters h.1⟩
  · exact ⟨rfl, fun _ => rfl, rfl, rfl, List.Perm.swap _ _ _⟩
  · refine (hmembers _ _ visit_mem_entities (by decide)).1.trans (List.Perm.of_eq ?_)
    decide +kernel
  · rw [(hmarks _).2, if_neg fun h => hfilters h.1]

end RowMapping
