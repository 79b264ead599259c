import RowMapping.Proofs.Kinds
import RowMapping.Proofs.ReadingCode
import RowMapping.Proofs.Update
/-!
# Nothing is null and null is nothing

A member of a type `std::optional<…>` may be empty.  When it is, the functions that bind values bind
null for it, and when its column is null, the function that reads a row leaves it empty.  There are
two exceptions.  The code for a JSON text that a member holds asks neither question, and the code
for a value that is stored as JSON or as an enumerator does not empty a member that has an initial
value.

* `Member.isOptional_iff`: the types that are meant;
* `Entity.tests_readStep`: the code that asks whether a column is null;
* `Entity.IsNew`, `Entity.read_of_isNew`: what null leaves in a new object;
* `Entity.parameter?_of_empty`: what is bound for an empty member;
* `filter_fieldInfo`: the members that are described as nullable;
* `null_round_trip`: all of these;
* `exists_null_not_read`: the two exceptions.
-/

namespace RowMapping

open Text Mapping

/-- A member may be empty if its type is spelled so. -/
theorem Member.isOptional_iff (m : Member) :
    m.isOptional = true ↔ ∃ inner, m.type = "std::optional<" ++ inner ++ ">" := by
  have hclose : ">".toList = ['>'] := rfl
  unfold isOptional optionalInner?
  constructor
  · intro h
    split at h
    · cases h
    next rest hrest =>
    split at h
    · next hlast =>
      obtain ⟨inner, rfl⟩ := List.getLast?_eq_some_iff.1 hlast
      refine ⟨String.ofList inner, ?_⟩
      rw [← String.toList_inj, isPrefixOf?_eq_some_iff.1 hrest]
      simp [hclose]
    · cases h
  · rintro ⟨inner, htype⟩
    have hrest : "std::optional<".toList.isPrefixOf? m.type.toList =
        some (inner.toList ++ ['>']) := by
      rw [isPrefixOf?_eq_some_iff, htype]
      simp [hclose]
    rw [hrest]
    simp

/-! ### Reading null -/

namespace Entity

variable {e : Entity} {m : Member}

/-- The code for a member asks whether the column is null, unless the member holds a JSON text. -/
theorem tests_readStep (hd : e.HasDistinctNames) (hm : m ∈ e.members) (hopt : m.isOptional = true) :
    (e.readStep m).code.tests m.name = decide (e.kindOf m ≠ .rawJson) := by
  rw [readStep, carrier_eq_of_kindOf hd hm, hopt]
  cases hkind : e.kindOf m with
  | json => simp [ReadStep.code, ReadCode.tests]
  | rawJson => rfl
  | plain => simp [ReadStep.code, ReadCode.tests]
  | enumeration =>
    obtain ⟨mapping, hmapping⟩ := exists_enumFor?_of_kindOf hkind
    simp [hmapping, ReadStep.code, ReadCode.tests]

variable {V : Type} (r : RowReader V)

/-- By the kind of a member, null empties it or leaves it as it was in the object. -/
theorem contentOfNull_eq (hd : e.HasDistinctNames) (hm : m ∈ e.members)
    (hkind : e.kindOf m ≠ .rawJson) (content : Option V) :
    e.contentOfNull r m content = if e.kindOf m = .plain then none else content := by
  rw [contentOfNull, carrier_eq_of_kindOf hd hm]
  cases h : e.kindOf m with
  | json => rfl
  | rawJson => exact absurd h hkind
  | plain => rfl
  | enumeration =>
    obtain ⟨mapping, hmapping⟩ := exists_enumFor?_of_kindOf h
    rw [hmapping]
    rfl

/-- In a new object a member that may be empty and has no initial value is empty. -/
def IsNew (e : Entity) (object : Contents V) : Prop :=
  ∀ m ∈ e.members, m.isOptional = true → m.initial = "" → object m.name = none

/-- Null leaves a member of a new object empty, if it is read as a value or has no initial value. -/
theorem read_of_isNew (hd : e.HasDistinctNames) (hm : m ∈ e.members) (hopt : m.isOptional = true)
    (hkind : e.kindOf m ≠ .rawJson) (hempty : e.kindOf m = .plain ∨ m.initial = "")
    {object : Contents V} (hnew : e.IsNew object) (hnull : r.isNull m.name = true) :
    e.read r object m.name = none := by
  rw [read_of_isNull r hd hm hopt hnull, contentOfNull_eq r hd hm hkind]
  split
  · rfl
  · next hplain => exact hnew m hm hopt (hempty.resolve_left hplain)

/-! ### Writing nothing -/

variable [DecidableEq V] (v : Values V)

/-- For an empty member null is bound, or the member itself, which holds nothing. -/
theorem parameter?_of_empty (hd : e.HasDistinctNames) (hm : m ∈ e.members)
    (hopt : m.isOptional = true) (hkind : e.kindOf m ≠ .rawJson)
    (hempty : v.isPresent m.name = false) :
    e.parameter? v m = some (if e.kindOf m = .plain then .value m.name else .null) := by
  have habsent : isAbsent v m = true := by rw [isAbsent, hopt, hempty]; rfl
  rw [parameter?, carrier_eq_of_kindOf hd hm]
  cases h : e.kindOf m with
  | json => simp [habsent]
  | rawJson => exact absurd h hkind
  | plain => rfl
  | enumeration =>
    obtain ⟨mapping, hmapping⟩ := exists_enumFor?_of_kindOf h
    simp [hmapping, habsent]

end Entity

/-! ### Members that are described as nullable -/

namespace Mapping

/-- The line that opens the description of a member. -/
def infoOpening (mapping member : String) : String :=
  let traits := s!"{mapping}::TraitsType"
  s!"struct {traits}::FieldInfo<{traits}::Field::{member}> \x7b"

/-- The line that tells whether a member is nullable. -/
def nullableLine (isNullable : Bool) : String :=
  s!"    static constexpr bool is_nullable = {isNullable};"

/-- The line opens a description or tells of nullability. -/
def TellsNullable (line : String) : Prop :=
  BeginsWith "struct " line ∨ BeginsWith "    static constexpr bool is_nullable = " line

instance : DecidablePred TellsNullable := fun line =>
  inferInstanceAs (Decidable (BeginsWith "struct " line ∨
    BeginsWith "    static constexpr bool is_nullable = " line))

theorem filter_lines (mapping : String) (f : FieldTraits) :
    (f.lines mapping).filter (fun line => TellsNullable line) =
      [infoOpening mapping f.member, nullableLine f.isNullable] := by
  have hopening : TellsNullable (infoOpening mapping f.member) := by
    left
    unfold infoOpening
    repeat' with_reducible apply BeginsWith.append
    exact beginsWith_ofList.2 (by decide)
  have hnullable : TellsNullable (nullableLine f.isNullable) := by
    right
    unfold nullableLine
    repeat' with_reducible apply BeginsWith.append
    exact beginsWith_ofList.2 (by decide)
  have hother : ∀ start ∈ ["    using ", "    static constexpr const ",
      "    static constexpr bool is_timestamp"], ∀ line, BeginsWith start line →
      ¬TellsNullable line := by
    intro start hstart line hline htells
    simp only [List.mem_cons, List.not_mem_nil, or_false] at hstart
    rcases htells with h | h <;> rcases hstart with rfl | rfl | rfl <;>
      exact hline.ne h (by decide) rfl
  have htype : ¬TellsNullable s!"    using value_type = {f.valueType};" := by
    refine hother "    using " (by decide) _ ?_
    repeat' with_reducible apply BeginsWith.append
    exact beginsWith_ofList.2 (by decide)
  have hcolumn (column : String) :
      ¬TellsNullable s!"    static constexpr const char* column_name = {column};" := by
    refine hother "    static constexpr const " (by decide) _ ?_
    repeat' with_reducible apply BeginsWith.append
    exact beginsWith_ofList.2 (by decide)
  have htime : ¬TellsNullable s!"    static constexpr bool is_timestamp = {f.isTimestamp};" := by
    refine hother "    static constexpr bool is_timestamp" (by decide) _ ?_
    repeat' with_reducible apply BeginsWith.append
    exact beginsWith_ofList.2 (by decide)
  have hspelled : ∀ {line : List Char}, ¬['s'] <+: line ∧ ¬[' '] <+: line →
      ¬TellsNullable (String.ofList line) := by
    rintro line ⟨hstruct, hblank⟩ (h | h)
    · exact hstruct (List.IsPrefix.trans (by decide) (beginsWith_ofList.1 h))
    · exact hblank (List.IsPrefix.trans (by decide) (beginsWith_ofList.1 h))
  have htemplate : ¬TellsNullable "template<>" := hspelled (by decide)
  have hclose : ¬TellsNullable "\x7d;" := hspelled (by decide)
  have hempty : ¬TellsNullable "" := hspelled (by decide)
  change ["template<>", infoOpening mapping f.member, _, _, _, nullableLine f.isNullable, "\x7d;",
    ""].filter (fun line => TellsNullable line) = _
  simp only [List.filter_cons, htemplate, hopening, htype, hcolumn, htime, hnullable, hclose,
    hempty, decide_true, decide_false, if_true, Bool.false_eq_true, if_false, List.filter_nil]

/-- The descriptions tell of each member that can be changed alone whether it may be empty. -/
theorem filter_fieldInfo (e : Entity) (mapping : String) :
    (fieldInfo e mapping).filter (fun line => TellsNullable line) =
      if e.readOnly then [] else e.updateableMembers.flatMap fun m =>
        [infoOpening mapping m.name, nullableLine m.isOptional] := by
  rw [fieldInfo, List.filter_flatMap]
  simp only [filter_lines]
  unfold Entity.fieldTraits
  split
  · rfl
  · rw [List.flatMap_map]

end Mapping

/-! ### Both ways -/

namespace Entity

variable {e : Entity} {m : Member}

/-- The code that reads a member asks whether its column is null, and null empties the member or
leaves it as it was in the object; it stays empty in a new object where it has no initial value. -/
structure ReadsNull (e : Entity) (m : Member) : Prop where
  tests : (e.readStep m).code.tests m.name = true
  content : ∀ (V : Type) (r : RowReader V) (object : Contents V), r.isNull m.name = true →
    e.read r object m.name = if e.kindOf m = .plain then none else object m.name
  empty : e.kindOf m = .plain ∨ m.initial = "" →
    ∀ (V : Type) (r : RowReader V) (object : Contents V), e.IsNew object →
      r.isNull m.name = true → e.read r object m.name = none

/-- The code that binds a member binds null when the member is empty, or the member itself; as it
runs to its end, it does not use a value that is not there. -/
structure BindsNull (e : Entity) (m : Member) : Prop where
  run : ∀ (V : Type) [DecidableEq V] (v : Values V) (s : Frame), v.isPresent m.name = false →
    ∃ buffer, (e.writeStep m).code.run v s =
      some ⟨buffer, s.bound ++ [if e.kindOf m = .plain then .value m.name else .null]⟩
  parameter : ∀ (V : Type) [DecidableEq V] (v : Values V), v.isPresent m.name = false →
    e.parameter? v m = some (if e.kindOf m = .plain then .value m.name else .null)

theorem readsNull (hd : e.HasDistinctNames) (hm : m ∈ e.members) (hopt : m.isOptional = true)
    (hkind : e.kindOf m ≠ .rawJson) : e.ReadsNull m where
  tests := by rw [tests_readStep hd hm hopt, decide_eq_true_iff]; exact hkind
  content V r object hnull := by
    rw [read_of_isNull r hd hm hopt hnull, contentOfNull_eq r hd hm hkind]
  empty hempty V r object hnew hnull := read_of_isNew r hd hm hopt hkind hempty hnew hnull

theorem bindsNull (hd : e.HasDistinctNames) (hm : m ∈ e.members) (hopt : m.isOptional = true)
    (hkind : e.kindOf m ≠ .rawJson) : e.BindsNull m where
  run V _ v s hempty := by
    obtain ⟨buffer, hrun⟩ := run_code_writeStep v e m s
    rw [parameter?_of_empty v hd hm hopt hkind hempty] at hrun
    exact ⟨buffer, hrun⟩
  parameter V _ v hempty := parameter?_of_empty v hd hm hopt hkind hempty

/-- **Null is bound for an empty member, and an empty member is read from null.**  For a member of a
type `std::optional<…>` that is no JSON text, the code that reads it asks whether the column is
null.  Null empties a member that is read as a value.  One that is stored as JSON or as an
enumerator is left as it was in the new object, so it is empty unless it has an initial value.  The
code that binds an empty member binds null or the member itself and does not use the value that is
not there, and so do the functions for a new and for a changed row.  The code for a JSON text that a
member holds is one line each way, without a test.  And the members that can be changed alone are
described as nullable when they may be empty. -/
theorem null_round_trip (hd : e.HasDistinctNames) :
    (∀ m : Member, m.isOptional = true ↔ ∃ inner, m.type = "std::optional<" ++ inner ++ ">") ∧
    e.readSteps.flatMap ReadStep.lines =
      (e.readSteps.map ReadStep.code).flatMap (ReadCode.lines "        ") ∧
    (e.insertBody.code.lines = e.insertBody.lines ∧ e.updateBody.code.lines = e.updateBody.lines) ∧
    (∀ m ∈ e.members, m.isOptional = true → e.kindOf m ≠ .rawJson → e.ReadsNull m ∧ e.BindsNull m) ∧
    (∀ (V : Type) [DecidableEq V] (v : Values V),
      e.insertBody.code.run v = some (e.givenMembers.filterMap (e.parameter? v)) ∧
      e.updateBody.code.run v = some (e.setMembers.filterMap (e.parameter? v))) ∧
    (∀ m ∈ e.members, e.kindOf m = .rawJson → (e.readStep m).code.tests m.name = false ∧
      (e.readStep m).lines = [s!"        e.{m.name}.str = row.get<std::string>(Col::{m.name});"] ∧
      (e.writeStep m).lines = [s!"        p.push(e.{m.name}.str);"]) ∧
    ∀ mapping, (fieldInfo e mapping).filter (fun line => TellsNullable line) =
      if e.readOnly then [] else e.updateableMembers.flatMap fun m =>
        [infoOpening mapping m.name, nullableLine m.isOptional] := by
  refine ⟨Member.isOptional_iff, e.lines_readSteps,
    ⟨ParamsBody.lines_code _, ParamsBody.lines_code _⟩,
    fun m hm hopt hkind => ⟨readsNull hd hm hopt hkind, bindsNull hd hm hopt hkind⟩,
    fun V _ v => ⟨run_code_insertBody v hd, run_code_updateBody v hd⟩, fun m hm hkind => ?_,
    filter_fieldInfo e⟩
  obtain ⟨hread, hwrite⟩ := steps_of_rawJson hd hm hkind
  rw [hread, hwrite]
  exact ⟨rfl, rfl, rfl⟩

/-- A header with drafts; three members may be empty, and one of them has an initial value. -/
def draftSource : List Char :=
  ("// @relais table=drafts\nstruct Draft \x7b\n    int64_t id;\n" ++
    "    std::optional<std::string> note;\n    std::optional<glz::raw_json> extra;\n" ++
    "    std::optional<Level> level = Level::Low; // @relais enum=lo:Low\n\x7d;\n").toList

/-- Its class. -/
def draft : Entity where
  className := "Draft"
  scope := ""
  table := "drafts"
  model := none
  members := [⟨"id", "int64_t", "", 3, {}⟩, ⟨"note", "std::optional<std::string>", "", 4, {}⟩,
    ⟨"extra", "std::optional<glz::raw_json>", "", 5, {}⟩,
    ⟨"level", "std::optional<Level>", "Level::Low", 6, { pairs := [⟨"lo", "Low"⟩] }⟩]
  enums := [⟨"level", "Level", [⟨"lo", "Low"⟩], false⟩]
  readOnly := false
  tiers := []
  entityName := "Draft"
  hasStructMeta := false
  file := "Draft.h"
  line := 2

theorem draft_mem_entities : .ok draft ∈ entities draftSource "Draft.h" := by
  have hsource : draftSource = _ :=
    toList_append_of_eq
      (toList_append_of_eq String.toList_ofList String.toList_ofList)
      String.toList_ofList
  rw [hsource]
  decide +kernel

/-- A row in which everything is null. -/
def nullRow : RowReader String where
  isNull _ := true
  text _ := ""
  value _ _ := ""
  value? _ _ := none
  parse _ _ := none
  parseInto _ content _ := content
  keepText _ _ text := some text
  constant _ name := name
  value?_of_isNull _ _ _ := rfl

/-- A new draft: its level has an initial value. -/
def newDraft : Contents String := fun name => if name = "level" then some "Low" else none

theorem isNew_newDraft : draft.IsNew newDraft := by
  have hlevel : ∀ m ∈ draft.members, m.initial = "" → m.name ≠ "level" := by decide
  intro m hm _ hinitial
  exact if_neg (hlevel m hm hinitial)

/-- A draft in which everything that may be empty is. -/
def emptyDraft : Values String where
  isPresent _ := false
  enumerator _ := ""
  constant _ name := name

/-- Null empties the note of a draft; for an empty note the note itself is bound, and for an empty
level null. -/
theorem null_round_trip_draft : draft.HasDistinctNames ∧
    .ok draft ∈ entities draftSource "Draft.h" ∧
    draft.read nullRow newDraft "note" = none ∧
    (∃ m ∈ draft.members, m.name = "note" ∧
      draft.parameter? emptyDraft m = some (.value "note")) ∧
    ∃ m ∈ draft.members, m.name = "level" ∧ draft.parameter? emptyDraft m = some .null := by
  have hd : draft.HasDistinctNames := by decide
  obtain ⟨-, -, -, hboth, -⟩ := null_round_trip hd
  have hnote : draft.members[1] ∈ draft.members := List.getElem_mem _
  have hlevel : draft.members[3] ∈ draft.members := List.getElem_mem _
  obtain ⟨hread, hbind⟩ := hboth _ hnote (by decide) (by decide)
  obtain ⟨-, hbind'⟩ := hboth _ hlevel (by decide) (by decide)
  refine ⟨hd, draft_mem_entities, ?_, ⟨_, hnote, rfl, ?_⟩, _, hlevel, rfl, ?_⟩
  · exact hread.empty (.inl (by decide)) _ nullRow newDraft isNew_newDraft rfl
  · exact hbind.parameter _ emptyDraft rfl
  · exact hbind'.parameter _ emptyDraft rfl

/-- **Two members that null does not empty.**  The level of a draft keeps its initial value when its
column is null, and the code for the JSON text in another member does not ask. -/
theorem exists_null_not_read : .ok draft ∈ entities draftSource "Draft.h" ∧
    draft.HasDistinctNames ∧
    (∃ m ∈ draft.members, m.type = "std::optional<Level>" ∧ draft.IsNew newDraft ∧
      nullRow.isNull m.name = true ∧ draft.read nullRow newDraft m.name = some "Low") ∧
    ∃ m ∈ draft.members, m.type = "std::optional<glz::raw_json>" ∧
      (draft.readStep m).code.tests m.name = false ∧
      (draft.readStep m).lines =
        ["        e.extra.str = row.get<std::string>(Col::extra);"] ∧
      (draft.writeStep m).lines = ["        p.push(e.extra.str);"] := by
  refine ⟨draft_mem_entities, by decide, ?_, ?_⟩
  · refine ⟨draft.members[3], List.getElem_mem _, by decide, isNew_newDraft, rfl, ?_⟩
    have hread := read_of_isNull nullRow (e := draft) (m := draft.members[3]) (by decide)
      (List.getElem_mem _) (by decide) rfl newDraft
    rw [hread]
    decide
  · exact ⟨draft.members[2], List.getElem_mem _, by decide, by decide, by decide, by decide⟩

end Entity

end RowMapping
