import RowMapping.Failure
import RowMapping.Proofs.EnumResolution
import RowMapping.Proofs.ScanBounds
/-!
# Compiling with checked reads

A header can be compiled by passes that check what they read: the first member of the primary key,
and the part of a type between the angle brackets of `std::optional<…>`.  No check fails, and the
passes write what the unchecked ones write.

* `Checked.valueType`: the type of a member's value, as a slice of its type;
* `Checked.keyConstants`, `keyFunction`, `sqlStruct`, `fieldInfo`, `fromRow`, `includeLines`: the
  parts of a generated header that need such reads;
* `Checked.generate`: the generated header;
* `Checked.resolve`, `Checked.compile`: from a header to its generated headers.

Main statements: `Checked.generate_eq`, an entity is always written; `Checked.compile_in_bounds`,
the scan and all passes.
-/

namespace RowMapping

open Text Mapping

/-! ### Passes over lists -/

section

variable {α β ε : Type}

theorem mapM_eq_ok {f : α → Except ε β} {g : α → β} (h : ∀ a, f a = .ok (g a)) (l : List α) :
    l.mapM f = .ok (l.map g) := by
  rw [show f = fun a => pure (g a) from funext h]
  exact List.mapM_pure

theorem foldlM_eq_ok {f : β → α → Except ε β} {g : β → α → β} (h : ∀ b a, f b a = .ok (g b a))
    (l : List α) (b : β) : l.foldlM f b = .ok (l.foldl g b) := by
  rw [show f = fun b a => pure (g b a) from funext fun b => funext (h b)]
  exact List.foldlM_pure

end

namespace Checked

/-! ### Members -/

/-- What stands in front of the type of the value in an optional type. -/
def optionalPrefix : List Char := "std::optional<".toList

/-- The type of the member's value when it is not empty. -/
def valueType (m : Member) : Except Fault String :=
  if optionalPrefix.isPrefixOf m.type.toList && m.type.toList.getLast? == some '>' then do
    let stop ← decrement (byteLength m.type.toList)
    let inner ← checkedSlice (byteLength optionalPrefix) stop m.type.toList
    .ok (String.ofList (trim inner))
  else .ok m.type

theorem optionalInner?_eq (type : List Char) : Member.optionalInner? type =
    match optionalPrefix.isPrefixOf? type with
    | none => none
    | some rest => if rest.getLast? = some '>' then some (trim rest.dropLast) else none := rfl

theorem getLast?_optionalPrefix : optionalPrefix.getLast? = some '<' := by decide

/-- The slice of an optional type is in bounds: the prefix does not reach the last bracket. -/
theorem valueType_eq (m : Member) : valueType m = .ok m.valueType := by
  have hopen := getLast?_optionalPrefix
  rw [valueType, Member.valueType, optionalInner?_eq]
  generalize optionalPrefix = start at hopen
  generalize m.type.toList = type
  cases hprefix : start.isPrefixOf? type with
  | none =>
    have hnot : start.isPrefixOf type = false := Bool.eq_false_iff.2 fun h =>
      not_prefix_of_isPrefixOf? hprefix (List.isPrefixOf_iff_prefix.1 h)
    rw [hnot, Bool.false_and, if_neg Bool.false_ne_true]
  | some rest =>
    obtain rfl : type = start ++ rest := isPrefixOf?_eq_some_iff.1 hprefix
    have hstarts : start.isPrefixOf (start ++ rest) = true :=
      List.isPrefixOf_iff_prefix.2 (List.prefix_append _ _)
    have hlast : (start ++ rest).getLast? = some '>' ↔ rest.getLast? = some '>' := by
      rw [List.getLast?_append, hopen]
      cases rest.getLast? <;> simp
    rw [hstarts, Bool.true_and]
    by_cases hclose : rest.getLast? = some '>'
    · obtain ⟨inner, rfl⟩ := List.getLast?_eq_some_iff.1 hclose
      have hlength : byteLength (start ++ (inner ++ ['>'])) = byteLength (start ++ inner) + 1 := by
        rw [← List.append_assoc, byteLength_append]
        rfl
      have hslice := checkedSlice_append start inner ['>']
      rw [List.append_assoc] at hslice
      rw [if_pos (beq_iff_eq.2 (hlast.2 hclose)), hlength, decrement, ok_bind, hslice, ok_bind]
      simp only [hclose, if_true, List.dropLast_concat]
    · rw [if_neg fun h => hclose (hlast.1 (beq_iff_eq.1 h))]
      simp only [hclose, if_false]

/-! ### Emitters -/

/-- The names of the key columns. -/
def keyConstants (e : Entity) : Except Fault (List String) := do
  let firstKey ← elementAt e.primaryKeys 0
  let first := quote (e.columnOf firstKey)
  let all := ", ".intercalate (e.keyColumns.map quote)
  let count := e.keyColumns.length
  .ok (s!"    static constexpr const char* primary_key_column = {first};" ::
    if e.isComposite then
      [s!"    static constexpr std::array<const char*, {count}> primary_key_columns = \x7b{all}\x7d;"]
    else [])

/-- The key of an object: a member, or the tuple of several. -/
def keyFunction (e : Entity) : Except Fault (List String) := do
  let members := ", ".intercalate (e.primaryKeys.map fun k => s!"e.{k}")
  let value ← if e.isComposite then .ok s!"std::make_tuple({members})"
    else (elementAt e.primaryKeys 0).map fun firstKey => s!"e.{firstKey}"
  .ok ["    template<typename Entity>",
    "    static auto key(const Entity& e) noexcept \x7b",
    s!"        return {value};",
    "    \x7d"]

/-- The element type that the array for a key member is cast to. -/
def keyElement? (e : Entity) (name : String) : Except Fault (Option String) :=
  match e.member? name with
  | none => .ok none
  | some m => (valueType m).map Sql.arrayElement?

/-- The row has one of the keys that array parameters give. -/
def batchCondition (e : Entity) : Except Fault Sql.Condition :=
  match e.keyColumns with
  | [column] => .ok (.oneOf column 1)
  | columns => (e.primaryKeys.mapM (keyElement? e)).map fun elements =>
    .tupleOf columns (elements.mapIdx fun i element => ⟨i + 1, element⟩)

/-- The constants that hold the statements. -/
def sqlStruct (e : Entity) : Except Fault (List String) := do
  let batch ← batchCondition e
  let s := { e.statements with selectByKeys := .select e.columnNames e.table batch }
  let texts :=
    [("returning_columns", Sql.commaList s.returning),
      ("select_by_pk", s.selectByKey.render),
      ("select_by_pks", s.selectByKeys.render),
      ("insert", s.insert.render)] ++
    (s.update.map fun u => ("update", u.render)).toList ++
    [("delete_by_pk", s.deleteByKey.render)] ++
    (s.deleteWithPartition.map fun d => ("delete_with_partition", d.render)).toList
  .ok ("    struct SQL \x7b" :: texts.flatMap (fun (name, text) => sqlConstant name text) ++
    ["    \x7d;"])

/-- The traits of a member that can be changed. -/
def memberTraits (e : Entity) (m : Member) : Except Fault FieldTraits := do
  let type ← if (e.enumFor? m.name).isSome || e.isRawJson m then .ok "std::string" else valueType m
  .ok {
    member := m.name
    valueType := type
    column := m.column
    isTimestamp := e.isTimestamp m.name
    isNullable := m.isOptional }

/-- The specializations for the members that can be changed. -/
def fieldInfo (e : Entity) (mapping : String) : Except Fault (List String) := do
  let traits ← if e.readOnly then .ok [] else e.updateableMembers.mapM (memberTraits e)
  .ok (traits.flatMap (FieldTraits.lines mapping))

/-- The step that reads a member. -/
def readStep (e : Entity) (m : Member) : Except Fault ReadStep :=
  match e.carrier m, m.isOptional with
  | .json, false => .ok (.json m.name)
  | .json, true => .ok (.jsonOrNull m.name)
  | .rawJson, _ => .ok (.text m.name)
  | .enumeration type pairs, false => .ok (.choice m.name type pairs)
  | .enumeration type pairs, true => .ok (.choiceOrNull m.name type pairs)
  | .plain, false => .ok (.value m.name m.type)
  | .plain, true => (valueType m).map (.valueOrNull m.name)

/-- The function that reads a row. -/
def fromRow (e : Entity) : Except Fault (List String) := do
  let steps ← e.orderedMembers.mapM (readStep e)
  .ok (["    template<typename Entity>",
    "    static std::optional<Entity> fromRow(const jcailloux::relais::io::PgResult::Row& row) \x7b",
    "        Entity e;"] ++
  steps.flatMap ReadStep.lines ++
  ["        return e;",
    "    \x7d"])

/-- The headers that the generated one includes. -/
def includeLines (e : Entity) (names : SourceNames) : Except Fault (List String) := do
  let types ← e.members.mapM valueType
  .ok (["#include <cstdint>",
    "#include <optional>",
    "#include <string>"] ++
  linesIf e.isComposite
    ["#include <array>",
      "#include <tuple>"] ++
  linesIf (types.any fun type => type == "std::vector<char>")
    ["#include <vector>"] ++
  linesIf (!e.jsonFields.isEmpty)
    ["#include <glaze/glaze.hpp>"] ++
  ["#include <jcailloux/relais/wrapper/EntityWrapper.h>",
    s!"#include \"{names.includePath}\""] ++
  linesIf e.hasList
    ["#include <jcailloux/relais/wrapper/ListWrapper.h>",
      "#include <jcailloux/relais/list/decl/FilterDescriptor.h>",
      "#include <jcailloux/relais/list/decl/SortDescriptor.h>"])

/-- The mapping of an entity. -/
def mappingStruct (e : Entity) : Except Fault (List String) := do
  let constants ← keyConstants e
  let sql ← sqlStruct e
  let key ← keyFunction e
  let read ← fromRow e
  .ok ([s!"struct {e.mappingName} \x7b",
    s!"    static constexpr bool read_only = {e.readOnly};",
    s!"    static constexpr const char* table_name = {Text.quote e.table};"] ++
  constants ++
  ["", columnEnum e] ++
  setOff sql ++
  setOff (traitsType e) ++
  setOff key ++
  setOff (partitionHint e) ++
  setOff read ++
  setOff (writeParams e) ++
  setOff (glazeValue e) ++
  setOff (listDescriptor e) ++
  ["\x7d;"])

/-- The lines of the generated header. -/
def headerLines (e : Entity) (names : SourceNames) : Except Fault (List String) := do
  let includes ← includeLines e names
  let mapping ← mappingStruct e
  let info ← fieldInfo e e.mappingName
  .ok (["// GENERATED AUTOMATICALLY - DO NOT MODIFY",
    s!"// Source: {names.name}",
    "",
    "#pragma once",
    ""] ++
  includes ++
  ["",
    "namespace entity::generated \x7b",
    ""] ++
  mapping ++
  [""] ++
  info ++
  wrapperAliases e ++
  ["",
    "\x7d  // namespace entity::generated"] ++
  setOff (structMeta e) ++
  setOff (enumMetas e))

/-- The header that is generated for an entity. -/
def generate (names : SourceNames) (e : Entity) : Except Fault GeneratedHeader := do
  let lines ← headerLines e names
  .ok ⟨e.className, e.fileName, "\n".intercalate (lines ++ [""])⟩

section

variable (e : Entity)

/-- The primary key has a first member. -/
theorem firstKey_eq : elementAt e.primaryKeys 0 = .ok e.firstKey := by
  refine elementAt_eq_ok ?_
  rw [Entity.firstKey, ← List.head?_eq_getElem?, List.head?_eq_some_head e.primaryKeys_ne_nil]

theorem keyConstants_ok : keyConstants e = .ok (Mapping.keyConstants e) := by
  rw [keyConstants, firstKey_eq]
  rfl

theorem keyFunction_ok : keyFunction e = .ok (Mapping.keyFunction e) := by
  rw [keyFunction, firstKey_eq, Mapping.keyFunction]
  cases e.isComposite <;> rfl

theorem keyElement?_eq (name : String) : keyElement? e name = .ok (e.keyElement? name) := by
  rw [keyElement?, Entity.keyElement?]
  cases e.member? name with
  | none => rfl
  | some m =>
    simp only [valueType_eq]
    rfl

theorem batchCondition_eq : batchCondition e = .ok e.batchCondition := by
  rw [batchCondition, Entity.batchCondition, mapM_eq_ok (keyElement?_eq e)]
  have harrays : (e.primaryKeys.map e.keyElement?).mapIdx (fun i x => Sql.ArrayParam.mk (i + 1) x) =
      e.primaryKeys.mapIdx fun i name => ⟨i + 1, e.keyElement? name⟩ :=
    List.ext_getElem (by simp) (by simp)
  generalize e.keyColumns = columns
  rcases columns with _ | ⟨column, _ | ⟨column', columns⟩⟩
  · rw [← harrays]
    rfl
  · rfl
  · simp only [← harrays]
    rfl

theorem sqlStruct_eq : sqlStruct e = .ok (Mapping.sqlStruct e) := by
  rw [sqlStruct, batchCondition_eq]
  rfl

theorem memberTraits_eq (m : Member) : memberTraits e m = .ok
    { member := m.name
      valueType := e.changedType m
      column := m.column
      isTimestamp := e.isTimestamp m.name
      isNullable := m.isOptional } := by
  rw [memberTraits, Entity.changedType, valueType_eq]
  split <;> rfl

theorem fieldInfo_eq (mapping : String) :
    fieldInfo e mapping = .ok (Mapping.fieldInfo e mapping) := by
  rw [fieldInfo, Mapping.fieldInfo, Entity.fieldTraits, mapM_eq_ok (memberTraits_eq e)]
  split <;> rfl

theorem readStep_eq (m : Member) : readStep e m = .ok (e.readStep m) := by
  rw [readStep, Entity.readStep, valueType_eq]
  cases e.carrier m <;> cases m.isOptional <;> rfl

theorem fromRow_eq : fromRow e = .ok (Mapping.fromRow e) := by
  rw [fromRow, mapM_eq_ok (readStep_eq e)]
  rfl

theorem includeLines_eq (names : SourceNames) :
    includeLines e names = .ok (Mapping.includeLines e names) := by
  rw [includeLines, mapM_eq_ok valueType_eq, ok_bind, List.any_map]
  rfl

theorem mappingStruct_eq : mappingStruct e = .ok (Mapping.mappingStruct e) := by
  rw [mappingStruct, keyConstants_ok, sqlStruct_eq, keyFunction_ok, fromRow_eq]
  rfl

theorem headerLines_eq (names : SourceNames) :
    headerLines e names = .ok (Mapping.headerLines e names) := by
  rw [headerLines, includeLines_eq, mappingStruct_eq, fieldInfo_eq]
  rfl

/-- **Every entity is written.** -/
theorem generate_eq (names : SourceNames) : generate names e = .ok (e.generate names) := by
  rw [generate, headerLines_eq]
  rfl

end

/-! ### From a header to its generated headers -/

/-- The enum mapping that the tags of a member ask for; a member stored as JSON gets none. -/
def enumDraft? (m : Member) : Except Fault (Option EnumMapping) :=
  if m.wantsEnum && !m.isJson then
    (valueType m).map fun type => some ⟨m.name, type, m.tags.pairs, false⟩
  else .ok none

/-- The mappings with one more from the block. -/
def addClassEnum (c : DeclaredClass) (es : List EnumMapping) (given : String × List EnumPair) :
    Except Fault (List EnumMapping) :=
  match c.member? given.1 with
  | none => .ok es
  | some m =>
    if c.isJson given.1 then .ok es
    else if es.any fun e => e.field == given.1 then .ok (EnumMapping.fill given.1 given.2 es)
    else (valueType m).map fun type => es ++ [⟨given.1, type, given.2, false⟩]

/-- The mappings that the tags of members ask for, and those of the block after them. -/
def enumDrafts (c : DeclaredClass) : Except Fault (List EnumMapping) := do
  let own ← c.members.mapM enumDraft?
  c.classEnums.foldlM (addClassEnum c) (own.filterMap id)

/-- The entity of a class in a header. -/
def resolve (source : List Char) (file : String) (c : DeclaredClass) :
    Except Fault (Except UnresolvedEnum Entity) := do
  let drafts ← enumDrafts c
  .ok ((drafts.mapM (EnumMapping.resolve source c.scope file)).map fun enums => {
    className := c.name
    scope := c.scope
    table := c.table
    model := c.model?
    members := c.members
    enums
    readOnly := c.tags.contains .readOnly
    tiers := c.tiers
    entityName := c.entityName
    hasStructMeta := Specialization.occurs source c.name
    file
    line := c.line })

/-- The headers that are generated for an annotated one, or the first failure. -/
def compile (source : List Char) (file : String) (names : SourceNames) :
    Except Fault (Except Failure (List GeneratedHeader)) := do
  let classes ← scan source
  let resolved ← classes.mapM (resolve source file)
  match resolved.mapM id with
  | .error e => .ok (.error (.unresolved e))
  | .ok es => (es.mapM (generate names)).map .ok

section

variable (c : DeclaredClass) (source : List Char) (file : String)

theorem enumDraft?_eq (m : Member) : enumDraft? m = .ok m.enumDraft? := by
  rw [enumDraft?, Member.enumDraft?, valueType_eq]
  split <;> rfl

theorem addClassEnum_eq (es : List EnumMapping) (given : String × List EnumPair) :
    addClassEnum c es given = .ok (c.addClassEnum es given) := by
  rw [addClassEnum, DeclaredClass.addClassEnum]
  cases c.member? given.1 with
  | none => rfl
  | some m =>
    simp only [valueType_eq]
    split
    · rfl
    · split <;> rfl

theorem enumDrafts_eq : enumDrafts c = .ok c.enumDrafts := by
  rw [enumDrafts, mapM_eq_ok enumDraft?_eq, ok_bind, foldlM_eq_ok (addClassEnum_eq c),
    List.filterMap_map]
  rfl

theorem resolve_eq : resolve source file c = .ok (c.resolve source file) := by
  rw [resolve, enumDrafts_eq, ok_bind, DeclaredClass.resolve]
  cases c.enumDrafts.mapM (EnumMapping.resolve source c.scope file) <;> rfl

theorem compile_eq (names : SourceNames) : compile source file names =
    .ok ((RowMapping.compile source file names).mapError .unresolved) := by
  rw [compile, scan_eq, ok_bind, mapM_eq_ok (fun c => resolve_eq c source file), ok_bind,
    List.mapM_map, RowMapping.compile, allEntities]
  simp only [Function.comp_def, id]
  cases (declaredClasses source).mapM fun c => c.resolve source file with
  | error e => rfl
  | ok es =>
    simp only [mapM_eq_ok (fun e => generate_eq e names)]
    rfl

/-- **Reading a header and writing its entities ends and stays in bounds.**  Each turn of the walk
over a header, and of the loops within it, goes forward or is the last one.  The scan has no fault:
no position is out of range or out of order, and no depth that is counted down would fall below
zero.  An entity is always written, since its key has a first member and the value type of a member
can be cut out of its type.  The only failure is that of an enum mapping which has no pairs. -/
theorem compile_in_bounds (source : List Char) (file : String) (names : SourceNames) :
    (∀ s : Scanner,
      Advances s.scanTurn Scanner.InHeader.index ∧ Advances s.tagTurn Scanner.InRun.index ∧
      Advances s.namespaceTurn Scanner.InName.index ∧ Advances s.headTurn Nesting.index ∧
      Advances s.membersTurn Scanner.InBody.index ∧
      Advances s.statementTurn Scanner.InStatement.index ∧ Advances s.braceTurn Nesting.index) ∧
    (∀ code : List Token,
      Advances (attributeTurn code) Kept.index ∧ Advances (bracketTurn code) Nesting.index) ∧
    scan source = .ok (declaredClasses source) ∧
    (∀ e : Entity, elementAt e.primaryKeys 0 = .ok e.firstKey ∧
      (∀ m : Member, valueType m = .ok m.valueType) ∧ generate names e = .ok (e.generate names)) ∧
    compile source file names = .ok ((RowMapping.compile source file names).mapError .unresolved) ∧
    ∀ failure, compile source file names = .ok (.error failure) →
      ∃ c ∈ declaredClasses source, ∃ d ∈ c.enumDrafts, ∃ e,
        d.resolve source c.scope file = .error e ∧ failure = .unresolved e := by
  refine ⟨fun s => ⟨s.scanLoop.advances, s.tagLoop.advances, s.namespaceLoop.advances,
    s.headLoop.advances, s.membersLoop.advances, s.statementLoop.advances, s.braceLoop.advances⟩,
    fun code => ⟨(attributeLoop code).advances, (bracketLoop code).advances⟩, scan_eq source,
    fun e => ⟨firstKey_eq e, valueType_eq, generate_eq e names⟩, compile_eq source file names,
    fun failure h => ?_⟩
  rw [compile_eq] at h
  cases hcompile : RowMapping.compile source file names with
  | ok headers =>
    rw [hcompile] at h
    cases h
  | error e =>
    rw [hcompile] at h
    cases h
    obtain ⟨before, c, after, hclasses, -, hc⟩ := compile_eq_error_iff.1 hcompile
    have hattempts : c.attempts source file = .error e := DeclaredClass.resolve_eq_error_iff.1 hc
    obtain ⟨before', d, after', hdrafts, -, hd⟩ := mapM_eq_error_iff.1 hattempts
    exact ⟨c, by rw [hclasses]; simp, d, by rw [hdrafts]; simp, e, hd, rfl⟩

end

end Checked

end RowMapping
