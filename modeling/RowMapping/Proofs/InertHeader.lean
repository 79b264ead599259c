import RowMapping.Proofs.EntityTexts
import RowMapping.Proofs.Lines
/-!
# Generated headers are inert

A generated header is no annotated one.  What a user writes comes into it as code, in literals and
in comments, on many kinds of lines; none of these lines holds an annotation.

* `isQuiet_commaLines`, `isQuiet_setOff`, `isQuiet_linesIf`: how lines are put together;
* `ReadStep.IsCoded`, `WriteStep.IsCoded`: steps whose texts are code;
* `isQuiet_mappingStruct`, `isQuiet_fieldInfo`, `isQuiet_enumMetas`: the parts of the header;
* `isQuiet_headerLines`: all of its lines;
* `declaredClasses_headerText`: a generated header declares nothing.
-/

namespace RowMapping

open Text Mapping

/-! ### Lines -/

namespace Mapping

/-- A literal between code. -/
theorem isQuiet_quoted {cs ds : List Char} (hfront : cs.all isCodeChar = true)
    (hlast : (cs.getLast?.any fun c => !isNamePart c) = true) (text : String)
    (hbehind : ds.all isCodeChar = true) :
    IsQuiet (String.ofList cs ++ quote text ++ String.ofList ds) :=
  (((isStop_ofList hfront hlast).isLead.append (isLead_quote text)).append_isCode
    (isCode_ofList hbehind)).isQuiet

theorem isQuiet_commaLines {indent : String} (hindent : IsStop indent) {items : List String}
    (h : ∀ item ∈ items, IsInert item) : ∀ line ∈ commaLines indent items, IsQuiet line := by
  intro line hline
  obtain ⟨item, hitem, rfl | rfl⟩ := mem_commaLines hline
  · exact (hindent.isLead.append_isInert (h item hitem)).isQuiet
  · exact ((hindent.isLead.append_isInert (h item hitem)).append_isCode (by decide)).isQuiet

theorem isQuiet_setOff {lines : List String} (h : ∀ line ∈ lines, IsQuiet line) :
    ∀ line ∈ setOff lines, IsQuiet line := by
  intro line hline
  unfold setOff at hline
  split at hline
  · cases hline
  rcases List.mem_cons.1 hline with rfl | hline
  · exact isQuiet_ofList (by decide)
  · exact h line hline

theorem isQuiet_linesIf {condition : Bool} {lines : List String}
    (h : ∀ line ∈ lines, IsQuiet line) : ∀ line ∈ linesIf condition lines, IsQuiet line := by
  intro line hline
  unfold linesIf at hline
  split at hline
  · exact h line hline
  · cases hline

variable {e : Entity} {names : SourceNames}

theorem isQuiet_includeLines (e : Entity) (hpath : '\n' ∉ names.includePath.toList) :
    ∀ line ∈ includeLines e names, IsQuiet line := by
  have hsource : IsQuiet s!"#include \"{names.includePath}\"" := by
    have htext : (s!"#include \"{names.includePath}\"").toList =
        "#include \"".toList ++ (names.includePath.toList ++ ['"']) := by
      simp [toString]
    refine isQuiet_of_directive ?_ ?_ ?_
    · rw [htext]
      rfl
    · rw [htext]
      simpa using hpath
    · rw [htext, ← List.append_assoc, List.getLast?_append_of_ne_nil _ (List.cons_ne_nil _ _)]
      decide
  intro line hline
  unfold includeLines at hline
  simp only [List.mem_append] at hline
  rcases hline with ((((hline | hline) | hline) | hline) | hline) | hline
  · simp only [List.mem_cons, List.not_mem_nil, or_false] at hline
    rcases hline with rfl | rfl | rfl
    all_goals exact isQuiet_directive (by decide) (by decide)
  · refine isQuiet_linesIf (fun line hline => ?_) line hline
    simp only [List.mem_cons, List.not_mem_nil, or_false] at hline
    rcases hline with rfl | rfl
    all_goals exact isQuiet_directive (by decide) (by decide)
  · refine isQuiet_linesIf (fun line hline => ?_) line hline
    rw [List.mem_singleton.1 hline]
    exact isQuiet_directive (by decide) (by decide)
  · refine isQuiet_linesIf (fun line hline => ?_) line hline
    rw [List.mem_singleton.1 hline]
    exact isQuiet_directive (by decide) (by decide)
  · simp only [List.mem_cons, List.not_mem_nil, or_false] at hline
    rcases hline with rfl | rfl
    · exact isQuiet_directive (by decide) (by decide)
    · exact hsource
  · refine isQuiet_linesIf (fun line hline => ?_) line hline
    simp only [List.mem_cons, List.not_mem_nil, or_false] at hline
    rcases hline with rfl | rfl | rfl
    all_goals exact isQuiet_directive (by decide) (by decide)

theorem isQuiet_keyConstants (e : Entity) : ∀ line ∈ keyConstants e, IsQuiet line := by
  have hall : IsLead (", ".intercalate (e.keyColumns.map quote)) := by
    refine isLead_intercalate (IsStop.isLead (by decide)) fun item hitem => ?_
    obtain ⟨text, -, rfl⟩ := List.mem_map.1 hitem
    exact isLead_quote text
  intro line hline
  unfold keyConstants at hline
  rcases List.mem_cons.1 hline with rfl | hline
  · exact isQuiet_quoted (by decide) (by decide) _ (by decide)
  split at hline
  · rw [List.mem_singleton] at hline
    subst hline
    have hfront : IsInert s!"    static constexpr std::array<const char*, {e.keyColumns.length}" :=
      ((isCode_ofList (by decide)).append (isCode_repr _)).isInert
    have hstop : IsStop "> primary_key_columns = \x7b" := isStop_ofList (by decide) (by decide)
    exact (((hfront.append_isStop hstop).append hall).append_isCode
      (isCode_ofList (by decide))).isQuiet
  · cases hline

theorem isQuiet_columnEnum (h : e.IsCoded) : IsQuiet (columnEnum e) := by
  have hentries : IsCode (", ".intercalate (e.columns.map fun c => s!"{c.field} = {c.index}")) := by
    refine isCode_intercalate (by decide) fun item hitem => ?_
    obtain ⟨c, hc, rfl⟩ := List.mem_map.1 hitem
    exact ((h.isCode_field hc).append_ofList (by decide)).append (isCode_repr c.index)
  exact hentries.isQuiet_between (by decide) (by decide)

theorem isQuiet_sqlStruct (e : Entity) : ∀ line ∈ sqlStruct e, IsQuiet line := by
  have hnames : ∀ name ∈ (sqlTexts e).map Prod.fst, IsCode name := by
    rw [map_fst_sqlTexts]
    cases e.statements.update.isSome <;> cases e.statements.deleteWithPartition.isSome <;> decide
  intro line hline
  simp only [sqlStruct, List.cons_append, List.mem_cons, List.mem_append, List.mem_flatMap,
    List.not_mem_nil, or_false] at hline
  rcases hline with rfl | ⟨⟨name, text⟩, hname, hline⟩ | rfl
  · exact isQuiet_ofList (by decide)
  · simp only [sqlConstant, List.mem_cons, List.not_mem_nil, or_false] at hline
    rcases hline with rfl | rfl
    · have hname : IsCode name := hnames name (List.mem_map_of_mem hname)
      exact hname.isQuiet_between (by decide) (by decide)
    · exact isQuiet_quoted (by decide) (by decide) text (by decide)
  · exact isQuiet_ofList (by decide)

theorem isQuiet_traitsType (h : e.IsCoded) : ∀ line ∈ traitsType e, IsQuiet line := by
  have hmembers : ∀ name ∈ e.fieldTraits.map FieldTraits.member, IsInert name := by
    intro name hname
    obtain ⟨f, hf, rfl⟩ := List.mem_map.1 hname
    exact (h.traits hf).1.isInert
  intro line hline
  unfold traitsType at hline
  rcases List.mem_cons.1 hline with rfl | hline
  · exact isQuiet_ofList (by decide)
  rcases List.mem_append.1 hline with hline | hline
  · split at hline
    · cases hline
    rcases List.mem_cons.1 hline with rfl | hline
    · exact isQuiet_ofList (by decide)
    rcases List.mem_append.1 hline with hline | hline
    · exact isQuiet_commaLines (by decide) hmembers line hline
    · simp only [List.mem_cons, List.not_mem_nil, or_false] at hline
      rcases hline with rfl | rfl | rfl
      all_goals exact isQuiet_ofList (by decide)
  · rw [List.mem_singleton] at hline
    subst hline
    exact isQuiet_ofList (by decide)

theorem isQuiet_keyFunction (h : e.IsCoded) : ∀ line ∈ keyFunction e, IsQuiet line := by
  let members := ", ".intercalate (e.primaryKeys.map fun k => s!"e.{k}")
  have hkeys : IsCode members := by
    refine isCode_intercalate (by decide) fun item hitem => ?_
    obtain ⟨k, hk, rfl⟩ := List.mem_map.1 hitem
    exact (isCode_ofList (by decide)).append (h.isCode_of_mem_primaryKeys hk)
  have hfirst : IsCode e.firstKey := h.isCode_of_mem_primaryKeys (List.head_mem _)
  have hvalue : IsCode
      (if e.isComposite then s!"std::make_tuple({members})" else s!"e.{e.firstKey}") := by
    split
    · exact hkeys.between (by decide) (by decide)
    · exact (isCode_ofList (by decide)).append hfirst
  intro line hline
  simp only [keyFunction, List.mem_cons, List.not_mem_nil, or_false] at hline
  rcases hline with rfl | rfl | rfl | rfl
  · exact isQuiet_ofList (by decide)
  · exact isQuiet_ofList (by decide)
  · exact hvalue.isQuiet_between (by decide) (by decide)
  · exact isQuiet_ofList (by decide)

theorem isQuiet_partitionHint (h : e.IsCoded) : ∀ line ∈ partitionHint e, IsQuiet line := by
  have hitems : ∀ item ∈ e.hintMembers.map (fun k => s!"e.{k}"), IsInert item := by
    intro item hitem
    obtain ⟨k, hk, rfl⟩ := List.mem_map.1 hitem
    exact ((isCode_ofList (by decide)).append (h.isCode_of_mem_hintMembers hk)).isInert
  intro line hline
  unfold partitionHint at hline
  split at hline
  · cases hline
  simp only [List.mem_append, List.mem_cons, List.not_mem_nil, or_false] at hline
  rcases hline with ((rfl | rfl | rfl) | hline) | rfl | rfl
  · exact isQuiet_ofList (by decide)
  · exact isQuiet_ofList (by decide)
  · exact isQuiet_ofList (by decide)
  · exact isQuiet_commaLines (by decide) hitems line hline
  · exact isQuiet_ofList (by decide)
  · exact isQuiet_ofList (by decide)

/-! ### Steps -/

/-- The texts of a step that reads a member are code. -/
def ReadStep.IsCoded : ReadStep → Prop
  | json m | jsonOrNull m | text m => IsCode m
  | choice m type pairs | choiceOrNull m type pairs =>
    IsCode m ∧ IsCode type ∧ ∀ p ∈ pairs, IsCode p.enumerator
  | value m type | valueOrNull m type => IsCode m ∧ IsCode type

theorem isCoded_readStep (h : e.IsCoded) {m : Member} (hm : m ∈ e.members) :
    (e.readStep m).IsCoded := by
  have hname := h.isCode_name hm
  unfold Entity.readStep
  split
  case h_4 type pairs hcarrier _ | h_5 type pairs hcarrier _ => exact ⟨hname, h.carrier hcarrier⟩
  case h_6 => exact ⟨hname, h.types m hm⟩
  case h_7 => exact ⟨hname, h.isCode_valueType hm⟩
  all_goals exact hname

theorem isQuiet_choiceLines {m type : String} (hm : IsCode m) (htype : IsCode type)
    {pairs : List EnumPair} (hpairs : ∀ p ∈ pairs, IsCode p.enumerator) :
    ∀ line ∈ ReadStep.choiceLines m type pairs, IsQuiet line := by
  have hchoice : ∀ keyword, IsCode keyword → ∀ p ∈ pairs,
      IsQuiet (ReadStep.choiceLine keyword m type p) := by
    intro keyword hkeyword p hp
    have hfront : IsCode ("            " ++ keyword) :=
      (isCode_ofList (by decide)).append hkeyword
    have hbehind : IsCode s!") e.{m} = {type}::{p.enumerator};" :=
      ((hm.between (by decide) (by decide)).append_between htype (by decide)).append_between
        (hpairs p hp) (by decide)
    have hline := ((hfront.isInert.append_isStop (b := " (s == ") (by decide)).append
      (isLead_quote p.external)).append_isCode hbehind
    unfold ReadStep.choiceLine
    simp only [toString, String.append_assoc] at hline ⊢
    exact hline.isQuiet
  intro line hline
  cases pairs with
  | nil => cases hline
  | cons p ps =>
    simp only [ReadStep.choiceLines, List.mem_cons, List.mem_map] at hline
    rcases hline with rfl | ⟨q, hq, rfl⟩
    · exact hchoice "if" (by decide) p List.mem_cons_self
    · exact hchoice "else if" (by decide) q (List.mem_cons_of_mem p hq)

theorem isQuiet_readStep {step : ReadStep} (h : step.IsCoded) :
    ∀ line ∈ step.lines, IsQuiet line := by
  intro line hline
  cases step with
  | choice m type pairs =>
    obtain ⟨hm, htype, hpairs⟩ := h
    simp only [ReadStep.lines, List.cons_append, List.mem_cons, List.mem_append, List.not_mem_nil,
      or_false] at hline
    rcases hline with rfl | rfl | hline | rfl
    · exact isQuiet_ofList (by decide)
    · exact hm.isQuiet_between (by decide) (by decide)
    · exact isQuiet_choiceLines hm htype hpairs line hline
    · exact isQuiet_ofList (by decide)
  | choiceOrNull m type pairs =>
    obtain ⟨hm, htype, hpairs⟩ := h
    simp only [ReadStep.lines, List.cons_append, List.mem_cons, List.mem_append, List.not_mem_nil,
      or_false] at hline
    rcases hline with rfl | rfl | hline | rfl
    · exact hm.isQuiet_between (by decide) (by decide)
    · exact hm.isQuiet_between (by decide) (by decide)
    · exact isQuiet_choiceLines hm htype hpairs line hline
    · exact isQuiet_ofList (by decide)
  | jsonOrNull m =>
    have hm : IsCode m := h
    simp only [ReadStep.lines, List.mem_cons, List.not_mem_nil, or_false] at hline
    rcases hline with rfl | rfl | rfl | rfl | rfl | rfl | rfl | rfl
    · exact hm.isQuiet_between (by decide) (by decide)
    · exact hm.isQuiet_between (by decide) (by decide)
    · exact isQuiet_ofList (by decide)
    · exact hm.isQuiet_between (by decide) (by decide)
    · exact isQuiet_ofList (by decide)
    · exact hm.isQuiet_between (by decide) (by decide)
    · exact isQuiet_ofList (by decide)
    · exact isQuiet_ofList (by decide)
  | json m | text m =>
    have hm : IsCode m := h
    rw [ReadStep.lines, List.mem_singleton] at hline
    subst hline
    exact ((hm.between (by decide) (by decide)).append_between hm (by decide)).isQuiet
  | value m type | valueOrNull m type =>
    obtain ⟨hm, htype⟩ := h
    rw [ReadStep.lines, List.mem_singleton] at hline
    subst hline
    exact (((hm.between (by decide) (by decide)).append_between htype (by decide)).append_between hm
      (by decide)).isQuiet

theorem isQuiet_fromRow (h : e.IsCoded) : ∀ line ∈ fromRow e, IsQuiet line := by
  intro line hline
  simp only [fromRow, List.mem_append, List.mem_cons, List.not_mem_nil, or_false] at hline
  rcases hline with ((rfl | rfl | rfl) | hline) | rfl | rfl
  · exact isQuiet_ofList (by decide)
  · exact isQuiet_ofList (by decide)
  · exact isQuiet_ofList (by decide)
  · obtain ⟨step, hstep, hline⟩ := List.mem_flatMap.1 hline
    obtain ⟨m, hm, rfl⟩ := List.mem_map.1 hstep
    exact isQuiet_readStep (isCoded_readStep h (Entity.IsCoded.mem_members_of_orderedMembers hm))
      line hline
  · exact isQuiet_ofList (by decide)
  · exact isQuiet_ofList (by decide)

/-- The texts of a step that binds a member are code, and the comment of one that passes over a
member begins with the name of the member. -/
def WriteStep.IsCoded : WriteStep → Prop
  | skip m reason => (∀ c ∈ m.toList, isNamePart c) ∧ '\n' ∉ reason.toList
  | value m | text m | json m | jsonOrNull m => IsCode m
  | choice m type pairs | choiceOrNull m type pairs =>
    IsCode m ∧ IsCode type ∧ ∀ p ∈ pairs, IsCode p.enumerator

theorem isCoded_writeStep (h : e.IsCoded) {m : Member} (hm : m ∈ e.members) :
    (e.writeStep m).IsCoded := by
  have hname := h.isCode_name hm
  unfold Entity.writeStep
  split
  case h_4 type pairs hcarrier _ | h_5 type pairs hcarrier _ => exact ⟨hname, h.carrier hcarrier⟩
  all_goals exact hname

theorem isCoded_stepOr (h : e.IsCoded) {reason? : Member → Option String}
    (hreason : ∀ m, ∀ reason ∈ reason? m, '\n' ∉ reason.toList) {m : Member} (hm : m ∈ e.members) :
    (e.stepOr reason? m).IsCoded := by
  unfold Entity.stepOr
  split
  · next reason hsome => exact ⟨h.names m hm, hreason m reason hsome⟩
  · exact isCoded_writeStep h hm

theorem not_isBlank_of_isNamePart {c : Char} (hc : isNamePart c = true) : isBlank c = false := by
  rw [Bool.eq_false_iff]
  intro hblank
  obtain ⟨hdigit, hstart, -⟩ := Lexeme.of_isBlank hblank
  rcases Bool.or_eq_true_iff.1 hc with hc | hc
  · rw [hstart] at hc
    cases hc
  · rw [Lexeme.isDigit_of_isAsciiDigit hc] at hdigit
    cases hdigit

/-- A comment that begins with a name. -/
theorem isQuiet_named (indent text : String) {name : String} (hindent : IsCode indent)
    (hname : ∀ c ∈ name.toList, isNamePart c) (htext : '\n' ∉ text.toList)
    (hhead : ∃ c ∈ text.toList.head?, isBlank c = false ∧ c ≠ '@') :
    IsQuiet (indent ++ "// " ++ (name ++ text)) := by
  have hchar : ∀ c ∈ name.toList, c ≠ '\n' ∧ isBlank c = false ∧ c ≠ '@' := fun c hc =>
    ⟨by rintro rfl; exact absurd (hname _ hc) (by decide), not_isBlank_of_isNamePart (hname c hc),
      by rintro rfl; exact absurd (hname _ hc) (by decide)⟩
  refine IsInert.append_comment _ hindent.isInert ?_ ?_
  · rw [String.toList_append, List.mem_append, not_or]
    exact ⟨fun hmem => (hchar _ hmem).1 rfl, htext⟩
  · rw [String.toList_append]
    cases hcs : name.toList with
    | nil => exact hhead
    | cons c cs => exact ⟨c, rfl, (hchar c (by simp [hcs])).2⟩

/-- A comment that tells why a member is passed over. -/
theorem isQuiet_skip (indent : String) {m reason : String} (hindent : IsCode indent)
    (hm : ∀ c ∈ m.toList, isNamePart c) (hreason : '\n' ∉ reason.toList) :
    IsQuiet (indent ++ "// " ++ (m ++ (": skipped (" ++ reason ++ ")"))) := by
  refine isQuiet_named indent _ hindent hm ?_ ⟨':', by simp, by decide, by decide⟩
  simp only [String.toList_append, List.mem_append, not_or]
  exact ⟨⟨by decide, hreason⟩, by decide⟩

theorem isQuiet_switchLines {indent subject type : String} {pairs : List EnumPair}
    (hindent : IsCode indent) (hsubject : IsCode subject) (htype : IsCode type)
    (hpairs : ∀ p ∈ pairs, IsCode p.enumerator) :
    ∀ line ∈ WriteStep.switchLines indent subject type pairs, IsQuiet line := by
  intro line hline
  simp only [WriteStep.switchLines, List.cons_append, List.mem_cons, List.mem_append, List.mem_map,
    List.not_mem_nil, or_false] at hline
  rcases hline with rfl | ⟨p, hp, rfl⟩ | rfl
  · exact ((hindent.append_ofList (by decide)).append_between hsubject (by decide)).isQuiet
  · have hfront : IsCode s!"{indent}    case {type}::{p.enumerator}" :=
      ((hindent.append_ofList (by decide)).append_between htype (by decide)).append (hpairs p hp)
    exact (((hfront.isInert.append_isStop (isStop_ofList (by decide) (by decide))).append
      (isLead_quote _)).append_isCode (isCode_ofList (by decide))).isQuiet
  · exact (hindent.append_ofList (by decide)).isQuiet

theorem isQuiet_writeStep {step : WriteStep} (h : step.IsCoded) :
    ∀ line ∈ step.lines, IsQuiet line := by
  have helse : ∀ line ∈ WriteStep.elseNull, IsQuiet line := by
    intro line hline
    simp only [WriteStep.elseNull, List.mem_cons, List.not_mem_nil, or_false] at hline
    rcases hline with rfl | rfl | rfl
    all_goals exact isQuiet_ofList (by decide)
  intro line hline
  cases step with
  | skip m reason =>
    rw [WriteStep.lines, List.mem_singleton] at hline
    subst hline
    have hskip := isQuiet_skip "        " (by decide) h.1 h.2
    simp only [toString, String.append_assoc] at hskip ⊢
    exact hskip
  | choice m type pairs =>
    obtain ⟨hm, htype, hpairs⟩ := h
    exact isQuiet_switchLines (by decide) ((isCode_ofList (by decide)).append hm) htype hpairs line
      hline
  | choiceOrNull m type pairs =>
    obtain ⟨hm, htype, hpairs⟩ := h
    simp only [WriteStep.lines, List.cons_append, List.mem_cons, List.mem_append] at hline
    rcases hline with rfl | hline | hline
    · exact hm.isQuiet_between (by decide) (by decide)
    · exact isQuiet_switchLines (by decide) ((isCode_ofList (by decide)).append hm) htype hpairs
        line hline
    · exact helse line hline
  | jsonOrNull m =>
    have hm : IsCode m := h
    rcases List.mem_append.1 hline with hline | hline
    · simp only [List.mem_cons, List.not_mem_nil, or_false] at hline
      rcases hline with rfl | rfl | rfl | rfl
      · exact hm.isQuiet_between (by decide) (by decide)
      · exact isQuiet_ofList (by decide)
      · exact hm.isQuiet_between (by decide) (by decide)
      · exact isQuiet_ofList (by decide)
    · exact helse line hline
  | value m | text m | json m =>
    have hm : IsCode m := h
    rw [WriteStep.lines, List.mem_singleton] at hline
    subst hline
    exact hm.isQuiet_between (by decide) (by decide)

theorem isQuiet_argumentLine {step : WriteStep} (h : step.IsCoded) (last : Option String) :
    IsQuiet (step.argumentLine last) := by
  have hcode : ∀ m, IsCode m →
      IsQuiet (s!"            e.{m}" ++ if some m = last then "" else ",") := by
    intro m hm
    have hend : IsCode (if some m = last then "" else ",") := by split <;> decide
    exact (((isCode_ofList (by decide)).append hm).append hend).isQuiet
  cases step with
  | skip m reason =>
    have hskip := isQuiet_skip "            " (by decide) h.1 h.2
    unfold WriteStep.argumentLine
    simp only [toString, String.append_assoc] at hskip ⊢
    exact hskip
  | value m | text m | json m | jsonOrNull m => exact hcode m h
  | choice m type pairs | choiceOrNull m type pairs => exact hcode m h.1

theorem isQuiet_paramsFunction {name : String} (hname : IsCode name) {body : ParamsBody}
    (h : ∀ step ∈ body.steps, step.IsCoded) : ∀ line ∈ paramsFunction name body, IsQuiet line := by
  have htype : IsCode paramsType := isCode_ofList (by decide)
  have hbody : ∀ line ∈ body.lines, IsQuiet line := by
    intro line hline
    cases body with
    | call steps last =>
      simp only [ParamsBody.lines, List.cons_append, List.mem_cons, List.mem_append, List.mem_map,
        List.not_mem_nil, or_false] at hline
      rcases hline with rfl | ⟨step, hstep, rfl⟩ | rfl
      · exact htype.isQuiet_between (by decide) (by decide)
      · exact isQuiet_argumentLine (h step hstep) last
      · exact isQuiet_ofList (by decide)
    | sequence steps =>
      simp only [ParamsBody.lines, List.cons_append, List.mem_cons, List.mem_append,
        List.mem_flatMap, List.not_mem_nil, or_false] at hline
      rcases hline with rfl | ⟨step, hstep, hline⟩ | rfl
      · exact htype.isQuiet_between (by decide) (by decide)
      · exact isQuiet_writeStep (h step hstep) line hline
      · exact isQuiet_ofList (by decide)
  intro line hline
  simp only [paramsFunction, List.mem_append, List.mem_cons, List.not_mem_nil, or_false] at hline
  rcases hline with ((rfl | rfl) | hline) | rfl
  · exact isQuiet_ofList (by decide)
  · exact (((htype.between (by decide) (by decide)).append hname).append_ofList (by decide)).isQuiet
  · exact hbody line hline
  · exact isQuiet_ofList (by decide)

theorem isCoded_paramsBody (h : e.IsCoded) {written : List Member}
    {reason? : Member → Option String} (hreason : ∀ m, ∀ reason ∈ reason? m, '\n' ∉ reason.toList) :
    ∀ step ∈ (e.paramsBody written reason?).steps, step.IsCoded := by
  have hsteps : (e.paramsBody written reason?).steps = e.orderedMembers.map (e.stepOr reason?) := by
    unfold Entity.paramsBody
    dsimp only
    split <;> rfl
  intro step hstep
  rw [hsteps] at hstep
  obtain ⟨m, hm, rfl⟩ := List.mem_map.1 hstep
  exact isCoded_stepOr h hreason (Entity.IsCoded.mem_members_of_orderedMembers hm)

theorem isQuiet_writeParams (h : e.IsCoded) : ∀ line ∈ writeParams e, IsQuiet line := by
  have hinsert : ∀ m, ∀ reason ∈ e.insertSkip? m, '\n' ∉ reason.toList := by
    intro m reason hreason
    unfold Entity.insertSkip? at hreason
    split at hreason <;> cases hreason
    decide
  have hupdate : ∀ m, ∀ reason ∈ e.updateSkip? m, '\n' ∉ reason.toList := by
    intro m reason hreason
    unfold Entity.updateSkip? at hreason
    split at hreason
    · cases hreason
      decide
    · exact hinsert m reason hreason
  intro line hline
  unfold writeParams at hline
  split at hline
  · cases hline
  rcases List.mem_append.1 hline with hline | hline
  · exact isQuiet_paramsFunction (isCode_ofList (by decide)) (isCoded_paramsBody h hinsert) line
      hline
  split at hline
  · cases hline
  rcases List.mem_cons.1 hline with rfl | hline
  · exact isQuiet_ofList (by decide)
  · exact isQuiet_paramsFunction (isCode_ofList (by decide)) (isCoded_paramsBody h hupdate) line
      hline

/-! ### Descriptions -/

theorem isInert_of_mem_objectEntries (h : e.IsCoded) : ∀ item ∈ objectEntries e, IsInert item := by
  intro item hitem
  obtain ⟨c, hc, rfl⟩ := List.mem_map.1 hitem
  exact ((isLead_quote c.field).append_isCode (b := ", &T::") (by decide)).append_isCode
    (h.isCode_field hc)

theorem isQuiet_glazeValue (h : e.IsCoded) : ∀ line ∈ glazeValue e, IsQuiet line := by
  intro line hline
  simp only [glazeValue, List.mem_append, List.mem_cons, List.not_mem_nil, or_false] at hline
  rcases hline with ((rfl | rfl) | hline) | rfl
  · exact isQuiet_ofList (by decide)
  · exact isQuiet_ofList (by decide)
  · exact isQuiet_commaLines (by decide) (isInert_of_mem_objectEntries h) line hline
  · exact isQuiet_ofList (by decide)

/-- Arguments between angle brackets. -/
theorem isInert_entry {front : String} (hfront : IsStop front) {arguments : List String}
    (h : ∀ argument ∈ arguments, IsInert argument) :
    IsInert (front ++ ", ".intercalate arguments ++ ">\x7b\x7d") :=
  (hfront.isLead.append_isInert (isInert_intercalate (by decide) h)).append_isCode (by decide)

theorem isCode_memberPointer (h : e.IsCoded) {field : String} (hfield : IsCode field) :
    IsCode s!"&{e.structName}::{field}" :=
  (h.isCode_structName.between (by decide) (by decide)).append hfield

theorem isCode_declScope : IsCode declScope := isCode_ofList (by decide)

theorem isInert_filterEntry (h : e.IsCoded) {f : Filter} (hf : f ∈ e.filters) :
    IsInert (filterEntry e f) := by
  have hoperator : ∀ op, ∀ argument ∈ operatorArgument op, IsCode argument := by
    intro op argument hargument
    cases op with
    | eq => cases hargument
    | _ =>
      rw [List.mem_singleton.1 hargument]
      exact (isCode_declScope.append_ofList (by decide)).append (isCode_ofList (by decide))
  refine isInert_entry (by decide) fun argument hargument => ?_
  simp only [List.mem_append, List.mem_cons, List.not_mem_nil, or_false] at hargument
  rcases hargument with (rfl | rfl | rfl) | hargument
  · exact (isLead_quote _).isInert
  · exact (isCode_memberPointer h (h.filters f hf)).isInert
  · exact (isLead_quote _).isInert
  · exact (hoperator f.op argument hargument).isInert

theorem isInert_sortEntry (h : e.IsCoded) {k : SortKey} (hk : k ∈ e.sorts) :
    IsInert (sortEntry e k) := by
  refine isInert_entry (by decide) fun argument hargument => ?_
  simp only [List.mem_cons, List.not_mem_nil, or_false] at hargument
  rcases hargument with rfl | rfl | rfl | rfl
  · exact (isLead_quote _).isInert
  · exact (isCode_memberPointer h (h.sorts k hk)).isInert
  · exact (isLead_quote _).isInert
  · have hdirection : IsCode k.direction.capitalName := by
      cases k.direction <;> exact isCode_ofList (by decide)
    exact ((isCode_declScope.append_ofList (by decide)).append hdirection).isInert

theorem isQuiet_entryTuple {name : String} (hname : IsCode name) {entries : List String}
    (h : ∀ entry ∈ entries, IsInert entry) : ∀ line ∈ entryTuple name entries, IsQuiet line := by
  intro line hline
  unfold entryTuple at hline
  split at hline
  · cases hline
  simp only [List.mem_append, List.mem_cons, List.not_mem_nil, or_false] at hline
  rcases hline with ((rfl | rfl) | hline) | rfl
  · exact isQuiet_ofList (by decide)
  · exact hname.isQuiet_between (by decide) (by decide)
  · exact isQuiet_commaLines (by decide) h line hline
  · exact isQuiet_ofList (by decide)

theorem isQuiet_listDescriptor (h : e.IsCoded) : ∀ line ∈ listDescriptor e, IsQuiet line := by
  have hfilters : ∀ entry ∈ e.sortedFilters.map (filterEntry e), IsInert entry := by
    intro entry hentry
    obtain ⟨f, hf, rfl⟩ := List.mem_map.1 hentry
    exact isInert_filterEntry h (List.mem_mergeSort.1 hf)
  have hsorts : ∀ entry ∈ e.sorts.map (sortEntry e), IsInert entry := by
    intro entry hentry
    obtain ⟨k, hk, rfl⟩ := List.mem_map.1 hentry
    exact isInert_sortEntry h hk
  have hlimit : ∀ (front : String) (n : UInt16), IsCode front →
      IsCode (front ++ toString n ++ ";") := by
    intro front n hfront
    exact hfront.append_between (isCode_repr n.toNat) (by decide)
  intro line hline
  unfold listDescriptor at hline
  split at hline
  · cases hline
  simp only [List.cons_append, List.mem_append, List.mem_cons, List.not_mem_nil, or_false]
    at hline
  rcases hline with rfl | (hline | hline) | rfl | rfl | rfl | rfl
  · exact isQuiet_ofList (by decide)
  · exact isQuiet_entryTuple (by decide) hfilters line hline
  · exact isQuiet_entryTuple (by decide) hsorts line hline
  · exact isQuiet_ofList (by decide)
  · exact (hlimit _ _ (isCode_ofList (by decide))).isQuiet
  · exact (hlimit _ _ (isCode_ofList (by decide))).isQuiet
  · exact isQuiet_ofList (by decide)

/-! ### The generated header -/

theorem isQuiet_mappingStruct (h : e.IsCoded) : ∀ line ∈ mappingStruct e, IsQuiet line := by
  intro line hline
  unfold mappingStruct at hline
  simp only [List.mem_append] at hline
  rcases hline with (((((((((((hline | hline) | hline) | hline) | hline) | hline) | hline) |
    hline) | hline) | hline) | hline) | hline)
  · simp only [List.mem_cons, List.not_mem_nil, or_false] at hline
    rcases hline with rfl | rfl | rfl
    · exact h.isCode_mappingName.isQuiet_between (by decide) (by decide)
    · exact (isCode_toString_bool _).isQuiet_between (by decide) (by decide)
    · exact isQuiet_quoted (by decide) (by decide) _ (by decide)
  · exact isQuiet_keyConstants e line hline
  · simp only [List.mem_cons, List.not_mem_nil, or_false] at hline
    rcases hline with rfl | rfl
    · exact isQuiet_ofList (by decide)
    · exact isQuiet_columnEnum h
  · exact isQuiet_setOff (isQuiet_sqlStruct e) line hline
  · exact isQuiet_setOff (isQuiet_traitsType h) line hline
  · exact isQuiet_setOff (isQuiet_keyFunction h) line hline
  · exact isQuiet_setOff (isQuiet_partitionHint h) line hline
  · exact isQuiet_setOff (isQuiet_fromRow h) line hline
  · exact isQuiet_setOff (isQuiet_writeParams h) line hline
  · exact isQuiet_setOff (isQuiet_glazeValue h) line hline
  · exact isQuiet_setOff (isQuiet_listDescriptor h) line hline
  · rw [List.mem_singleton.1 hline]
    exact isQuiet_ofList (by decide)

theorem isQuiet_fieldInfo (h : e.IsCoded) : ∀ line ∈ fieldInfo e e.mappingName, IsQuiet line := by
  intro line hline
  obtain ⟨f, hf, hline⟩ := List.mem_flatMap.1 hline
  obtain ⟨hmember, htype⟩ := h.traits hf
  have htraits : IsCode s!"{e.mappingName}::TraitsType" :=
    h.isCode_mappingName.append_ofList (by decide)
  simp only [FieldTraits.lines, List.mem_cons, List.not_mem_nil, or_false] at hline
  rcases hline with rfl | rfl | rfl | rfl | rfl | rfl | rfl | rfl
  · exact isQuiet_ofList (by decide)
  · exact (((htraits.between (by decide) (by decide)).append_between htraits
      (by decide)).append_between hmember (by decide)).isQuiet
  · exact htype.isQuiet_between (by decide) (by decide)
  · exact isQuiet_quoted (by decide) (by decide) _ (by decide)
  · exact (isCode_toString_bool _).isQuiet_between (by decide) (by decide)
  · exact (isCode_toString_bool _).isQuiet_between (by decide) (by decide)
  · exact isQuiet_ofList (by decide)
  · exact isQuiet_ofList (by decide)

/-- A line that is a comment. -/
theorem isQuiet_comment (text : String) (hline : '\n' ∉ text.toList)
    (hhead : ∃ c ∈ text.toList.head?, isBlank c = false ∧ c ≠ '@') : IsQuiet ("// " ++ text) :=
  IsInert.append_comment (a := "") text (fun _ hrest _ => hrest) hline hhead

/-- A comment that is always the same. -/
theorem isQuiet_comment_ofList {body : List Char} (hline : '\n' ∉ body)
    (htag : TagLine.ofComment? ('/' :: '/' :: body) = none) :
    IsQuiet (String.ofList ('/' :: '/' :: body)) := by
  intro rest hrest
  rw [String.toList_ofList]
  exact .comment hline htag hrest

theorem isQuiet_heading (h : e.IsCoded) :
    IsQuiet s!"// {e.wrapperName}: public API type" := by
  have hchar : ∀ c ∈ e.wrapperName.toList, isNamePart c := by
    intro c hc
    rw [Entity.wrapperName, String.toList_append, List.mem_append] at hc
    rcases hc with hc | hc
    · exact h.className c hc
    · exact List.all_eq_true.1 (by decide : "Wrapper".toList.all isNamePart = true) c hc
  have hcomment := isQuiet_named "" ": public API type" (by decide) hchar (by decide)
    ⟨':', by decide, by decide, by decide⟩
  simp only [toString, String.append_assoc] at hcomment ⊢
  exact hcomment

theorem isQuiet_wrapperAliases (h : e.IsCoded) : ∀ line ∈ wrapperAliases e, IsQuiet line := by
  have hrule : IsQuiet sectionRule := isQuiet_comment_ofList (by decide) (by decide)
  intro line hline
  unfold wrapperAliases at hline
  rcases List.mem_append.1 hline with hline | hline
  · simp only [List.mem_cons, List.not_mem_nil, or_false] at hline
    rcases hline with rfl | rfl | rfl | rfl | rfl | rfl
    · exact hrule
    · exact isQuiet_heading h
    · exact hrule
    · exact isQuiet_ofList (by decide)
    · exact h.isCode_wrapperName.isQuiet_between (by decide) (by decide)
    · exact ((h.isCode_structName.between (by decide) (by decide)).append_between
        h.isCode_mappingName (by decide)).isQuiet
  · refine isQuiet_linesIf (fun line hline => ?_) line hline
    simp only [List.mem_cons, List.not_mem_nil, or_false] at hline
    rcases hline with rfl | rfl
    · exact isQuiet_ofList (by decide)
    · exact ((h.isCode_className.between (by decide) (by decide)).append_between
        h.isCode_wrapperName (by decide)).isQuiet

theorem isQuiet_structMeta (h : e.IsCoded) : ∀ line ∈ structMeta e, IsQuiet line := by
  intro line hline
  unfold structMeta at hline
  split at hline
  · cases hline
  simp only [List.mem_append, List.mem_cons, List.not_mem_nil, or_false] at hline
  rcases hline with ((rfl | rfl | rfl | rfl) | hline) | rfl | rfl
  · exact isQuiet_ofList (by decide)
  · exact h.isCode_structName.isQuiet_between (by decide) (by decide)
  · exact h.isCode_structName.isQuiet_between (by decide) (by decide)
  · exact isQuiet_ofList (by decide)
  · exact isQuiet_commaLines (by decide) (isInert_of_mem_objectEntries h) line hline
  · exact isQuiet_ofList (by decide)
  · exact isQuiet_ofList (by decide)

theorem isQuiet_enumMeta {type : String} {pairs : List EnumPair} (htype : IsCode type)
    (hpairs : ∀ p ∈ pairs, IsCode p.enumerator) : ∀ line ∈ enumMeta type pairs, IsQuiet line := by
  have hitems : ∀ item ∈ pairs.map (fun p => s!"{quote p.external}, {p.enumerator}"),
      IsInert item := by
    intro item hitem
    obtain ⟨p, hp, rfl⟩ := List.mem_map.1 hitem
    exact ((isLead_quote p.external).append_isCode (b := ", ") (by decide)).append_isCode
      (hpairs p hp)
  intro line hline
  simp only [enumMeta, List.mem_append, List.mem_cons, List.not_mem_nil, or_false] at hline
  rcases hline with ((rfl | rfl | rfl | rfl) | hline) | rfl | rfl
  · exact isQuiet_ofList (by decide)
  · exact htype.isQuiet_between (by decide) (by decide)
  · exact htype.isQuiet_between (by decide) (by decide)
  · exact isQuiet_ofList (by decide)
  · exact isQuiet_commaLines (by decide) hitems line hline
  · exact isQuiet_ofList (by decide)
  · exact isQuiet_ofList (by decide)

theorem isQuiet_enumMetas (h : e.IsCoded) : ∀ line ∈ enumMetas e, IsQuiet line := by
  intro line hline
  rcases mem_enumMetas hline with rfl | ⟨type, pairs, hmem, hline⟩
  · exact isQuiet_ofList (by decide)
  · obtain ⟨m, hm, -, rfl, rfl⟩ := Entity.exists_of_mem_metaEnums hmem
    obtain ⟨htype, hpairs⟩ := h.enums m hm
    exact isQuiet_enumMeta (h.isCode_qualify htype) hpairs line hline

theorem isQuiet_headerLines (h : e.IsCoded) (hpath : '\n' ∉ names.includePath.toList)
    (hname : '\n' ∉ names.name.toList) : ∀ line ∈ headerLines e names, IsQuiet line := by
  have hbanner : IsQuiet "// GENERATED AUTOMATICALLY - DO NOT MODIFY" :=
    isQuiet_comment_ofList (by decide) (by decide)
  have hsource : IsQuiet s!"// Source: {names.name}" := by
    have hcomment := isQuiet_comment ("Source: " ++ names.name)
      (by simpa using hname) ⟨'S', by simp, by decide, by decide⟩
    rwa [← String.append_assoc] at hcomment
  have hclose : IsQuiet "\x7d  // namespace entity::generated" :=
    IsInert.append_comment (a := "\x7d  ") "namespace entity::generated"
      (IsCode.isInert (by decide)) (by decide) ⟨'n', by decide, by decide, by decide⟩
  intro line hline
  unfold headerLines at hline
  simp only [List.mem_append] at hline
  rcases hline with (((((((((hline | hline) | hline) | hline) | hline) | hline) | hline) | hline) |
    hline) | hline)
  · simp only [List.mem_cons, List.not_mem_nil, or_false] at hline
    rcases hline with rfl | rfl | rfl | rfl | rfl
    · exact hbanner
    · exact hsource
    · exact isQuiet_ofList (by decide)
    · exact isQuiet_directive (by decide) (by decide)
    · exact isQuiet_ofList (by decide)
  · exact isQuiet_includeLines e hpath line hline
  · simp only [List.mem_cons, List.not_mem_nil, or_false] at hline
    rcases hline with rfl | rfl | rfl
    all_goals exact isQuiet_ofList (by decide)
  · exact isQuiet_mappingStruct h line hline
  · rw [List.mem_singleton.1 hline]
    exact isQuiet_ofList (by decide)
  · exact isQuiet_fieldInfo h line hline
  · exact isQuiet_wrapperAliases h line hline
  · simp only [List.mem_cons, List.not_mem_nil, or_false] at hline
    rcases hline with rfl | rfl
    · exact isQuiet_ofList (by decide)
    · exact hclose
  · exact isQuiet_setOff (isQuiet_structMeta h) line hline
  · exact isQuiet_setOff (isQuiet_enumMetas h) line hline

end Mapping

open Mapping

variable {source : List Char} {file : String} {e : Entity}

/-- **A generated header declares nothing**: it holds no annotated class, and nothing of it is told,
whatever tables, columns, parameters, external texts and tags are written into it. -/
theorem declaredClasses_headerText (he : .ok e ∈ entities source file)
    (htypes : ∀ m ∈ e.members, ∀ c ∈ m.type.toList, isTypeChar c)
    (henumerators : ∀ m ∈ e.enums, ∀ p ∈ m.pairs, ∀ c ∈ p.enumerator.toList, isTypeChar c)
    {names : SourceNames} (hpath : '\n' ∉ names.includePath.toList)
    (hname : '\n' ∉ names.name.toList) :
    declaredClasses (headerText e names).toList = [] ∧
      declarationNotices (headerText e names).toList = [] := by
  have hcoded := Entity.isCoded_of_mem_entities he (fun m hm => isCode_of_isTypeChar (htypes m hm))
    fun m hm p hp => isCode_of_isTypeChar (henumerators m hm p hp)
  have huntagged : Untagged (headerText e names).toList :=
    untagged_intercalate (isQuiet_headerLines hcoded hpath hname)
  have hfindings := sourceFindings_of_untagged huntagged
  constructor
  · rw [declaredClasses, hfindings]
    rfl
  · rw [declarationNotices, hfindings]
    rfl

/-- A header with texts that look like annotations. -/
def leafletSource : String :=
  "// @relais table=\"//@relais\nstruct Leaflet \x7b\n" ++
    "    int64_t id; // @relais primary_key column=//@relais\n" ++
    "    State state; // @relais enum=\"//@relais:Open\n\x7d;\n"

/-- Its class. -/
def leaflet : Entity where
  className := "Leaflet"
  scope := ""
  table := "\"//@relais"
  model := none
  members := [
    ⟨"id", "int64_t", "", 3, { flags := [.primaryKey], column := some "//@relais" }⟩,
    ⟨"state", "State", "", 4, { pairs := [⟨"\"//@relais", "Open"⟩] }⟩]
  enums := [⟨"state", "State", [⟨"\"//@relais", "Open"⟩], false⟩]
  readOnly := false
  tiers := []
  entityName := "Leaflet"
  hasStructMeta := false
  file := "Leaflet.h"
  line := 2

theorem leaflet_mem_entities : .ok leaflet ∈ entities leafletSource.toList "Leaflet.h" := by
  have hsource : leafletSource.toList = _ :=
    toList_append_of_eq
      (toList_append_of_eq String.toList_ofList String.toList_ofList)
      String.toList_ofList
  rw [hsource]
  decide +kernel

/-- The header for such a class declares none. -/
theorem declaredClasses_headerText_leaflet :
    .ok leaflet ∈ entities leafletSource.toList "Leaflet.h" ∧
      declaredClasses (headerText leaflet ⟨"Leaflet.h", "//@relais"⟩).toList = [] ∧
      declarationNotices (headerText leaflet ⟨"Leaflet.h", "//@relais"⟩).toList = [] := by
  have htypes : (leaflet.members.all fun m => m.type.toList.all isTypeChar) = true := by decide
  have henumerators : (leaflet.enums.all fun m => m.pairs.all fun p =>
      p.enumerator.toList.all isTypeChar) = true := by decide
  simp only [List.all_eq_true] at htypes henumerators
  exact ⟨leaflet_mem_entities,
    declaredClasses_headerText leaflet_mem_entities htypes henumerators (by decide) (by decide)⟩

end RowMapping
