import RowMapping.Mapping.Params
import RowMapping.Mapping.SqlText
/-!
# Lines that open a function or a constant

Generated code is a list of lines, and what a line is shows in its first characters.  So the lines
that open functions and constants can be told from those around them.

* `signature`, `constantLine`: the lines that open a function and a constant;
* `signature_mem_paramsFunction_iff`: a function opens no other function;
* `constantLine_mem_sqlStruct_iff`: the constants are those of the names.
-/

namespace RowMapping.Mapping

open Text

/-- The line that opens the function of a name. -/
def signature (name : String) : String :=
  s!"    static {paramsType} {name}(const Entity& e) \x7b"

/-- The line that opens the constant of a name. -/
def constantLine (name : String) : String :=
  s!"        static constexpr const char* {name} ="

/-- A line begins with a text. -/
def BeginsWith (start line : String) : Prop := start.toList <+: line.toList

instance (start : String) : DecidablePred (BeginsWith start) := fun line =>
  inferInstanceAs (Decidable (start.toList <+: line.toList))

theorem BeginsWith.append {start line : String} (h : BeginsWith start line) (rest : String) :
    BeginsWith start (line ++ rest) := by
  unfold BeginsWith
  rw [String.toList_append]
  exact h.trans (List.prefix_append _ _)

theorem beginsWith_append (start rest : String) : BeginsWith start (start ++ rest) :=
  BeginsWith.append List.prefix_rfl rest

/-- How a line that is spelled out begins shows in the characters. -/
theorem beginsWith_ofList {start line : List Char} :
    BeginsWith (String.ofList start) (String.ofList line) ↔ start <+: line := by
  rw [BeginsWith, String.toList_ofList, String.toList_ofList]

/-- Lines are different when no line begins like both. -/
theorem BeginsWith.ne {start start' : List Char} {line line' : String}
    (h : BeginsWith (String.ofList start) line) (h' : BeginsWith (String.ofList start') line')
    (hstart : ¬(start <+: start' ∨ start' <+: start)) : line ≠ line' := by
  rintro rfl
  rw [BeginsWith, String.toList_ofList] at h h'
  exact hstart (List.prefix_or_prefix_of_prefix h h')

theorem BeginsWith.ne_ofList {start other : List Char} {line : String}
    (h : BeginsWith (String.ofList start) line) (hstart : ¬start <+: other) :
    line ≠ String.ofList other := by
  rintro rfl
  exact hstart (beginsWith_ofList.1 h)

/-! ### Functions that bind members -/

theorem beginsWith_signature (name : String) : BeginsWith "    static " (signature name) :=
  (((beginsWith_append _ _).append _).append _).append _

theorem signature_inj {name name' : String} : signature name = signature name' ↔ name = name' := by
  constructor
  · intro h
    exact (String.append_right_inj _).1 ((String.append_left_inj _).1 h)
  · exact congrArg signature

theorem beginsWith_switchLines {start indent : String} (h : BeginsWith start indent)
    (subject type : String) (pairs : List EnumPair) :
    ∀ line ∈ WriteStep.switchLines indent subject type pairs, BeginsWith start line := by
  intro line hline
  simp only [WriteStep.switchLines, List.cons_append, List.mem_cons, List.mem_append, List.mem_map,
    List.not_mem_nil, or_false] at hline
  rcases hline with rfl | ⟨p, -, rfl⟩ | rfl
  all_goals
    repeat' with_reducible apply BeginsWith.append
    exact h

/-- The code of a step stands inside a function. -/
theorem beginsWith_lines (step : WriteStep) : ∀ line ∈ step.lines, BeginsWith "        " line := by
  have helse : ∀ line ∈ WriteStep.elseNull, BeginsWith "        " line := by decide
  intro line hline
  cases step with
  | choice m type pairs => exact beginsWith_switchLines (by decide) _ _ _ line hline
  | choiceOrNull m type pairs =>
    simp only [WriteStep.lines, List.cons_append, List.mem_cons, List.mem_append] at hline
    rcases hline with rfl | hline | hline
    · repeat' with_reducible apply BeginsWith.append
      exact beginsWith_ofList.2 (by decide)
    · exact beginsWith_switchLines (by decide) _ _ _ line hline
    · exact helse line hline
  | jsonOrNull m =>
    simp only [WriteStep.lines, List.mem_append, List.mem_cons, List.not_mem_nil,
      or_false] at hline
    rcases hline with (rfl | rfl | rfl | rfl) | hline
    · repeat' with_reducible apply BeginsWith.append
      exact beginsWith_ofList.2 (by decide)
    · decide
    · repeat' with_reducible apply BeginsWith.append
      exact beginsWith_ofList.2 (by decide)
    · decide
    · exact helse line hline
  | skip m _ | value m | text m | json m =>
    rw [WriteStep.lines, List.mem_singleton] at hline
    subst hline
    repeat' with_reducible apply BeginsWith.append
    exact beginsWith_ofList.2 (by decide)

theorem beginsWith_argumentLine (step : WriteStep) (last : Option String) :
    BeginsWith "        " (step.argumentLine last) := by
  cases step <;>
    · unfold WriteStep.argumentLine
      repeat' with_reducible apply BeginsWith.append
      exact beginsWith_ofList.2 (by decide)

theorem beginsWith_body (body : ParamsBody) :
    ∀ line ∈ body.lines, BeginsWith "        " line := by
  intro line hline
  cases body with
  | call steps last =>
    simp only [ParamsBody.lines, List.cons_append, List.mem_cons, List.mem_append, List.mem_map,
      List.not_mem_nil, or_false] at hline
    rcases hline with rfl | ⟨step, -, rfl⟩ | rfl
    · decide
    · exact beginsWith_argumentLine step last
    · decide
  | sequence steps =>
    simp only [ParamsBody.lines, List.cons_append, List.mem_cons, List.mem_append,
      List.mem_flatMap, List.not_mem_nil, or_false] at hline
    rcases hline with rfl | ⟨step, -, hline⟩ | rfl
    · decide
    · exact beginsWith_lines step line hline
    · decide

/-- A function that binds members opens no other function. -/
theorem signature_mem_paramsFunction_iff (name name' : String) (body : ParamsBody) :
    signature name ∈ paramsFunction name' body ↔ name = name' := by
  have hlines : paramsFunction name' body =
      "    template<typename Entity>" :: signature name' :: (body.lines ++ ["    \x7d"]) := rfl
  -- the lines of the body stand further to the right than any function
  have hsignature := beginsWith_signature name
  have hopen : signature name ≠ "    template<typename Entity>" :=
    hsignature.ne_ofList (by decide)
  have hclose : signature name ≠ "    \x7d" :=
    hsignature.ne_ofList (by decide)
  have hbody : signature name ∉ body.lines := fun h =>
    hsignature.ne (beginsWith_body body _ h) (by decide) rfl
  rw [hlines, List.mem_cons, List.mem_cons, List.mem_append, List.mem_singleton, signature_inj]
  simp only [hopen, hclose, hbody, false_or, or_false]

/-! ### Constants that hold statements -/

theorem beginsWith_constantLine (name : String) :
    BeginsWith "        static constexpr const char* " (constantLine name) :=
  (beginsWith_append _ _).append _

theorem constantLine_inj {name name' : String} :
    constantLine name = constantLine name' ↔ name = name' := by
  constructor
  · intro h
    exact (String.append_right_inj _).1 ((String.append_left_inj _).1 h)
  · exact congrArg constantLine

theorem constantLine_mem_sqlConstant_iff (name name' text : String) :
    constantLine name ∈ sqlConstant name' text ↔ name = name' := by
  have hlines : sqlConstant name' text =
      [constantLine name', s!"            {quote text};"] := rfl
  have htext : constantLine name ≠ s!"            {quote text};" :=
    (beginsWith_constantLine name).ne ((beginsWith_append _ _).append _) (by decide)
  rw [hlines, List.mem_cons, List.mem_singleton, constantLine_inj]
  simp only [htext, or_false]

/-- The constants are those of the names. -/
theorem constantLine_mem_sqlStruct_iff (name : String) (e : Entity) :
    constantLine name ∈ sqlStruct e ↔ name ∈ (sqlTexts e).map Prod.fst := by
  have hopen : constantLine name ≠ "    struct SQL \x7b" :=
    (beginsWith_constantLine name).ne_ofList (by decide)
  have hclose : constantLine name ≠ "    \x7d;" :=
    (beginsWith_constantLine name).ne_ofList (by decide)
  rw [sqlStruct, List.cons_append, List.mem_cons, List.mem_append, List.mem_flatMap,
    List.mem_singleton, List.mem_map]
  simp only [hopen, hclose, false_or, or_false, constantLine_mem_sqlConstant_iff, eq_comm]

/-- Two constants are written only under a condition. -/
theorem map_fst_sqlTexts (e : Entity) :
    (sqlTexts e).map Prod.fst =
      ["returning_columns", "select_by_pk", "select_by_pks", "insert"] ++
        (if e.statements.update.isSome then ["update"] else []) ++ ["delete_by_pk"] ++
        if e.statements.deleteWithPartition.isSome then ["delete_with_partition"] else [] := by
  simp only [sqlTexts]
  cases e.statements.update <;> cases e.statements.deleteWithPartition <;> rfl

end RowMapping.Mapping
