import Mathlib.Data.List.Basic
import RowMapping.Mapping.Params
/-!
# Code that binds parameters

The functions that bind the values of a row are code of a few forms: comments, pushes, a block that
serializes a member, a branch on whether a member holds a value, and a switch over enumerators.
Here this code has a text and is run.  Each member binds one parameter on every path but one: a
switch has a case for each pair of an enum mapping and no other, so an enumerator without a pair
binds nothing.

* `Code`, `Code.lines`, `Code.run`: the code, its text, and what it does;
* `WriteStep.code`, `WriteStep.lines_code`: the code of a step, whose text is that of the step;
* `BodyCode`, `ParamsBody.code`, `ParamsBody.lines_code`: the same for a body;
* `paramsFunction_eq_code`: and for the function that has this body;
* `Entity.parameter?`, `Entity.IsUnmapped`: the parameter of a member, and when there is none;
* `run_code_writeStep`: the code for a member binds its parameter.
-/

namespace RowMapping

open Text Mapping

namespace Mapping

/-! ### Code and its text -/

/-- A member of an object, or the value that a member holds which may be empty. -/
inductive Subject
  | member (name : String)
  | content (name : String)
  deriving DecidableEq, Repr

/-- What is pushed. -/
inductive Argument
  /-- A member itself. -/
  | member (name : String)
  /-- The text that a member holds. -/
  | heldText (name : String)
  /-- The local variable for JSON texts. -/
  | buffer
  | literal (text : String)
  deriving DecidableEq, Repr

/-- A single instruction. -/
inductive Instruction
  /-- Declares the local variable for JSON texts. -/
  | declare
  /-- Writes the JSON text of a value to this variable. -/
  | serialize (subject : Subject)
  | push (argument : Argument)
  | pushNull
  deriving DecidableEq, Repr

/-- The two ways to ask whether a member holds a value. -/
inductive Test
  | truth (name : String)
  | hasValue (name : String)
  deriving DecidableEq, Repr

/-- The code between the first and the last line of a body. -/
inductive Code
  | comment (text : String)
  | single (i : Instruction)
  /-- Instructions between braces on one line. -/
  | block (is : List Instruction)
  /-- A switch over the enumerators of a type, each case with one instruction and a break. -/
  | switch (subject : Subject) (type : String) (cases : List (String × Instruction))
  | branch (test : Test) (body other : Code)
  | seq (first second : Code)
  deriving DecidableEq, Repr

def Subject.name : Subject → String
  | member name | content name => name

def Subject.text : Subject → String
  | member name => s!"e.{name}"
  | content name => s!"*e.{name}"

def Argument.text : Argument → String
  | member name => s!"e.{name}"
  | heldText name => s!"e.{name}.str"
  | buffer => "json"
  | literal text => quote text

def Instruction.text : Instruction → String
  | declare => "std::string json;"
  | serialize subject => "glz::write_json(" ++ subject.text ++ ", json);"
  | push argument => "p.push(" ++ argument.text ++ ");"
  | pushNull => "p.pushNull();"

def Test.name : Test → String
  | truth name | hasValue name => name

def Test.text : Test → String
  | truth name => s!"e.{name}"
  | hasValue name => s!"e.{name}.has_value()"

/-- The lines of code that stands at an indentation. -/
def Code.lines (indent : String) : Code → List String
  | comment text => [s!"{indent}// {text}"]
  | single i => [s!"{indent}{i.text}"]
  | block is => [indent ++ "\x7b " ++ " ".intercalate (is.map Instruction.text) ++ " \x7d"]
  | switch subject type cases =>
    s!"{indent}switch ({subject.text}) \x7b" ::
      (cases.map fun c => s!"{indent}    case {type}::{c.1}: {c.2.text} break;") ++
      [s!"{indent}\x7d"]
  | branch test body other =>
    s!"{indent}if ({test.text}) \x7b" :: body.lines (indent ++ "    ") ++
      s!"{indent}\x7d else \x7b" :: other.lines (indent ++ "    ") ++ [s!"{indent}\x7d"]
  | seq first second => first.lines indent ++ second.lines indent

/-! ### Running code -/

/-- The members of an object when code runs.  An enum type is any type `V` with some values of which
have names. -/
structure Values (V : Type) where
  /-- The member holds a value; it may be empty otherwise. -/
  isPresent : String → Bool
  /-- The enumerator that a member is or holds. -/
  enumerator : String → V
  /-- The enumerator of a type and a name. -/
  constant : (type name : String) → V

/-- A parameter that has been bound. -/
inductive Parameter
  /-- The value of a member. -/
  | value (member : String)
  /-- The text that a member holds. -/
  | text (member : String)
  /-- The JSON text of a member or of the value that it holds. -/
  | json (member : String)
  | literal (text : String)
  | null
  deriving DecidableEq, Repr

/-- What the local variable for JSON texts holds, and what has been bound. -/
structure Frame where
  buffer : Parameter := .literal ""
  bound : List Parameter := []
  deriving DecidableEq, Repr

variable {V : Type} [DecidableEq V] (v : Values V)

/-- The value can be used: the value that a member holds only when the member is not empty. -/
def Subject.isUsable : Subject → Bool
  | member _ => true
  | content name => v.isPresent name

def Argument.parameter (s : Frame) : Argument → Parameter
  | member name => .value name
  | heldText name => .text name
  | buffer => s.buffer
  | literal text => .literal text

/-- One instruction.  There is no outcome when the value of an empty member is used. -/
def Instruction.run : Instruction → Frame → Option Frame
  | declare, s => some { s with buffer := .literal "" }
  | serialize subject, s =>
    if subject.isUsable v then some { s with buffer := .json subject.name } else none
  | push argument, s => some { s with bound := s.bound ++ [argument.parameter s] }
  | pushNull, s => some { s with bound := s.bound ++ [.null] }

/-- Code runs; of the cases of a switch the one for the enumerator runs, if there is one. -/
def Code.run : Code → Frame → Option Frame
  | comment _, s => some s
  | single i, s => i.run v s
  | block is, s => is.foldlM (fun s i => i.run v s) s
  | switch subject type cases, s =>
    if subject.isUsable v then
      match cases.find? fun c => v.constant type c.1 = v.enumerator subject.name with
      | some c => c.2.run v s
      | none => some s
    else none
  | branch test body other, s =>
    if v.isPresent test.name then body.run s else other.run s
  | seq first second, s => (first.run s).bind second.run

/-- Code runs one piece after the other. -/
def Code.runAll (codes : List Code) (s : Frame) : Option Frame :=
  codes.foldlM (fun s c => c.run v s) s

/-! ### The code of a body -/

/-- The cases of a switch that binds the texts of enumerators. -/
def pushCases (pairs : List EnumPair) : List (String × Instruction) :=
  pairs.map fun p => (p.enumerator, .push (.literal p.external))

/-- The code of a step. -/
def WriteStep.code : WriteStep → Code
  | skip m reason => .comment s!"{m}: skipped ({reason})"
  | value m => .single (.push (.member m))
  | text m => .single (.push (.heldText m))
  | json m => .block [.declare, .serialize (.member m), .push .buffer]
  | jsonOrNull m =>
    .branch (.truth m)
      (.seq (.single .declare)
        (.seq (.single (.serialize (.content m))) (.single (.push .buffer))))
      (.single .pushNull)
  | choice m type pairs => .switch (.member m) type (pushCases pairs)
  | choiceOrNull m type pairs =>
    .branch (.hasValue m) (.switch (.content m) type (pushCases pairs)) (.single .pushNull)

/-- A line between the brackets of a call. -/
inductive CallLine
  | comment (text : String)
  | argument (member : String) (isLast : Bool)
  deriving DecidableEq, Repr

def CallLine.text : CallLine → String
  | comment text => "            " ++ "// " ++ text
  | argument member isLast => s!"            e.{member}" ++ if isLast then "" else ","

theorem CallLine.text_eq (member : String) (isLast : Bool) : (argument member isLast).text =
    s!"            e.{member}" ++ if isLast then "" else "," := rfl

/-- The parameter that an argument of a call binds. -/
def CallLine.parameter? : CallLine → Option Parameter
  | comment _ => none
  | argument member _ => some (.value member)

/-- The line of a step in a call. -/
def WriteStep.callLine (last : Option String) : WriteStep → CallLine
  | skip m reason => .comment s!"{m}: skipped ({reason})"
  | step => .argument step.member (some step.member = last)

/-- The code of a body. -/
inductive BodyCode
  | call (ls : List CallLine)
  | sequence (codes : List Code)
  deriving DecidableEq, Repr

def BodyCode.lines : BodyCode → List String
  | call ls =>
    s!"        return {paramsType}::make(" :: ls.map CallLine.text ++ ["        );"]
  | sequence codes =>
    s!"        {paramsType} p;" :: codes.flatMap (Code.lines "        ") ++ ["        return p;"]

/-- The parameters that a body returns. -/
def BodyCode.run : BodyCode → Option (List Parameter)
  | call ls => some (ls.filterMap CallLine.parameter?)
  | sequence codes => (Code.runAll v codes {}).map Frame.bound

def ParamsBody.code : ParamsBody → BodyCode
  | call steps last => .call (steps.map (WriteStep.callLine last))
  | sequence steps => .sequence (steps.map WriteStep.code)

theorem text_push (argument : Argument) :
    (Instruction.push argument).text = "p.push(" ++ argument.text ++ ");" := rfl

/-- The line of a single push. -/
theorem lines_push (indent : String) (argument : Argument) :
    (Code.single (.push argument)).lines indent =
      [indent ++ ("p.push(" ++ argument.text ++ ");")] := rfl

theorem lines_switch (indent type : String) (subject : Subject) (pairs : List EnumPair) :
    (Code.switch subject type (pushCases pairs)).lines indent =
      WriteStep.switchLines indent subject.text type pairs := by
  have hcase (p : EnumPair) : ": " ++ ("p.push(" ++ (quote p.external ++ (");" ++ " break;"))) =
      ": p.push(" ++ (quote p.external ++ "); break;") := by
    rw [← String.append_assoc]
    rfl
  rw [Code.lines, WriteStep.switchLines, pushCases, List.map_map]
  congr 3
  funext p
  simp only [Function.comp_apply, text_push, Argument.text, toString, String.append_assoc, hcase]

/-- A branch whose other half binds null. -/
theorem lines_branch (test : Test) (body : Code) :
    (Code.branch test body (.single .pushNull)).lines "        " =
      ("        " ++ "if (" ++ test.text ++ ") \x7b") :: body.lines "            " ++
        WriteStep.elseNull := by
  have hnull : ("        " ++ "\x7d else \x7b") :: (Code.single .pushNull).lines "            " ++
      ["        " ++ "\x7d"] = WriteStep.elseNull := by decide
  rw [← hnull]
  simp only [Code.lines, List.append_assoc, List.cons_append]
  rfl

/-- The code of a step is the text that is generated for it. -/
theorem WriteStep.lines_code (step : WriteStep) : step.code.lines "        " = step.lines := by
  cases step with
  | skip m reason =>
    simp only [code, Code.lines, lines, toString, ← String.append_assoc, String.reduceAppend]
  | value m =>
    simp only [code, lines_push, lines, Argument.text, toString, ← String.append_assoc,
      String.reduceAppend]
  | text m =>
    simp only [code, lines_push, lines, Argument.text, toString, ← String.append_assoc,
      String.reduceAppend]
    simp only [String.append_assoc, String.reduceAppend]
  | json m =>
    have hjoin (a b c : String) : " ".intercalate [a, b, c] = a ++ " " ++ b ++ " " ++ c := rfl
    have htext : "        " ++ "\x7b " ++ ("std::string json;" ++ " " ++ ("glz::write_json(" ++
        ("e." ++ m) ++ ", json);") ++ " " ++ "p.push(json);") ++ " \x7d" =
        "        \x7b std::string json; glz::write_json(e." ++ m ++
          ", json); p.push(json); \x7d" := by
      simp only [← String.append_assoc, String.reduceAppend]
      simp only [String.append_assoc, String.reduceAppend]
    change ["        " ++ "\x7b " ++ " ".intercalate ["std::string json;", "glz::write_json(" ++
      ("e." ++ m) ++ ", json);", "p.push(json);"] ++ " \x7d"] = _
    rw [hjoin, htext]
    rfl
  | jsonOrNull m =>
    have htest : "        " ++ "if (" ++ ("e." ++ m) ++ ") \x7b" =
        "        if (e." ++ m ++ ") \x7b" := by
      simp only [← String.append_assoc, String.reduceAppend]
    have hwrite : "            " ++ ("glz::write_json(" ++ ("*e." ++ m) ++ ", json);") =
        "            glz::write_json(*e." ++ m ++ ", json);" := by
      simp only [← String.append_assoc, String.reduceAppend]
    have hdeclare : "            " ++ "std::string json;" = "            std::string json;" := by
      decide
    have hpush : "            " ++ "p.push(json);" = "            p.push(json);" := by decide
    rw [code, lines_branch]
    change ("        " ++ "if (" ++ ("e." ++ m) ++ ") \x7b") ::
      ["            " ++ "std::string json;",
        "            " ++ ("glz::write_json(" ++ ("*e." ++ m) ++ ", json);"),
        "            " ++ "p.push(json);"] ++ elseNull = _
    rw [htest, hwrite, hdeclare, hpush]
    rfl
  | choice m type pairs => exact lines_switch _ _ _ _
  | choiceOrNull m type pairs =>
    have htest : "        " ++ "if (" ++ ("e." ++ m ++ ".has_value()") ++ ") \x7b" =
        "        if (e." ++ m ++ ".has_value()) \x7b" := by
      simp only [← String.append_assoc, String.reduceAppend]
      simp only [String.append_assoc, String.reduceAppend]
    rw [code, lines_branch, lines_switch]
    change ("        " ++ "if (" ++ ("e." ++ m ++ ".has_value()") ++ ") \x7b") :: _ ++ elseNull = _
    rw [htest]
    rfl

theorem text_argument (member : String) (last : Option String) :
    (CallLine.argument member (some member = last)).text =
      s!"            e.{member}" ++ if some member = last then "" else "," := by
  simp only [CallLine.text_eq, decide_eq_true_eq]

theorem text_callLine (last : Option String) (step : WriteStep) :
    (step.callLine last).text = step.argumentLine last := by
  cases step with
  | skip m reason =>
    change "            " ++ "// " ++ (m ++ ": skipped (" ++ reason ++ ")") =
      "            // " ++ m ++ ": skipped (" ++ reason ++ ")"
    simp only [← String.append_assoc, String.reduceAppend]
  | _ m => exact text_argument m last

/-- The code of a body is the text that is generated for it. -/
theorem ParamsBody.lines_code (b : ParamsBody) : b.code.lines = b.lines := by
  cases b with
  | call steps last =>
    simp only [code, BodyCode.lines, lines, List.map_map]
    congr 2
    exact List.map_congr_left fun step _ => text_callLine last step
  | sequence steps =>
    simp only [code, BodyCode.lines, lines, List.flatMap_map]
    congr 2
    exact List.flatMap_congr fun step _ => step.lines_code

/-- The text of a function is that of the code of its body. -/
theorem paramsFunction_eq_code (name : String) (b : ParamsBody) :
    paramsFunction name b =
      ["    template<typename Entity>",
        s!"    static {paramsType} {name}(const Entity& e) \x7b"] ++ b.code.lines ++
        ["    \x7d"] := by
  rw [ParamsBody.lines_code, paramsFunction]

/-! ### What the code binds -/

/-- A branch on an empty member binds null. -/
theorem run_branch_of_absent (test : Test) (h : v.isPresent test.name = false) (body : Code)
    (s : Frame) : (Code.branch test body (.single .pushNull)).run v s =
      some { s with bound := s.bound ++ [.null] } := by
  rw [Code.run, h]
  rfl

theorem run_branch_of_present (test : Test) (h : v.isPresent test.name = true) (body other : Code)
    (s : Frame) : (Code.branch test body other).run v s = body.run v s := by
  rw [Code.run, h]
  rfl

/-- The text that a mapping has for the enumerator of a member; the first pair counts. -/
def Values.textOf? (type : String) (pairs : List EnumPair) (member : String) : Option String :=
  (pairs.find? fun p => v.constant type p.enumerator = v.enumerator member).map EnumPair.external

/-- A switch binds the text of the enumerator, and nothing when there is none. -/
theorem run_switch (type : String) (pairs : List EnumPair) {subject : Subject}
    (h : subject.isUsable v = true) (s : Frame) :
    (Code.switch subject type (pushCases pairs)).run v s = some { s with
      bound := s.bound ++ ((v.textOf? type pairs subject.name).map .literal).toList } := by
  rw [Code.run, if_pos h, pushCases, List.find?_map, Values.textOf?]
  have hcase : ((fun c : String × Instruction =>
      decide (v.constant type c.1 = v.enumerator subject.name)) ∘
        fun p : EnumPair => (p.enumerator, Instruction.push (.literal p.external))) =
      fun p => decide (v.constant type p.enumerator = v.enumerator subject.name) := rfl
  rw [hcase]
  cases pairs.find? fun p => decide (v.constant type p.enumerator = v.enumerator subject.name) with
  | none => simp
  | some p => rfl

end Mapping

namespace Entity

variable {V : Type} [DecidableEq V] (v : Values V) (e : Entity)

/-- A member that may be empty is empty. -/
def isAbsent (m : Member) : Bool := m.isOptional && !v.isPresent m.name

/-- The parameter for a member.  There is none for an enumerator without a text. -/
def parameter? (m : Member) : Option Parameter :=
  match e.carrier m with
  | .json => some (if isAbsent v m then .null else .json m.name)
  | .rawJson => some (.text m.name)
  | .enumeration type pairs =>
    if isAbsent v m then some .null else (v.textOf? type pairs m.name).map .literal
  | .plain => some (.value m.name)

/-- The member holds an enumerator for which its mapping has no text. -/
def IsUnmapped (m : Member) : Prop :=
  ∃ type pairs, e.carrier m = .enumeration type pairs ∧ isAbsent v m = false ∧
    ∀ p ∈ pairs, v.constant type p.enumerator ≠ v.enumerator m.name

theorem parameter?_eq_none_iff (m : Member) : e.parameter? v m = none ↔ e.IsUnmapped v m := by
  unfold parameter? IsUnmapped
  cases e.carrier m with
  | enumeration type pairs =>
    cases isAbsent v m <;> simp [Values.textOf?]
  | _ => simp

/-- The code for a member binds its parameter. -/
theorem run_code_writeStep (m : Member) (s : Frame) :
    ∃ buffer, (e.writeStep m).code.run v s =
      some ⟨buffer, s.bound ++ (e.parameter? v m).toList⟩ := by
  unfold writeStep parameter? isAbsent
  cases e.carrier m with
  | plain => exact ⟨s.buffer, rfl⟩
  | rawJson => exact ⟨s.buffer, rfl⟩
  | json =>
    cases m.isOptional with
    | false => exact ⟨.json m.name, rfl⟩
    | true =>
      cases hp : v.isPresent m.name with
      | false => exact ⟨s.buffer, run_branch_of_absent v (.truth m.name) hp _ s⟩
      | true =>
        have husable : (Subject.content m.name).isUsable v = true := hp
        refine ⟨.json m.name, (run_branch_of_present v (.truth m.name) hp _ _ s).trans ?_⟩
        simp [Code.run, Instruction.run, husable, Subject.name, Argument.parameter]
  | enumeration type pairs =>
    cases m.isOptional with
    | false => exact ⟨s.buffer, run_switch v type pairs rfl s⟩
    | true =>
      cases hp : v.isPresent m.name with
      | false => exact ⟨s.buffer, run_branch_of_absent v (.hasValue m.name) hp _ s⟩
      | true =>
        have husable : (Subject.content m.name).isUsable v = true := hp
        exact ⟨s.buffer, (run_branch_of_present v (.hasValue m.name) hp _ _ s).trans
          (run_switch v type pairs husable s)⟩

end Entity

end RowMapping
