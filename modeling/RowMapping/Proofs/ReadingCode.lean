import Mathlib.Logic.Function.Basic
import RowMapping.Proofs.ColumnOrder
/-!
# What the reading function does

The function that reads a row is code of a few forms: calls that give a member the value of a
column, blocks that keep the text of a column in a local variable, branches on whether a column is
null, and chains of comparisons.  Here this code is run on a new object.  What the row and the
serializer give is left open, but for the one thing that is relied on: a value or nothing is nothing
for null.

* `ReadCode`, `ReadCode.lines`, `ReadCode.run`: the code, its text, and what it does;
* `ReadCode.tests`: the code asks whether a column is null;
* `ReadStep.code`, `ReadStep.lines_code`: the code of a step, whose text is that of the step;
* `object_run_code`: a step leaves the other members alone;
* `Entity.read`, `Entity.read_of_isNull`: what a whole row does to a member whose column is null.
-/

namespace RowMapping

open Text Mapping

namespace Mapping

/-! ### Chains of comparisons -/

/-- A comparison of the text of a column with a literal, which is kept as it is written, and the
enumerator that it takes. -/
structure Comparison where
  literal : String
  type : String
  enumerator : String
  deriving DecidableEq, Repr

/-- The text of a comparison for a member. -/
def Comparison.text (member : String) (c : Comparison) : String :=
  " (s == " ++ c.literal ++ ") e." ++ member ++ " = " ++ c.type ++ "::" ++ c.enumerator ++ ";"

/-- The lines of a chain of comparisons. -/
def chainLines (member : String) : List Comparison → List String
  | [] => []
  | c :: cs =>
    ("            if" ++ c.text member) :: cs.map fun d => "            else if" ++ d.text member

/-- The comparison for a pair. -/
def comparison (type : String) (p : EnumPair) : Comparison := ⟨quote p.external, type, p.enumerator⟩

theorem text_comparison {member type : String} (keyword : String) (p : EnumPair) :
    "            " ++ keyword ++ (comparison type p).text member =
      ReadStep.choiceLine keyword member type p := by
  change "            " ++ keyword ++ (" (s == " ++ quote p.external ++ ") e." ++ member ++ " = " ++
      type ++ "::" ++ p.enumerator ++ ";") =
    "            " ++ keyword ++ " (s == " ++ quote p.external ++ ") e." ++ member ++ " = " ++
      type ++ "::" ++ p.enumerator ++ ";"
  simp only [← String.append_assoc]

/-- The lines of a chain are those of its comparisons. -/
theorem chainLines_eq {member type : String} {pairs : List EnumPair} :
    chainLines member (pairs.map (comparison type)) = ReadStep.choiceLines member type pairs := by
  cases pairs with
  | nil => rfl
  | cons p ps =>
    have hif : "            " ++ "if" = "            if" := by decide
    have helse : "            " ++ "else if" = "            else if" := by decide
    rw [List.map_cons, chainLines, ReadStep.choiceLines, List.map_map, ← text_comparison, hif]
    refine congrArg _ (List.map_congr_left fun q _ => ?_)
    rw [← text_comparison, ← helse]
    rfl

/-! ### Code and its text -/

/-- A single instruction. -/
inductive ReadInstruction
  /-- Keeps the text of a column in the local variable for texts. -/
  | takeText (column : String)
  /-- Keeps the text of a column in the local variable for JSON texts. -/
  | takeJson (column : String)
  /-- Declares a variable of the type that a member may hold a value of. -/
  | declare (member : String)
  /-- Moves this variable to a member. -/
  | move (member : String)
  /-- Reads the JSON text of a column into a member. -/
  | parse (member column : String)
  /-- Has a member hold the text of a column. -/
  | keepText (member column : String)
  /-- Gives a member the value of a column. -/
  | assign (member type column : String)
  /-- Gives a member the value of a column, or nothing. -/
  | assignOpt (member type column : String)
  deriving DecidableEq, Repr

/-- A condition. -/
inductive ReadTest
  /-- A column is not null. -/
  | notNull (column : String)
  /-- The local JSON text is not empty. -/
  | notEmpty
  /-- The local JSON text is read into the declared variable without an error. -/
  | parsed
  deriving DecidableEq, Repr

/-- The code between the first and the last line of the function that reads a row. -/
inductive ReadCode
  | single (i : ReadInstruction)
  | scope (body : ReadCode)
  | branch (test : ReadTest) (body : ReadCode)
  /-- A branch with one instruction on the next line. -/
  | guarded (test : ReadTest) (i : ReadInstruction)
  /-- A chain of comparisons of the local text, which gives a member the enumerator of a pair. -/
  | chain (member type : String) (pairs : List EnumPair)
  | seq (first second : ReadCode)
  deriving DecidableEq, Repr

def ReadInstruction.text : ReadInstruction → String
  | takeText c => s!"auto s = row.get<std::string>(Col::{c});"
  | takeJson c => s!"auto json_str = row.get<std::string>(Col::{c});"
  | declare m => s!"typename std::remove_reference_t<decltype(*e.{m})> tmp;"
  | move m => s!"e.{m} = std::move(tmp);"
  | parse m c => s!"glz::read_json(e.{m}, row.get<std::string>(Col::{c}));"
  | keepText m c => s!"e.{m}.str = row.get<std::string>(Col::{c});"
  | assign m type c => s!"e.{m} = row.get<{type}>(Col::{c});"
  | assignOpt m type c => s!"e.{m} = row.getOpt<{type}>(Col::{c});"

def ReadTest.text : ReadTest → String
  | notNull c => s!"!row.isNull(Col::{c})"
  | notEmpty => "!json_str.empty()"
  | parsed => "!glz::read_json(tmp, json_str)"

/-- The lines of code that stands at an indentation. -/
def ReadCode.lines (indent : String) : ReadCode → List String
  | single i => [indent ++ i.text]
  | scope body => (indent ++ "\x7b") :: body.lines (indent ++ "    ") ++ [indent ++ "\x7d"]
  | branch test body =>
    (indent ++ "if (" ++ test.text ++ ") \x7b") :: body.lines (indent ++ "    ") ++
      [indent ++ "\x7d"]
  | guarded test i => [indent ++ "if (" ++ test.text ++ ")", indent ++ "    " ++ i.text]
  | chain _ _ [] => []
  | chain member type (p :: ps) =>
    (indent ++ "if" ++ (comparison type p).text member) ::
      ps.map fun q => indent ++ "else if" ++ (comparison type q).text member
  | seq first second => first.lines indent ++ second.lines indent

/-- The code asks whether a column is null. -/
def ReadCode.tests (column : String) : ReadCode → Bool
  | single (.assignOpt _ _ c) => c == column
  | single _ => false
  | scope body => body.tests column
  | branch test body => test == .notNull column || body.tests column
  | guarded test _ => test == .notNull column
  | chain _ _ _ => false
  | seq first second => first.tests column || second.tests column

/-! ### Running code -/

/-- What the generated code calls when it reads a row.  All values are of a type `V`. -/
structure RowReader (V : Type) where
  isNull : (column : String) → Bool
  text : (column : String) → String
  value : (type column : String) → V
  value? : (type column : String) → Option V
  /-- The value that a JSON text stands for, of the type that a member may hold a value of. -/
  parse : (member text : String) → Option V
  /-- What a member holds after a JSON text has been read into it. -/
  parseInto : (member : String) → Option V → (text : String) → Option V
  /-- What a member holds after the text in it has been replaced. -/
  keepText : (member : String) → Option V → (text : String) → Option V
  /-- The enumerator of a type and a name. -/
  constant : (type name : String) → V
  value?_of_isNull : ∀ type column, isNull column = true → value? type column = none

/-- The members of an object, which hold a value or are empty. -/
abbrev Contents (V : Type) : Type := String → Option V

/-- The object that is read, and the local variables. -/
structure ReadFrame (V : Type) where
  object : Contents V
  text : String := ""
  json : String := ""
  /-- The member whose type the declared variable has. -/
  declared : String := ""
  tmp : Option V := none

variable {V : Type} (r : RowReader V)

/-- A member is given a value, or is made empty. -/
def ReadFrame.set (s : ReadFrame V) (member : String) (content : Option V) : ReadFrame V :=
  { s with object := Function.update s.object member content }

@[simp] theorem ReadFrame.object_set (s : ReadFrame V) (member : String) (content : Option V) :
    (s.set member content).object member = content := by
  simp [set]

theorem ReadFrame.object_set_of_ne {s : ReadFrame V} {member name : String}
    (h : name ≠ member) (content : Option V) :
    (s.set member content).object name = s.object name := by
  simp [set, h]

def ReadInstruction.run : ReadInstruction → ReadFrame V → ReadFrame V
  | takeText c, s => { s with text := r.text c }
  | takeJson c, s => { s with json := r.text c }
  | declare m, s => { s with declared := m, tmp := none }
  | move m, s => s.set m s.tmp
  | parse m c, s => s.set m (r.parseInto m (s.object m) (r.text c))
  | keepText m c, s => s.set m (r.keepText m (s.object m) (r.text c))
  | assign m type c, s => s.set m (some (r.value type c))
  | assignOpt m type c, s => s.set m (r.value? type c)

/-- Whether a condition holds, and the variables behind it. -/
def ReadTest.run : ReadTest → ReadFrame V → Bool × ReadFrame V
  | notNull c, s => (!r.isNull c, s)
  | notEmpty, s => (s.json != "", s)
  | parsed, s =>
    match r.parse s.declared s.json with
    | some x => (true, { s with tmp := some x })
    | none => (false, s)

/-- Code runs; the first pair whose text is the local one counts. -/
def ReadCode.run : ReadCode → ReadFrame V → ReadFrame V
  | single i, s => i.run r s
  | scope body, s => body.run s
  | branch test body, s =>
    let (holds, s) := test.run r s
    if holds then body.run s else s
  | guarded test i, s =>
    let (holds, s) := test.run r s
    if holds then i.run r s else s
  | chain member type pairs, s =>
    match pairs.find? fun p => p.external = s.text with
    | some p => s.set member (some (r.constant type p.enumerator))
    | none => s
  | seq first second, s => second.run (first.run s)

/-- Code runs one piece after the other. -/
def ReadCode.runAll (codes : List ReadCode) (s : ReadFrame V) : ReadFrame V :=
  codes.foldl (fun s c => c.run r s) s

/-! ### The code of a step -/

/-- The code of a step. -/
def ReadStep.code : ReadStep → ReadCode
  | json m => .single (.parse m m)
  | jsonOrNull m =>
    .branch (.notNull m)
      (.seq (.single (.takeJson m))
        (.branch .notEmpty (.seq (.single (.declare m)) (.guarded .parsed (.move m)))))
  | text m => .single (.keepText m m)
  | choice m type pairs => .scope (.seq (.single (.takeText m)) (.chain m type pairs))
  | choiceOrNull m type pairs =>
    .branch (.notNull m) (.seq (.single (.takeText m)) (.chain m type pairs))
  | value m type => .single (.assign m type m)
  | valueOrNull m type => .single (.assignOpt m type m)

theorem lines_chain (member type : String) (pairs : List EnumPair) :
    (ReadCode.chain member type pairs).lines "            " =
      ReadStep.choiceLines member type pairs := by
  rw [← chainLines_eq]
  cases pairs with
  | nil => rfl
  | cons p ps =>
    rw [List.map_cons, chainLines, List.map_map]
    rfl

theorem lines_takeAndChain (member type : String) (pairs : List EnumPair) :
    (ReadCode.seq (.single (.takeText member)) (.chain member type pairs)).lines "            " =
      ("            auto s = row.get<std::string>(Col::" ++ member ++ ");") ::
        ReadStep.choiceLines member type pairs := by
  have htake : "            " ++ ("auto s = row.get<std::string>(Col::" ++ member ++ ");") =
      "            auto s = row.get<std::string>(Col::" ++ member ++ ");" := by
    simp only [← String.append_assoc, String.reduceAppend]
  rw [ReadCode.lines, lines_chain]
  exact congrArg (· :: ReadStep.choiceLines member type pairs) htake

theorem text_notNull (column : String) :
    "        " ++ "if (" ++ ("!row.isNull(Col::" ++ column ++ ")") ++ ") \x7b" =
      "        if (!row.isNull(Col::" ++ column ++ ")) \x7b" := by
  simp only [← String.append_assoc, String.reduceAppend]
  simp only [String.append_assoc, String.reduceAppend]

/-- The code of a step is the text that is generated for it. -/
theorem ReadStep.lines_code (step : ReadStep) : step.code.lines "        " = step.lines := by
  cases step with
  | json m =>
    have hline : "        " ++
        ("glz::read_json(e." ++ m ++ ", row.get<std::string>(Col::" ++ m ++ "));") =
          "        glz::read_json(e." ++ m ++ ", row.get<std::string>(Col::" ++ m ++ "));" := by
      simp only [← String.append_assoc, String.reduceAppend]
    exact congrArg (fun line => [line]) hline
  | text m =>
    have hline : "        " ++ ("e." ++ m ++ ".str = row.get<std::string>(Col::" ++ m ++ ");") =
        "        e." ++ m ++ ".str = row.get<std::string>(Col::" ++ m ++ ");" := by
      simp only [← String.append_assoc, String.reduceAppend]
    exact congrArg (fun line => [line]) hline
  | value m type =>
    have hline : "        " ++ ("e." ++ m ++ " = row.get<" ++ type ++ ">(Col::" ++ m ++ ");") =
        "        e." ++ m ++ " = row.get<" ++ type ++ ">(Col::" ++ m ++ ");" := by
      simp only [← String.append_assoc, String.reduceAppend]
    exact congrArg (fun line => [line]) hline
  | valueOrNull m type =>
    have hline : "        " ++ ("e." ++ m ++ " = row.getOpt<" ++ type ++ ">(Col::" ++ m ++ ");") =
        "        e." ++ m ++ " = row.getOpt<" ++ type ++ ">(Col::" ++ m ++ ");" := by
      simp only [← String.append_assoc, String.reduceAppend]
    exact congrArg (fun line => [line]) hline
  | choice m type pairs =>
    change ("        " ++ "\x7b") :: (ReadCode.seq (.single (.takeText m))
      (.chain m type pairs)).lines "            " ++ ["        " ++ "\x7d"] = _
    rw [lines_takeAndChain]
    rfl
  | choiceOrNull m type pairs =>
    change ("        " ++ "if (" ++ ("!row.isNull(Col::" ++ m ++ ")") ++ ") \x7b") ::
      (ReadCode.seq (.single (.takeText m)) (.chain m type pairs)).lines "            " ++
        ["        " ++ "\x7d"] = _
    rw [lines_takeAndChain, text_notNull]
    rfl
  | jsonOrNull m =>
    have htake : "            " ++ ("auto json_str = row.get<std::string>(Col::" ++ m ++ ");") =
        "            auto json_str = row.get<std::string>(Col::" ++ m ++ ");" := by
      simp only [← String.append_assoc, String.reduceAppend]
    have hdeclare : "                " ++ ("typename std::remove_reference_t<decltype(*e." ++ m ++
        ")> tmp;") =
        "                typename std::remove_reference_t<decltype(*e." ++ m ++ ")> tmp;" := by
      simp only [← String.append_assoc, String.reduceAppend]
    have hmove : "                " ++ "    " ++ ("e." ++ m ++ " = std::move(tmp);") =
        "                    e." ++ m ++ " = std::move(tmp);" := by
      simp only [← String.append_assoc, String.reduceAppend]
    change [("        " ++ "if (" ++ ("!row.isNull(Col::" ++ m ++ ")") ++ ") \x7b"),
      "            " ++ ("auto json_str = row.get<std::string>(Col::" ++ m ++ ");"),
      "            " ++ "if (" ++ "!json_str.empty()" ++ ") \x7b",
      "                " ++ ("typename std::remove_reference_t<decltype(*e." ++ m ++ ")> tmp;"),
      "                " ++ "if (" ++ "!glz::read_json(tmp, json_str)" ++ ")",
      "                " ++ "    " ++ ("e." ++ m ++ " = std::move(tmp);"),
      "            " ++ "\x7d", "        " ++ "\x7d"] = _
    rw [text_notNull, htake, hdeclare, hmove]
    rfl

/-! ### What a step does -/

/-- What stands behind a test for null does not run for null. -/
theorem run_branch_of_isNull {column : String} (h : r.isNull column = true) (body : ReadCode)
    (s : ReadFrame V) : (ReadCode.branch (.notNull column) body).run r s = s := by
  simp [ReadCode.run, ReadTest.run, h]

section

variable {name : String} (s : ReadFrame V)

theorem object_run_seq {first second : ReadCode}
    (h : ∀ s, (first.run r s).object name = s.object name)
    (h' : ∀ s, (second.run r s).object name = s.object name) :
    ((ReadCode.seq first second).run r s).object name = s.object name :=
  (h' (first.run r s)).trans (h s)

theorem object_run_chain {member : String} (h : name ≠ member) (type : String)
    (pairs : List EnumPair) :
    ((ReadCode.chain member type pairs).run r s).object name = s.object name := by
  unfold ReadCode.run
  split
  · exact ReadFrame.object_set_of_ne h _
  · rfl

/-- A test changes local variables only. -/
theorem object_run_test (test : ReadTest) : (test.run r s).2.object = s.object := by
  cases test with
  | notNull column => rfl
  | notEmpty => rfl
  | parsed =>
    simp only [ReadTest.run]
    split <;> rfl

theorem object_run_branch (test : ReadTest) {body : ReadCode}
    (h : ∀ s, (body.run r s).object name = s.object name) :
    ((ReadCode.branch test body).run r s).object name = s.object name := by
  have htest := congrFun (object_run_test r s test) name
  change (if (test.run r s).1 then body.run r (test.run r s).2
    else (test.run r s).2).object name = _
  split
  · rw [h, htest]
  · exact htest

theorem object_run_guarded {member : String} (h : name ≠ member) (test : ReadTest) :
    ((ReadCode.guarded test (.move member)).run r s).object name = s.object name := by
  have htest := congrFun (object_run_test r s test) name
  change (if (test.run r s).1 then (test.run r s).2.set member (test.run r s).2.tmp
    else (test.run r s).2).object name = _
  split
  · rw [ReadFrame.object_set_of_ne h, htest]
  · exact htest

/-- A step reads its own member and leaves the others alone. -/
theorem object_run_code (step : ReadStep) (h : name ≠ step.member) :
    (step.code.run r s).object name = s.object name := by
  cases step with
  | json m => exact ReadFrame.object_set_of_ne h _
  | text m => exact ReadFrame.object_set_of_ne h _
  | value m type => exact ReadFrame.object_set_of_ne h _
  | valueOrNull m type => exact ReadFrame.object_set_of_ne h _
  | choice m type pairs =>
    exact object_run_seq r s (fun _ => rfl) fun s => object_run_chain r s h type pairs
  | choiceOrNull m type pairs =>
    refine object_run_branch r s _ fun s => object_run_seq r s (fun _ => rfl) fun s => ?_
    exact object_run_chain r s h type pairs
  | jsonOrNull m =>
    refine object_run_branch r s _ fun s => object_run_seq r s (fun _ => rfl) fun s => ?_
    refine object_run_branch r s _ fun s => object_run_seq r s (fun _ => rfl) fun s => ?_
    exact object_run_guarded r s h _

end

end Mapping

namespace Entity

variable {V : Type} (r : RowReader V) {e : Entity} {m : Member}

/-- The object after a row has been read into it. -/
def read (e : Entity) (object : Contents V) : Contents V :=
  (ReadCode.runAll r (e.readSteps.map ReadStep.code) { object := object }).object

/-- What a member that may be empty holds after its column was null.  A step with a test for null
leaves it as it was, and a step that reads a value or nothing empties it. -/
def contentOfNull (e : Entity) (m : Member) (content : Option V) : Option V :=
  match e.carrier m with
  | .json | .enumeration _ _ => content
  | .rawJson => r.keepText m.name content (r.text m.name)
  | .plain => none

/-- The step for a member whose column is null. -/
theorem object_run_readStep (hopt : m.isOptional = true) (hnull : r.isNull m.name = true)
    (s : ReadFrame V) : ((e.readStep m).code.run r s).object m.name =
      e.contentOfNull r m (s.object m.name) := by
  unfold readStep contentOfNull
  rw [hopt]
  cases e.carrier m with
  | json => exact congrArg (fun s => s.object m.name) (run_branch_of_isNull r hnull _ s)
  | enumeration type pairs =>
    exact congrArg (fun s => s.object m.name) (run_branch_of_isNull r hnull _ s)
  | rawJson => exact s.object_set m.name _
  | plain =>
    change (s.set m.name (r.value? m.valueType m.name)).object m.name = none
    rw [ReadFrame.object_set, r.value?_of_isNull _ _ hnull]

/-- The steps for members leave a member of another name alone. -/
theorem object_runAll_of_not_mem {ms : List Member} {name : String}
    (h : name ∉ ms.map Member.name) (s : ReadFrame V) :
    (ReadCode.runAll r (ms.map fun n => (e.readStep n).code) s).object name = s.object name := by
  induction ms generalizing s with
  | nil => rfl
  | cons n ms ih =>
    rw [List.map_cons, List.mem_cons, not_or] at h
    rw [List.map_cons, ReadCode.runAll, List.foldl_cons]
    refine (ih h.2 _).trans (object_run_code r s _ ?_)
    rw [member_readStep]
    exact h.1

/-- The steps for members of different names, with one whose column is null. -/
theorem object_runAll_of_mem {ms : List Member} (hd : (ms.map Member.name).Nodup) (hm : m ∈ ms)
    (hopt : m.isOptional = true) (hnull : r.isNull m.name = true) (s : ReadFrame V) :
    (ReadCode.runAll r (ms.map fun n => (e.readStep n).code) s).object m.name =
      e.contentOfNull r m (s.object m.name) := by
  induction ms generalizing s with
  | nil => cases hm
  | cons n ms ih =>
    rw [List.map_cons, List.nodup_cons] at hd
    rw [List.map_cons, ReadCode.runAll, List.foldl_cons]
    rcases List.mem_cons.1 hm with rfl | hm
    · exact (object_runAll_of_not_mem r hd.1 _).trans (object_run_readStep r hopt hnull s)
    · have hne : m.name ≠ (e.readStep n).member := by
        rw [member_readStep]
        exact fun heq => hd.1 (heq ▸ List.mem_map_of_mem hm)
      refine (ih hd.2 hm _).trans ?_
      rw [object_run_code r s _ hne]

/-- **A member whose column is null**, after the whole row has been read into an object. -/
theorem read_of_isNull (hd : e.HasDistinctNames) (hm : m ∈ e.members) (hopt : m.isOptional = true)
    (hnull : r.isNull m.name = true) (object : Contents V) :
    e.read r object m.name = e.contentOfNull r m (object m.name) := by
  rw [read, readSteps, orderedMembers_eq hd, List.map_map]
  exact object_runAll_of_mem r hd hm hopt hnull _

/-- The text of the function that reads a row is that of the code. -/
theorem lines_readSteps (e : Entity) : e.readSteps.flatMap ReadStep.lines =
    (e.readSteps.map ReadStep.code).flatMap (ReadCode.lines "        ") := by
  rw [List.flatMap_map]
  exact List.flatMap_congr fun step _ => step.lines_code.symm

end Entity

end RowMapping
