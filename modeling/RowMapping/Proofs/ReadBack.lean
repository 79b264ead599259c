import RowMapping.Proofs.Kinds
import RowMapping.Proofs.Placeholders
import RowMapping.Proofs.Quoting
import RowMapping.Proofs.ReadingCode
/-!
# Values that are read back

What the binding functions write to a column, the function that reads a row takes from it.  Both go
by the kind of the member, and so does the type of a value that is changed alone.  An enumerator is
written as a text by a switch, and a text is read by a chain of comparisons of which the first match
counts.  Where neither the texts nor the enumerators of a mapping repeat, the two are inverse.

* `WriteStep.textFor?`: the text that the code of a step binds for an enumerator;
* `ReadStep.comparisons`, `ReadStep.enumeratorFor?`: the enumerator that a chain takes for a text;
* `enumeratorFor?_readStep`, `textFor?_writeStep`: both from the pairs;
* `code_of_json`, `code_of_rawJson`, `code_of_plain`: the code for members of the other kinds;
* `read_undoes_write`: a member is read as it was written.
-/

namespace RowMapping

open Text Mapping

namespace Mapping

/-! ### Writing an enumerator -/

/-- An object whose members hold the enumerator `x`, where an enumerator is its name. -/
def holding (x : String) : Values String where
  isPresent _ := true
  enumerator _ := x
  constant _ name := name

/-- The text that the code of a step binds for an enumerator. -/
def WriteStep.textFor? (step : WriteStep) (x : String) : Option String :=
  match (step.code.run (holding x) {}).map Frame.bound with
  | some [.literal s] => some s
  | _ => none

/-! ### Reading an enumerator -/

/-- The comparisons of a step. -/
def ReadStep.comparisons : ReadStep → List Comparison
  | choice _ type pairs | choiceOrNull _ type pairs =>
    pairs.map (comparison type)
  | _ => []

/-- The enumerator that a step takes for the text of a column: that of the first comparison whose
literal stands for this text. -/
def ReadStep.enumeratorFor? (step : ReadStep) (text : String) : Option String :=
  (step.comparisons.find? fun c => unquote? c.literal = some text).map Comparison.enumerator

/-- In a list without repeated keys an entry is the one of its key. -/
theorem find?_eq_some_iff_of_nodup {pairs : List EnumPair} {f : EnumPair → String}
    (hf : (pairs.map f).Nodup) {key : String} {p : EnumPair} :
    pairs.find? (fun q => f q = key) = some p ↔ p ∈ pairs ∧ f p = key := by
  constructor
  · intro h
    exact ⟨List.mem_of_find?_eq_some h, by simpa using List.find?_some h⟩
  · rintro ⟨hp, rfl⟩
    cases h : pairs.find? fun q => f q = f p with
    | none => exact absurd (List.find?_eq_none.1 h p hp) (by simp)
    | some q =>
      have hkey : f q = f p := by simpa using List.find?_some h
      rw [List.inj_on_of_nodup_map hf (List.mem_of_find?_eq_some h) hp hkey]

end Mapping

namespace Entity

variable {e : Entity} {m : Member}

/-! ### Enumerators and texts of a member -/

section Enumeration

variable {mapping : EnumMapping}

theorem comparisons_readStep (hd : e.HasDistinctNames) (hm : m ∈ e.members)
    (hkind : e.kindOf m = .enumeration) (hmapping : e.enumFor? m.name = some mapping) :
    (e.readStep m).comparisons =
      mapping.pairs.map (comparison (Name.qualify e.scope mapping.type)) := by
  rw [(steps_of_enumeration hd hm hkind hmapping).1]
  cases m.isOptional <;> rfl

/-- The lines that read an enumerator are a chain between two braces. -/
theorem lines_readStep (hd : e.HasDistinctNames) (hm : m ∈ e.members)
    (hkind : e.kindOf m = .enumeration) (hmapping : e.enumFor? m.name = some mapping) :
    (e.readStep m).lines =
      (if m.isOptional then s!"        if (!row.isNull(Col::{m.name})) \x7b" else "        \x7b") ::
        s!"            auto s = row.get<std::string>(Col::{m.name});" ::
        chainLines m.name (e.readStep m).comparisons ++ ["        \x7d"] := by
  rw [comparisons_readStep hd hm hkind hmapping, chainLines_eq,
    (steps_of_enumeration hd hm hkind hmapping).1]
  cases m.isOptional <;> rfl

/-- The chain takes the enumerator of the first pair for the text. -/
theorem enumeratorFor?_readStep (hd : e.HasDistinctNames) (hm : m ∈ e.members)
    (hkind : e.kindOf m = .enumeration) (hmapping : e.enumFor? m.name = some mapping)
    (text : String) :
    (e.readStep m).enumeratorFor? text =
      (mapping.pairs.find? fun p => p.external = text).map EnumPair.enumerator := by
  have hmatch : ((fun c : Comparison => decide (unquote? c.literal = some text)) ∘
      comparison (Name.qualify e.scope mapping.type)) = fun p => decide (p.external = text) := by
    funext p
    simp [comparison, unquote?_quote]
  rw [ReadStep.enumeratorFor?, comparisons_readStep hd hm hkind hmapping, List.find?_map,
    Option.map_map, hmatch]
  rfl

/-- The switch binds the text of the first pair for the enumerator. -/
theorem textFor?_writeStep (hd : e.HasDistinctNames) (hm : m ∈ e.members)
    (hkind : e.kindOf m = .enumeration) (hmapping : e.enumFor? m.name = some mapping)
    (x : String) :
    (e.writeStep m).textFor? x =
      (mapping.pairs.find? fun p => p.enumerator = x).map EnumPair.external := by
  have hparameter : e.parameter? (holding x) m =
      (((mapping.pairs.find? fun p => p.enumerator = x).map EnumPair.external).map .literal) := by
    have hthere : isAbsent (holding x) m = false := by simp [isAbsent, holding]
    rw [parameter?, carrier_eq_of_kindOf hd hm, hkind, hmapping]
    simp only [hthere]
    rfl
  obtain ⟨buffer, hrun⟩ := run_code_writeStep (holding x) e m {}
  rw [WriteStep.textFor?, hrun, hparameter]
  cases (mapping.pairs.find? fun p => p.enumerator = x).map EnumPair.external <;> rfl

/-- Where neither texts nor enumerators repeat, the switch and the chain are inverse. -/
theorem textFor?_eq_some_iff (hd : e.HasDistinctNames) (hm : m ∈ e.members)
    (hkind : e.kindOf m = .enumeration) (hmapping : e.enumFor? m.name = some mapping)
    (htexts : (mapping.pairs.map EnumPair.external).Nodup)
    (hnames : (mapping.pairs.map EnumPair.enumerator).Nodup) (x text : String) :
    ((e.writeStep m).textFor? x = some text ↔ ⟨text, x⟩ ∈ mapping.pairs) ∧
      ((e.readStep m).enumeratorFor? text = some x ↔ ⟨text, x⟩ ∈ mapping.pairs) := by
  rw [textFor?_writeStep hd hm hkind hmapping, enumeratorFor?_readStep hd hm hkind hmapping,
    Option.map_eq_some_iff, Option.map_eq_some_iff]
  simp only [find?_eq_some_iff_of_nodup hnames, find?_eq_some_iff_of_nodup htexts]
  constructor <;> constructor
  · rintro ⟨p, ⟨hp, rfl⟩, rfl⟩
    exact hp
  · intro hp
    exact ⟨_, ⟨hp, rfl⟩, rfl⟩
  · rintro ⟨p, ⟨hp, rfl⟩, rfl⟩
    exact hp
  · intro hp
    exact ⟨_, ⟨hp, rfl⟩, rfl⟩

end Enumeration

/-! ### The code of the other kinds -/

/-- One side has the JSON text of the value written and bound, and the other has the text of the
column read into the member; an empty member stands for null. -/
theorem code_of_json (hd : e.HasDistinctNames) (hm : m ∈ e.members) (hkind : e.kindOf m = .json) :
    (e.readStep m).code =
        (if m.isOptional then
          .branch (.notNull m.name)
            (.seq (.single (.takeJson m.name))
              (.branch .notEmpty
                (.seq (.single (.declare m.name)) (.guarded .parsed (.move m.name)))))
        else .single (.parse m.name m.name)) ∧
      (e.writeStep m).code =
        if m.isOptional then
          .branch (.truth m.name)
            (.seq (.single .declare)
              (.seq (.single (.serialize (.content m.name))) (.single (.push .buffer))))
            (.single .pushNull)
        else .block [.declare, .serialize (.member m.name), .push .buffer] := by
  obtain ⟨hread, hwrite⟩ := steps_of_json hd hm hkind
  rw [hread, hwrite]
  cases m.isOptional <;> exact ⟨rfl, rfl⟩

theorem code_of_rawJson (hd : e.HasDistinctNames) (hm : m ∈ e.members)
    (hkind : e.kindOf m = .rawJson) :
    (e.readStep m).code = .single (.keepText m.name m.name) ∧
      (e.writeStep m).code = .single (.push (.heldText m.name)) := by
  obtain ⟨hread, hwrite⟩ := steps_of_rawJson hd hm hkind
  rw [hread, hwrite]
  exact ⟨rfl, rfl⟩

theorem code_of_plain (hd : e.HasDistinctNames) (hm : m ∈ e.members)
    (hkind : e.kindOf m = .plain) :
    (e.readStep m).code =
        .single (if m.isOptional then .assignOpt m.name m.valueType m.name
          else .assign m.name m.type m.name) ∧
      (e.writeStep m).code = .single (.push (.member m.name)) := by
  obtain ⟨hread, hwrite⟩ := steps_of_plain hd hm hkind
  rw [hread, hwrite]
  cases m.isOptional <;> exact ⟨rfl, rfl⟩

/-- **A member is read as it was written.**  The steps that write and read a member are of the kind
that its tags give, and the type of a value that is changed alone goes by this kind.  The emitted
lines are those of code that is given by the kind: the JSON text of the value on both sides, the
JSON text that the member holds, or the value itself.  For a member with an enum mapping they are a
switch and a chain of comparisons over the pairs and the same type.  The chain takes the enumerator
of the first pair for a text; where neither texts nor enumerators repeat, each of the two undoes the
other. -/
theorem read_undoes_write (hd : e.HasDistinctNames) (hm : m ∈ e.members)
    (hgiven : m.tags.has .dbManaged = false) :
    e.readStep m ∈ e.readSteps ∧ e.writeStep m ∈ e.insertBody.steps ∧
    (e.readStep m).kind = e.kindOf m ∧ (e.writeStep m).kind? = some (e.kindOf m) ∧
    (m ∈ e.updateableMembers → e.changedType m =
      if e.kindOf m = .rawJson ∨ e.kindOf m = .enumeration then "std::string" else m.valueType) ∧
    (e.readStep m).lines = (e.readStep m).code.lines "        " ∧
    (e.writeStep m).lines = (e.writeStep m).code.lines "        " ∧
    (e.kindOf m = .json →
      (e.readStep m).code =
        (if m.isOptional then
          .branch (.notNull m.name)
            (.seq (.single (.takeJson m.name))
              (.branch .notEmpty
                (.seq (.single (.declare m.name)) (.guarded .parsed (.move m.name)))))
        else .single (.parse m.name m.name)) ∧
      (e.writeStep m).code =
        if m.isOptional then
          .branch (.truth m.name)
            (.seq (.single .declare)
              (.seq (.single (.serialize (.content m.name))) (.single (.push .buffer))))
            (.single .pushNull)
        else .block [.declare, .serialize (.member m.name), .push .buffer]) ∧
    (e.kindOf m = .rawJson →
      (e.readStep m).code = .single (.keepText m.name m.name) ∧
      (e.writeStep m).code = .single (.push (.heldText m.name))) ∧
    (e.kindOf m = .plain →
      (e.readStep m).code =
        .single (if m.isOptional then .assignOpt m.name m.valueType m.name
          else .assign m.name m.type m.name) ∧
      (e.writeStep m).code = .single (.push (.member m.name))) ∧
    (e.kindOf m = .enumeration → ∃ mapping, e.enumFor? m.name = some mapping ∧
      (e.readStep m).comparisons =
        mapping.pairs.map (comparison (Name.qualify e.scope mapping.type)) ∧
      (e.readStep m).lines =
        (if m.isOptional then s!"        if (!row.isNull(Col::{m.name})) \x7b"
          else "        \x7b") ::
          s!"            auto s = row.get<std::string>(Col::{m.name});" ::
          chainLines m.name (e.readStep m).comparisons ++ ["        \x7d"] ∧
      e.writeStep m =
        (if m.isOptional then
          .choiceOrNull m.name (Name.qualify e.scope mapping.type) mapping.pairs
        else .choice m.name (Name.qualify e.scope mapping.type) mapping.pairs) ∧
      (e.writeStep m).lines = (e.writeStep m).code.lines "        " ∧
      (∀ text, (e.readStep m).enumeratorFor? text =
        (mapping.pairs.find? fun p => p.external = text).map EnumPair.enumerator) ∧
      ((mapping.pairs.map EnumPair.external).Nodup →
        (mapping.pairs.map EnumPair.enumerator).Nodup →
        (∀ p ∈ mapping.pairs, (e.writeStep m).textFor? p.enumerator = some p.external ∧
          (e.readStep m).enumeratorFor? p.external = some p.enumerator) ∧
        ∀ x text, (e.writeStep m).textFor? x = some text ↔
          (e.readStep m).enumeratorFor? text = some x)) := by
  have hread : e.readStep m ∈ e.readSteps := by
    rw [readSteps, orderedMembers_eq hd]
    exact List.mem_map_of_mem hm
  have hwrite : e.writeStep m ∈ e.insertBody.steps := by
    have hstep : e.stepOr e.insertSkip? m = e.writeStep m := by
      rw [stepOr, insertSkip?_eq hd hm, managedReason?, hgiven]
      rfl
    rw [insertBody, steps_paramsBody hd, ← hstep]
    exact List.mem_map_of_mem hm
  refine ⟨hread, hwrite, kind_readStep hd hm, kind?_writeStep hd hm, fun hchange => ?_,
    (ReadStep.lines_code _).symm, (WriteStep.lines_code _).symm, code_of_json hd hm,
    code_of_rawJson hd hm, code_of_plain hd hm, fun hkind => ?_⟩
  · exact changedType_eq hd hm (kindOf_of_mem_updateableMembers hd hchange).2
  · obtain ⟨mapping, hmapping⟩ := exists_enumFor?_of_kindOf hkind
    refine ⟨mapping, hmapping, comparisons_readStep hd hm hkind hmapping,
      lines_readStep hd hm hkind hmapping, (steps_of_enumeration hd hm hkind hmapping).2,
      (WriteStep.lines_code _).symm, enumeratorFor?_readStep hd hm hkind hmapping,
      fun htexts hnames => ?_⟩
    have hboth := textFor?_eq_some_iff hd hm hkind hmapping htexts hnames
    refine ⟨fun p hp => ?_, fun x text => (hboth x text).1.trans (hboth x text).2.symm⟩
    exact ⟨(hboth p.enumerator p.external).1.2 hp, (hboth p.enumerator p.external).2.2 hp⟩

/-- The state of a parcel is written as a text and read back, and the totals of an invoice as the
JSON text of their value. -/
theorem read_undoes_write_parcel :
    (∃ m ∈ parcel.members, parcel.HasDistinctNames ∧
      m.tags.has .dbManaged = false ∧ parcel.kindOf m = .enumeration ∧
      parcel.changedType m = "std::string" ∧
      (parcel.writeStep m).textFor? "Sent" = some "sent" ∧
      (parcel.readStep m).enumeratorFor? "sent" = some "Sent") ∧
    ∃ m ∈ invoice.members, invoice.HasDistinctNames ∧
      m.tags.has .dbManaged = false ∧ invoice.kindOf m = .json ∧
      (invoice.readStep m).lines =
        ["        glz::read_json(e.totals, row.get<std::string>(Col::totals));"] ∧
      (invoice.writeStep m).lines =
        ["        \x7b std::string json; glz::write_json(e.totals, json); p.push(json); \x7d"] := by
  have hd : parcel.HasDistinctNames := by decide
  have hd' : invoice.HasDistinctNames := by decide
  obtain ⟨-, -, -, -, htype, -, -, -, -, -, henum⟩ :=
    read_undoes_write hd (m := parcel.members[1]) (List.getElem_mem _) (by decide)
  obtain ⟨-, -, -, -, -, hreads, hwrites, hjson, -⟩ :=
    read_undoes_write hd' (m := invoice.members[2]) (List.getElem_mem _) (by decide)
  obtain ⟨mapping, hmapping, -, -, -, -, -, hinverse⟩ := henum (by decide)
  have hpairs : mapping.pairs = [⟨"packed", "Packed"⟩, ⟨"sent", "Sent"⟩] := by
    have hfor : parcel.enumFor? "state" = some mapping := hmapping
    cases hfor
    rfl
  rw [hpairs] at hinverse
  obtain ⟨hpair, -⟩ := hinverse (by decide) (by decide)
  obtain ⟨hsent, hback⟩ := hpair ⟨"sent", "Sent"⟩ (by decide)
  obtain ⟨hread, hwrite⟩ := hjson (by decide)
  refine ⟨⟨parcel.members[1], List.getElem_mem _, hd, by decide, by decide, htype (by decide),
    hsent, hback⟩, invoice.members[2], List.getElem_mem _, hd', by decide, by decide, ?_, ?_⟩
  · rw [hreads, hread]
    decide
  · rw [hwrites, hwrite]
    decide

end Entity

end RowMapping
