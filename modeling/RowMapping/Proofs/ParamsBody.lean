import RowMapping.Proofs.Members
import RowMapping.Proofs.BindingCode
/-!
# Bodies that bind members

A body is built from two things that are computed apart: the members that are written, and the
reason for which a member is passed over.  Where the two agree, the body can be read off the members
alone.

* `Entity.isConverted`: the value of a member cannot be bound as it is;
* `argumentLines`, `pushLines`: the lines of the two forms of a body, from the members;
* `lines_paramsBody`: a body has these lines;
* `run_code_paramsBody`: and it binds the parameters of the members that are written.
-/

namespace RowMapping

namespace Mapping

/-- The lines of the arguments of a call: a comma stands behind an argument when another argument
comes after it, and a member with a reason is passed over. -/
def argumentLines (reason? : Member → Option String) : List Member → List String
  | [] => []
  | m :: ms =>
    (match reason? m with
    | some reason => s!"            // {m.name}: skipped ({reason})"
    | none => s!"            e.{m.name}" ++ if ∃ n ∈ ms, reason? n = none then "," else "") ::
      argumentLines reason? ms

/-- The lines that bind one member after the other: those of the code for the member, or a comment
with the reason for which it is passed over. -/
def pushLines (e : Entity) (reason? : Member → Option String) (ms : List Member) : List String :=
  ms.flatMap fun m =>
    match reason? m with
    | some reason => [s!"        // {m.name}: skipped ({reason})"]
    | none => (e.writeStep m).code.lines "        "

theorem argumentLines_congr {f g : Member → Option String} {ms : List Member}
    (h : ∀ m ∈ ms, f m = g m) : argumentLines f ms = argumentLines g ms := by
  induction ms with
  | nil => rfl
  | cons m ms ih =>
    have hrest : ∀ n ∈ ms, f n = g n := fun n hn => h n (List.mem_cons_of_mem m hn)
    have hmore : (∃ n ∈ ms, f n = none) ↔ ∃ n ∈ ms, g n = none :=
      exists_congr fun n => and_congr_right fun hn => by rw [hrest n hn]
    simp only [argumentLines, h m List.mem_cons_self, hmore, ih hrest]

end Mapping

open Mapping

namespace Entity

/-- The value of a member is not bound as it is: the member is stored as JSON, holds a JSON text, or
has an enum mapping. -/
def isConverted (e : Entity) (m : Member) : Bool :=
  m.tags.has .jsonField || (m.tags.has .rawJson || m.holdsRawJson) || (e.enumFor? m.name).isSome

variable {e : Entity} {m : Member}

/-! ### Single steps -/

/-- Just the members that are not converted travel as they are. -/
theorem carrier_eq_plain_iff (hd : e.HasDistinctNames) (hm : m ∈ e.members) :
    e.carrier m = .plain ↔ e.isConverted m = false := by
  rw [carrier, isConverted, isJson_name hd hm, isRawJson_eq hd hm]
  cases m.tags.has .jsonField with
  | true => simp
  | false =>
    cases m.tags.has .rawJson || m.holdsRawJson with
    | true => simp
    | false => cases e.enumFor? m.name <;> simp

theorem argumentLine_writeStep (e : Entity) (m : Member) (last : Option String) :
    (e.writeStep m).argumentLine last =
      s!"            e.{m.name}" ++ if some m.name = last then "" else "," := by
  unfold writeStep
  split <;> rfl

/-! ### The last argument -/

section LastArgument

variable {front rest : List Member} {reason? : Member → Option String}

/-- The name of the last member that is not passed over. -/
def lastName (reason? : Member → Option String) (ms : List Member) : Option String :=
  (ms.filter fun m => (reason? m).isNone).getLast?.map Member.name

/-- Among members with distinct names, an argument has the last name when no argument follows. -/
theorem eq_lastName_iff (hd : ((front ++ m :: rest).map Member.name).Nodup)
    (hm : reason? m = none) :
    some m.name = lastName reason? (front ++ m :: rest) ↔ ¬∃ n ∈ rest, reason? n = none := by
  have hfilter : (front ++ m :: rest).filter (fun n => (reason? n).isNone) =
      front.filter (fun n => (reason? n).isNone) ++
        m :: rest.filter (fun n => (reason? n).isNone) := by
    simp [hm]
  rw [lastName, hfilter, List.getLast?_append_of_ne_nil _ (List.cons_ne_nil _ _)]
  cases hrest : rest.filter fun n => (reason? n).isNone with
  | nil =>
    have hnone : ¬∃ n ∈ rest, reason? n = none := by
      rintro ⟨n, hn, hnn⟩
      exact List.filter_eq_nil_iff.1 hrest n hn (by rw [hnn]; rfl)
    exact ⟨fun _ => hnone, fun _ => rfl⟩
  | cons a as =>
    -- the last argument stands behind `m`, so it has another name
    obtain ⟨l, hl⟩ : ∃ l, (a :: as).getLast? = some l :=
      ⟨_, List.getLast?_eq_some_getLast (List.cons_ne_nil a as)⟩
    have hmem : l ∈ rest.filter fun n => (reason? n).isNone := by
      rw [hrest]
      exact List.mem_of_getLast? hl
    have hname : m.name ∉ rest.map Member.name := by
      rw [List.map_append, List.map_cons] at hd
      exact (List.nodup_cons.1 (List.nodup_append.1 hd).2.1).1
    have ha : a ∈ rest.filter fun n => (reason? n).isNone := by
      rw [hrest]
      exact List.mem_cons_self
    obtain ⟨ha, hnone⟩ := List.mem_filter.1 ha
    rw [List.getLast?_cons_cons, hl]
    constructor
    · intro h
      have hl : l ∈ rest := List.mem_of_mem_filter hmem
      exact absurd (List.mem_map.2 ⟨l, hl, (Option.some.inj h).symm⟩) hname
    · intro h
      exact absurd ⟨a, ha, Option.isNone_iff_eq_none.1 hnone⟩ h

/-- The lines of the steps of a call are the lines of its arguments. -/
theorem map_argumentLine (e : Entity) (hd : ((front ++ rest).map Member.name).Nodup) :
    rest.map (fun m => (e.stepOr reason? m).argumentLine (lastName reason? (front ++ rest))) =
      argumentLines reason? rest := by
  -- the members in front grow, so that the last name stays that of the whole list
  induction rest generalizing front with
  | nil => rfl
  | cons m rest ih =>
    have hfront : front ++ [m] ++ rest = front ++ m :: rest := by simp
    have hih := ih (hfront ▸ hd)
    rw [hfront] at hih
    rw [List.map_cons, argumentLines, hih]
    congr 1
    unfold stepOr
    cases hm : reason? m with
    | some reason => rfl
    | none =>
      have hlast := eq_lastName_iff hd hm
      rw [argumentLine_writeStep]
      by_cases hmore : ∃ n ∈ rest, reason? n = none
      · rw [if_neg fun h => hlast.1 h hmore, if_pos hmore]
      · rw [if_pos (hlast.2 hmore), if_neg hmore]

end LastArgument

/-! ### Whole bodies -/

section Bodies

variable {f g : Member → Option String}

/-- A body goes over the members in the order of declaration. -/
theorem steps_paramsBody (hd : e.HasDistinctNames) (written : List Member) :
    (e.paramsBody written f).steps = e.members.map (e.stepOr f) := by
  unfold paramsBody
  rw [orderedMembers_eq hd]
  split <;> rfl

/-- Just the bodies without a converted member are a single call. -/
theorem all_plain_iff (hd : e.HasDistinctNames) {written : List Member} (hw : written ⊆ e.members) :
    (written.all fun m => e.carrier m = .plain) ↔ ∀ m ∈ written, e.isConverted m = false := by
  rw [List.all_eq_true]
  refine forall₂_congr fun m hm => ?_
  rw [decide_eq_true_iff, carrier_eq_plain_iff hd (hw hm)]

/-- A body that binds all members without a reason has the lines of its members: those of a call
when no member that it binds is converted. -/
theorem lines_paramsBody (hd : e.HasDistinctNames) (hfg : ∀ m ∈ e.members, f m = g m)
    {written : List Member} (hw : written = e.members.filter fun m => (g m).isNone) :
    (e.paramsBody written f).lines =
      if ∀ m ∈ written, e.isConverted m = false then
        s!"        return {paramsType}::make(" :: argumentLines g e.members ++ ["        );"]
      else s!"        {paramsType} p;" :: pushLines e g e.members ++ ["        return p;"] := by
  have hlast : written.getLast?.map Member.name = lastName f e.members := by
    rw [lastName, hw]
    congr 2
    exact List.filter_congr fun m hm => by rw [hfg m hm]
  have hcall : e.members.map (fun m => (e.stepOr f m).argumentLine (lastName f e.members)) =
      argumentLines g e.members := by
    rw [← argumentLines_congr hfg]
    exact @map_argumentLine [] e.members f e hd
  have hpush : (e.members.map (e.stepOr f)).flatMap WriteStep.lines = pushLines e g e.members := by
    rw [List.flatMap_map]
    refine List.flatMap_congr fun m hm => ?_
    rw [stepOr, hfg m hm]
    cases g m with
    | some reason => rfl
    | none => exact (WriteStep.lines_code _).symm
  have hmembers : written ⊆ e.members := by
    rw [hw]
    exact List.filter_sublist.subset
  simp only [paramsBody, orderedMembers_eq hd, all_plain_iff hd hmembers, hlast]
  split
  · rw [← hcall, ParamsBody.lines, List.map_map]
    rfl
  · rw [← hpush]
    rfl

end Bodies

/-! ### What a body binds -/

section Run

variable {V : Type} [DecidableEq V] (v : Values V) (e)

/-- The parameter for a member that may be passed over. -/
def parameterOr? (reason? : Member → Option String) (m : Member) : Option Parameter :=
  if (reason? m).isNone then e.parameter? v m else none

theorem run_code_stepOr (reason? : Member → Option String) (m : Member) (s : Frame) :
    ∃ buffer, (e.stepOr reason? m).code.run v s =
      some ⟨buffer, s.bound ++ (e.parameterOr? v reason? m).toList⟩ := by
  unfold stepOr parameterOr?
  cases reason? m with
  | some reason => exact ⟨s.buffer, by simp [WriteStep.code, Code.run]⟩
  | none => exact run_code_writeStep v e m s

/-- The code for members binds one parameter after the other. -/
theorem runAll_stepOr (reason? : Member → Option String) (ms : List Member) (s : Frame) :
    ∃ buffer, Code.runAll v (ms.map fun m => (e.stepOr reason? m).code) s =
      some ⟨buffer, s.bound ++ ms.filterMap (e.parameterOr? v reason?)⟩ := by
  induction ms generalizing s with
  | nil => exact ⟨s.buffer, by simp [Code.runAll]⟩
  | cons m ms ih =>
    obtain ⟨buffer, hm⟩ := run_code_stepOr e v reason? m s
    obtain ⟨last, hms⟩ := ih ⟨buffer, s.bound ++ (e.parameterOr? v reason? m).toList⟩
    refine ⟨last, ?_⟩
    rw [Code.runAll, List.map_cons, List.foldlM_cons, hm]
    refine hms.trans ?_
    cases h : e.parameterOr? v reason? m <;> simp [h]

variable {e}

/-- A body binds the parameters of the members that are written. -/
theorem run_code_paramsBody (hd : e.HasDistinctNames) {f g : Member → Option String}
    (hfg : ∀ m ∈ e.members, f m = g m) {written : List Member}
    (hw : written = e.members.filter fun m => (g m).isNone) :
    (e.paramsBody written f).code.run v = some (written.filterMap (e.parameter? v)) := by
  have hwritten : written.filterMap (e.parameter? v) =
      e.members.filterMap (e.parameterOr? v f) := by
    rw [hw, List.filterMap_filter]
    exact List.filterMap_congr fun m hm => by rw [parameterOr?, hfg m hm]
  rw [hwritten]
  unfold paramsBody
  rw [orderedMembers_eq hd]
  split
  · next hplain =>
    -- in a call every argument is bound as it is
    rw [ParamsBody.code, BodyCode.run, List.map_map, List.filterMap_map]
    congr 1
    refine List.filterMap_congr fun m hm => ?_
    rw [Function.comp_apply, Function.comp_apply, parameterOr?, stepOr]
    cases hreason : f m with
    | some reason => rfl
    | none =>
      have hmem : m ∈ written := by
        rw [hw]
        exact List.mem_filter.2 ⟨hm, by rw [← hfg m hm, hreason]; rfl⟩
      have hcarrier := of_decide_eq_true (List.all_eq_true.1 hplain m hmem)
      rw [parameter?, hcarrier, writeStep, hcarrier]
      rfl
  · obtain ⟨buffer, hrun⟩ := runAll_stepOr e v f e.members {}
    rw [ParamsBody.code, BodyCode.run, List.map_map]
    exact congrArg (Option.map Frame.bound) hrun

/-- The parameter of a member is the member itself just when it is not converted. -/
theorem parameter?_eq_value_iff (hd : e.HasDistinctNames) (hm : m ∈ e.members) :
    e.parameter? v m = some (.value m.name) ↔ e.isConverted m = false := by
  rw [← carrier_eq_plain_iff hd hm]
  unfold parameter?
  cases e.carrier m with
  | plain => simp
  | json => cases isAbsent v m <;> simp
  | rawJson => simp
  | enumeration type pairs => cases isAbsent v m <;> simp

theorem filterMap_parameter?_of_plain (hd : e.HasDistinctNames) {written : List Member}
    (hw : written ⊆ e.members) (hplain : ∀ m ∈ written, e.isConverted m = false) :
    written.filterMap (e.parameter? v) = written.map fun m => .value m.name := by
  rw [← List.filterMap_eq_map]
  exact List.filterMap_congr fun m hm => (parameter?_eq_value_iff v hd (hw hm)).2 (hplain m hm)

end Run

end Entity

end RowMapping
