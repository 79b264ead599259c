import Mathlib.Data.List.Find
import RowMapping.Mapping.Decode
import RowMapping.Proofs.EnumResolution
import RowMapping.Proofs.OwnMetadata
import RowMapping.Proofs.Update
import RowMapping.Proofs.TagEntries
import RowMapping.Proofs.UnbrokenNames
/-!
# The two places for the pairs of an enum

The pairs of an enum stand behind its member or in the block of its class.  The first are read with
the tags of the member, and its mapping is made with the mappings of the other members; the second
are read with the block, and come after all of these.  So the mappings stand in another order, and
the member has pairs of its own or has none.  Nothing that is generated tells the two apart.

* `Text.AddsWord`: a text has one more word;
* `MemberTags.ofText_of_addsWord`, `ClassTag.ofLine_of_addsWord`: what the word adds to the tags;
* `Entity.Agrees`: two entities that differ in the pairs behind members and in the order of mappings
  at most, and what is generated for both;
* `DeclaredClass.filter_registered_insert`: one more mapping in the block moves no other member;
* `DeclaredClass.SameMappings`: classes whose mappings are the same in another order;
* `DeclaredClass.enum_places_agree`: the two places are equivalent.
-/

namespace RowMapping

open Mapping Text

/-! ### One more word -/

/-- The words of the second text are those of the first one, and one more among them. -/
def Text.AddsWord (word text text' : List Char) : Prop :=
  ∃ front back, words text = front ++ back ∧ words text' = front ++ word :: back

theorem IsWord.exists_addsWord {word : List Char} (h : IsWord word) (text : List Char) :
    ∃ text', AddsWord word text text' :=
  ⟨word ++ ' ' :: text, [], words text, rfl, h.words_append text⟩

/-- The word that gives pairs behind a member. -/
def pairsWord (pairs : List Char) : List Char := "enum=".toList ++ pairs

/-- The word that gives pairs for a member in a block. -/
def blockPairsWord (name : String) (pairs : List Char) : List Char :=
  pairsWord (name.toList ++ ':' :: pairs)

theorem isWord_pairsWord {pairs : List Char} (h : IsUnbrokenText pairs) :
    IsWord (pairsWord pairs) :=
  IsWord.append (isWord_of_all (by decide)) h

namespace MemberTags

variable {field : String} {pairs text text' : List Char}

/-- The tags with other pairs. -/
def withPairs (tags : MemberTags) (pairs : List EnumPair) : MemberTags := { tags with pairs }

/-- Pairs that are there already stay in front of those that a word gives, and change nothing
else. -/
theorem add_withPairs (field : String) (given : List EnumPair) (tags : MemberTags) (w : Word) :
    (tags.withPairs (given ++ tags.pairs)).add field w =
      (tags.add field w).withPairs (given ++ (tags.add field w).pairs) := by
  cases w with
  | pairs text => simp [add, withPairs, List.append_assoc]
  | flag flag =>
    have hflag : (tags.withPairs (given ++ tags.pairs)).has flag = tags.has flag := rfl
    rw [add, add, hflag]
    by_cases h : tags.has flag = true
    · rw [if_pos h, if_pos h]
    · rw [if_neg h, if_neg h]
      rfl
  | _ => rfl

theorem foldl_add_withPairs (field : String) (given : List EnumPair) (tags : MemberTags)
    (ws : List Word) :
    ws.foldl (add field) (tags.withPairs (given ++ tags.pairs)) =
      (ws.foldl (add field) tags).withPairs (given ++ (ws.foldl (add field) tags).pairs) := by
  induction ws generalizing tags with
  | nil => rfl
  | cons w ws ih => rw [List.foldl_cons, List.foldl_cons, add_withPairs, ih]

/-- The word adds its pairs to the tags of a member without pairs. -/
theorem ofText_of_addsWord (h : AddsWord (pairsWord pairs) text text')
    (hnone : (ofText field text).pairs = []) :
    ofText field text' = (ofText field text).withPairs (EnumPair.listOf pairs) := by
  obtain ⟨front, back, hwords, hwords'⟩ := h
  have hvalue : ClassTag.value? "enum" (pairsWord pairs) = some pairs := isPrefixOf?_append _ _
  have hword : Word.ofText (pairsWord pairs) = .pairs pairs := by rw [Word.ofText, hvalue]
  unfold ofText at hnone ⊢
  rw [hwords, List.map_append, List.foldl_append] at hnone ⊢
  rw [hwords', List.map_append, List.map_cons, List.foldl_append, List.foldl_cons, hword]
  generalize (front.map Word.ofText).foldl (add field) {} = tags at hnone ⊢
  have hbefore : tags.pairs = [] := by
    have hkept := foldl_add_withPairs field tags.pairs (tags.withPairs []) (back.map Word.ofText)
    have hself :
        (tags.withPairs []).withPairs (tags.pairs ++ (tags.withPairs []).pairs) = tags := by
      simp [withPairs]
    rw [hself] at hkept
    rw [hkept] at hnone
    exact (List.append_eq_nil_iff.1 hnone).1
  have hadd : tags.add field (.pairs pairs) =
      tags.withPairs (EnumPair.listOf pairs ++ tags.pairs) := by
    simp [add, withPairs, hbefore]
  rw [hadd, foldl_add_withPairs, hnone, List.append_nil]

end MemberTags

namespace ClassTag

variable {name : String} {pairs line line' : List Char}

theorem ofWord_blockPairsWord (hname : ':' ∉ name.toList) :
    ofWord (blockPairsWord name pairs) = .enumeration name (EnumPair.listOf pairs) := by
  have htext : ∀ d ∈ name.toList, (d != ':') = true := fun d hd => by
    simpa using ne_of_mem_of_not_mem hd hname
  have hof : EnumPair.ofClassTag (name.toList ++ ':' :: pairs) =
      (name, EnumPair.listOf pairs) := by
    rw [EnumPair.ofClassTag, EnumPair.fieldOfClassTag, EnumPair.pairsOfClassTag?,
      List.takeWhile_append_of_pos htext, List.dropWhile_append_of_pos htext]
    simp
  have henum : value? "enum" (blockPairsWord name pairs) = some (name.toList ++ ':' :: pairs) :=
    isPrefixOf?_append _ _
  have htable : value? "table" (blockPairsWord name pairs) = none := rfl
  have hmodel : value? "model" (blockPairsWord name pairs) = none := rfl
  have hreadOnly : (blockPairsWord name pairs = "read_only".toList ||
      blockPairsWord name pairs = "read_only=true".toList : Bool) = false := rfl
  rw [ofWord, htable, hmodel]
  simp only [hreadOnly, henum, hof]
  rfl

/-- The word adds one mapping to those of a line. -/
theorem ofLine_of_addsWord (hname : ':' ∉ name.toList)
    (h : AddsWord (blockPairsWord name pairs) line line') :
    ∃ front back, ofLine false line = front ++ back ∧
      ofLine false line' = front ++ .enumeration name (EnumPair.listOf pairs) :: back := by
  obtain ⟨front, back, hwords, hwords'⟩ := h
  refine ⟨front.map ofWord, back.map ofWord, ?_, ?_⟩
  · rw [ofLine, hwords]
    exact List.map_append
  · rw [ofLine, hwords', ← ofWord_blockPairsWord hname]
    exact List.map_append

end ClassTag

/-! ### Entities that are generated alike -/

/-- The member with other pairs behind it. -/
def Member.withPairs (m : Member) (pairs : List EnumPair) : Member :=
  { m with tags := m.tags.withPairs pairs }

namespace Entity

/-- The entities have the same members but for the pairs behind them, and the same mapping for each
name. -/
structure Agrees (e e' : Entity) (pairs : Member → List EnumPair) : Prop where
  scope : e.scope = e'.scope
  members : e.members = e'.members.map fun m => m.withPairs (pairs m)
  enumFor : ∀ name, e.enumFor? name = e'.enumFor? name
  readOnly : e.readOnly = e'.readOnly

namespace Agrees

variable {e e' : Entity} {pairs : Member → List EnumPair}

theorem hasDistinctNames_iff (h : Agrees e e' pairs) :
    e.HasDistinctNames ↔ e'.HasDistinctNames := by
  rw [HasDistinctNames, HasDistinctNames, h.members, List.map_map]
  rfl

/-- A property that does not look at the pairs holds of the same names. -/
theorem namesWhere (h : Agrees e e' pairs) {p : Member → Bool}
    (hp : ∀ m q, p (m.withPairs q) = p m) : e.namesWhere p = e'.namesWhere p := by
  have hcomp : (p ∘ fun m => m.withPairs (pairs m)) = p := funext fun m => hp m (pairs m)
  rw [Entity.namesWhere, Entity.namesWhere, h.members, List.filter_map, hcomp, List.map_map]
  rfl

theorem flagged (h : Agrees e e' pairs) (flag : MemberFlag) : e.flagged flag = e'.flagged flag :=
  h.namesWhere fun _ _ => rfl

theorem isPrimaryKey (h : Agrees e e' pairs) : e.isPrimaryKey = e'.isPrimaryKey := by
  unfold Entity.isPrimaryKey primaryKeys
  rw [h.flagged]

theorem isDbManaged (h : Agrees e e' pairs) : e.isDbManaged = e'.isDbManaged := by
  unfold Entity.isDbManaged dbManaged
  rw [h.flagged]

theorem isJson (h : Agrees e e' pairs) : e.isJson = e'.isJson := by
  unfold Entity.isJson jsonFields
  rw [h.flagged]

theorem isTimestamp (h : Agrees e e' pairs) : e.isTimestamp = e'.isTimestamp := by
  unfold Entity.isTimestamp timestamps
  rw [h.namesWhere fun _ _ => rfl]

theorem isRawJson (h : Agrees e e' pairs) (m : Member) (q : List EnumPair) :
    e.isRawJson (m.withPairs q) = e'.isRawJson m := by
  unfold Entity.isRawJson rawJson
  rw [h.namesWhere fun _ _ => rfl]
  rfl

theorem carrier (h : Agrees e e' pairs) (m : Member) (q : List EnumPair) :
    e.carrier (m.withPairs q) = e'.carrier m := by
  unfold Entity.carrier
  rw [h.isJson, h.isRawJson, h.enumFor, h.scope]
  rfl

theorem readStep (h : Agrees e e' pairs) (m : Member) (q : List EnumPair) :
    e.readStep (m.withPairs q) = e'.readStep m := by
  unfold Entity.readStep
  rw [h.carrier]
  rfl

theorem writeStep (h : Agrees e e' pairs) (m : Member) (q : List EnumPair) :
    e.writeStep (m.withPairs q) = e'.writeStep m := by
  unfold Entity.writeStep
  rw [h.carrier]
  rfl

theorem changedType (h : Agrees e e' pairs) (m : Member) (q : List EnumPair) :
    e.changedType (m.withPairs q) = e'.changedType m := by
  unfold Entity.changedType
  rw [h.isRawJson]
  exact congrArg (fun o => if (Option.isSome o || e'.isRawJson m) = true then "std::string"
    else m.valueType) (h.enumFor m.name)

/-- The members that a property without a look at the pairs picks correspond to each other. -/
theorem filter_orderedMembers (h : Agrees e e' pairs) (hd : e'.HasDistinctNames)
    {p p' : Member → Bool} (hp : ∀ m q, p (m.withPairs q) = p' m) :
    e.orderedMembers.filter p =
      (e'.orderedMembers.filter p').map fun m => m.withPairs (pairs m) := by
  have hcomp : (p ∘ fun m => m.withPairs (pairs m)) = p' := funext fun m => hp m (pairs m)
  rw [orderedMembers_eq (h.hasDistinctNames_iff.2 hd), orderedMembers_eq hd, h.members,
    List.filter_map, hcomp]

theorem fromRow (h : Agrees e e' pairs) (hd : e'.HasDistinctNames) : fromRow e = fromRow e' := by
  have hsteps : e.readSteps = e'.readSteps := by
    rw [readSteps, readSteps, orderedMembers_eq (h.hasDistinctNames_iff.2 hd),
      orderedMembers_eq hd, h.members, List.map_map]
    exact List.map_congr_left fun m _ => h.readStep m (pairs m)
  rw [Mapping.fromRow, Mapping.fromRow, hsteps]

theorem paramsBody (h : Agrees e e' pairs) (hd : e'.HasDistinctNames)
    {written written' : List Member}
    (hwritten : written = written'.map fun m => m.withPairs (pairs m))
    {reason? reason'? : Member → Option String}
    (hreason : ∀ m q, reason? (m.withPairs q) = reason'? m) :
    e.paramsBody written reason? = e'.paramsBody written' reason'? := by
  have hsteps : e.orderedMembers.map (e.stepOr reason?) =
      e'.orderedMembers.map (e'.stepOr reason'?) := by
    rw [orderedMembers_eq (h.hasDistinctNames_iff.2 hd), orderedMembers_eq hd, h.members,
      List.map_map]
    refine List.map_congr_left fun m _ => ?_
    rw [Function.comp_apply, stepOr, stepOr, hreason, h.writeStep]
    rfl
  have hall : (written.all fun m => e.carrier m = .plain) =
      written'.all fun m => e'.carrier m = .plain := by
    rw [hwritten, List.all_map]
    exact List.all_congr rfl fun m => by rw [Function.comp_apply, h.carrier]
  have hlast : written.getLast?.map Member.name = written'.getLast?.map Member.name := by
    rw [hwritten, List.getLast?_map, Option.map_map]
    rfl
  simp only [Entity.paramsBody, hsteps, hall, hlast]

theorem insertParams (h : Agrees e e' pairs) (hd : e'.HasDistinctNames) :
    insertParams e = insertParams e' := by
  have hbody : e.insertBody = e'.insertBody := by
    refine h.paramsBody hd (h.filter_orderedMembers hd fun m q => ?_) fun m q => ?_
    · rw [h.isDbManaged]
      rfl
    · rw [insertSkip?, insertSkip?, h.isDbManaged]
      rfl
  rw [Mapping.insertParams, Mapping.insertParams, hbody]

theorem updateParams (h : Agrees e e' pairs) (hd : e'.HasDistinctNames) :
    updateParams e = updateParams e' := by
  have hbody : e.updateBody = e'.updateBody := by
    refine h.paramsBody hd (h.filter_orderedMembers hd fun m q => ?_) fun m q => ?_
    · rw [h.isPrimaryKey, h.isDbManaged]
      rfl
    · rw [updateSkip?, updateSkip?, insertSkip?, insertSkip?, h.isPrimaryKey, h.isDbManaged]
      rfl
  rw [Mapping.updateParams, Mapping.updateParams, hbody]

theorem fieldTraits (h : Agrees e e' pairs) (hd : e'.HasDistinctNames) :
    e.fieldTraits = e'.fieldTraits := by
  have hmembers : e.updateableMembers =
      e'.updateableMembers.map fun m => m.withPairs (pairs m) := by
    refine h.filter_orderedMembers hd fun m q => ?_
    rw [h.isPrimaryKey, h.isDbManaged, h.isJson]
    rfl
  rw [Entity.fieldTraits, Entity.fieldTraits, h.readOnly, hmembers, List.map_map]
  congr 1
  refine List.map_congr_left fun m _ => ?_
  rw [Function.comp_apply, h.changedType, h.isTimestamp]
  rfl

end Agrees

end Entity

/-! ### Mappings in another order -/

theorem EnumPair.firstFor_insert_of_ne {name : String} {g : String × List EnumPair} (h : name ≠ g.1)
    (front back : List (String × List EnumPair)) :
    firstFor name (front ++ g :: back) = firstFor name (front ++ back) := by
  rw [firstFor, firstFor, List.find?_append, List.find?_append, List.find?_cons_of_neg]
  simp [Ne.symm h]

/-- A mapping with pairs counts where no other one names the member. -/
theorem EnumPair.firstFor_insert_self {g : String × List EnumPair} (hg : g.2 ≠ [])
    {front : List (String × List EnumPair)} (hfront : ∀ x ∈ front, x.1 ≠ g.1)
    (back : List (String × List EnumPair)) : firstFor g.1 (front ++ g :: back) = g.2 := by
  have hnone : front.find? (fun x => x.1 == g.1 && !x.2.isEmpty) = none :=
    List.find?_eq_none.2 fun x hx => by simp [hfront x hx]
  rw [firstFor, List.find?_append, hnone, Option.none_or, List.find?_cons_of_pos]
  · rfl
  · simpa using hg

namespace DeclaredClass

variable {c c' : DeclaredClass} {source : List Char} {file name : String} {err : UnresolvedEnum}
  {e e' : Entity}

/-- The mapping of a member with all its pairs. -/
def mapping (c : DeclaredClass) (source : List Char) (m : Member) : EnumMapping :=
  ⟨m.name, m.valueType, c.enumPairs source m,
    Specialization.occurs source (Name.bare m.valueType)⟩

/-- One more mapping in the block moves no other member. -/
theorem filter_registered_insert (c : DeclaredClass) (front : List (String × List EnumPair))
    (g : String × List EnumPair) (back : List (String × List EnumPair)) :
    (c.registered (front ++ g :: back)).filter (fun m => m.name ≠ g.1) =
      (c.registered (front ++ back)).filter fun m => m.name ≠ g.1 := by
  have hgone : ∀ (given : List String) (x : String × List EnumPair), x.1 = g.1 →
      (if x.1 ∈ given then []
        else (c.member? x.1).toList.filter fun m => !m.wantsEnum && !m.isJson).filter
          (fun m => m.name ≠ g.1) = [] := by
    intro given x hx
    rw [List.filter_eq_nil_iff]
    intro m hm
    split at hm
    · cases hm
    · have hfound := List.find?_some (Option.mem_toList.1 (List.mem_filter.1 hm).1)
      simpa [hx] using hfound
  induction back using List.reverseRecOn with
  | nil =>
    rw [registered_append, List.append_nil, List.filter_append, hgone _ g rfl, List.append_nil]
  | append_singleton back x ih =>
    rw [← List.cons_append, ← List.append_assoc, ← List.append_assoc, registered_append,
      registered_append, List.filter_append, List.filter_append, ih]
    congr 1
    by_cases hx : x.1 = g.1
    · rw [hgone _ x hx, hgone _ x hx]
    · have hmem : x.1 ∈ (front ++ g :: back).map Prod.fst ↔ x.1 ∈ (front ++ back).map Prod.fst := by
        simp [hx]
      simp only [hmem]

/-- The classes have the same mappings, but the one of `name`, which has pairs, may stand in another
place and come from another member of the same type. -/
structure SameMappings (c c' : DeclaredClass) (source : List Char) (name : String) : Prop where
  scope : c.scope = c'.scope
  others : c.enumMembers.filter (fun m => m.name ≠ name) =
    c'.enumMembers.filter fun m => m.name ≠ name
  pairs : ∀ m : Member, m.name ≠ name → c.enumPairs source m = c'.enumPairs source m
  moved : ∃ f ∈ c.enumMembers, ∃ f' ∈ c'.enumMembers, f.name = name ∧ f'.name = name ∧
    c.mapping source f = c'.mapping source f' ∧ c.enumPairs source f ≠ []

/-- A class is not resolved for the first of its members without pairs. -/
theorem resolve_eq_error_iff_find? (hd : c.HasDistinctNames) :
    c.resolve source file = .error err ↔
      ∃ m, c.enumMembers.find? (fun m => c.enumPairs source m = []) = some m ∧
        err = ⟨m.name, Name.qualify c.scope m.valueType, file⟩ := by
  rw [resolve_eq_error_iff_first hd]
  constructor
  · rintro ⟨before, m, after, hall, hbefore, hm, herr⟩
    exact ⟨m, List.find?_eq_some_iff_append.2 ⟨by simpa using hm, before, after, hall,
      by simpa using hbefore⟩, herr⟩
  · rintro ⟨m, hfind, herr⟩
    obtain ⟨hm, before, after, hall, hbefore⟩ := List.find?_eq_some_iff_append.1 hfind
    exact ⟨before, m, after, hall, by simpa using hbefore, by simpa using hm, herr⟩

/-- The mapping of a name in a resolved class. -/
theorem enumFor?_of_resolve (hd : c.HasDistinctNames) (h : c.resolve source file = .ok e)
    (name : String) :
    e.enumFor? name = (c.enumMembers.find? fun m => m.name == name).map (c.mapping source) := by
  rw [Entity.enumFor?, enums_of_resolve hd h, List.find?_map]
  rfl

/-- A search that leaves out one name goes over the other members. -/
theorem find?_others {l : List Member} {p : Member → Bool}
    (h : ∀ m ∈ l, p m = true → m.name ≠ name) :
    l.find? p = (l.filter fun m => m.name ≠ name).find? p := by
  rw [List.find?_filter]
  refine List.find?_congr fun m hm => ?_
  rw [Bool.eq_iff_iff, decide_eq_true_iff, decide_eq_true_iff]
  exact ⟨fun hp => ⟨h m hm hp, hp⟩, And.right⟩

/-- The member of a name among those with a mapping. -/
theorem find?_enumMembers (hd : c.HasDistinctNames) {f : Member} (hf : f ∈ c.enumMembers) :
    c.enumMembers.find? (fun m => m.name == f.name) = some f :=
  (member?_eq_some_iff (c := { c with members := c.enumMembers })
    (nodup_registered hd c.classEnums)).2 ⟨hf, rfl⟩

/-- Beside a member with pairs, the members without pairs have other names. -/
theorem name_ne_of_unfilled (hd : c.HasDistinctNames) {f : Member} (hf : f ∈ c.enumMembers)
    (hpairs : c.enumPairs source f ≠ []) :
    ∀ m ∈ c.enumMembers, decide (c.enumPairs source m = []) = true → m.name ≠ f.name := by
  intro m hm hnone hmn
  have heq := find?_enumMembers hd hm
  rw [hmn, find?_enumMembers hd hf] at heq
  cases heq
  exact hpairs (of_decide_eq_true hnone)

namespace SameMappings

variable (h : SameMappings c c' source name) (hd : c.HasDistinctNames)
  (hd' : c'.HasDistinctNames)

include h hd hd'

theorem find?_unfilled :
    c.enumMembers.find? (fun m => c.enumPairs source m = []) =
      c'.enumMembers.find? fun m => c'.enumPairs source m = [] := by
  obtain ⟨f, hf, f', hf', rfl, hname', hsame, hpairs⟩ := h.moved
  have hpairs' : c'.enumPairs source f' ≠ [] := fun hnone =>
    hpairs ((congrArg EnumMapping.pairs hsame).trans hnone)
  have hother' := name_ne_of_unfilled hd' hf' hpairs'
  rw [hname'] at hother'
  rw [find?_others (name_ne_of_unfilled hd hf hpairs), find?_others hother', h.others]
  refine List.find?_congr fun m hm => ?_
  rw [h.pairs m (of_decide_eq_true (List.mem_filter.1 hm).2)]

theorem resolve_eq_error_iff :
    c.resolve source file = .error err ↔ c'.resolve source file = .error err := by
  rw [resolve_eq_error_iff_find? hd, resolve_eq_error_iff_find? hd', h.find?_unfilled hd hd',
    h.scope]

theorem enumFor? (he : c.resolve source file = .ok e) (he' : c'.resolve source file = .ok e')
    (x : String) : e.enumFor? x = e'.enumFor? x := by
  rw [enumFor?_of_resolve hd he, enumFor?_of_resolve hd' he']
  by_cases hx : x = name
  · obtain ⟨f, hf, f', hf', hname, hname', hsame, -⟩ := h.moved
    subst hx
    have hfind := find?_enumMembers hd hf
    have hfind' := find?_enumMembers hd' hf'
    rw [hname] at hfind
    rw [hname'] at hfind'
    rw [hfind, hfind', Option.map_some, Option.map_some, hsame]
  · have hother : ∀ m : Member, (m.name == x) = true → m.name ≠ name := fun m hm hmn =>
      hx ((beq_iff_eq.1 hm).symm.trans hmn)
    rw [find?_others (l := c.enumMembers) fun m _ => hother m,
      find?_others (l := c'.enumMembers) fun m _ => hother m, h.others]
    refine Option.map_congr fun m hm => ?_
    have hname : (m.name == x) = true := List.find?_some (p := fun m : Member => m.name == x) hm
    rw [mapping, mapping, h.pairs m (hother m hname)]

end SameMappings

/-! ### Pairs for one member -/

/-- The class when the member of a name has other tags. -/
def withTags (c : DeclaredClass) (name : String) (tags : MemberTags) : DeclaredClass :=
  { c with members := c.members.map fun m => if m.name = name then { m with tags } else m }

/-- The class when its block has other tags. -/
def withBlock (c : DeclaredClass) (tags : List ClassTag) : DeclaredClass := { c with tags }

section Places

variable {f : Member} {pairs : List EnumPair}

/-- The members of the class when `f` gets pairs behind it. -/
theorem members_withTags (hd : c.HasDistinctNames) (hf : f ∈ c.members) :
    (c.withTags f.name (f.tags.withPairs pairs)).members =
      c.members.map fun m => m.withPairs (if m.name = f.name then pairs else m.tags.pairs) := by
  refine List.map_congr_left fun m hm => ?_
  by_cases hmn : m.name = f.name
  · rw [if_pos hmn, if_pos hmn, List.inj_on_of_nodup_map hd hm hf hmn]
    rfl
  · rw [if_neg hmn, if_neg hmn]
    rfl

theorem hasDistinctNames_withTags (hd : c.HasDistinctNames) (name : String) (tags : MemberTags) :
    (c.withTags name tags).HasDistinctNames := by
  have hnames : (c.withTags name tags).members.map Member.name = c.members.map Member.name := by
    rw [withTags, List.map_map]
    refine List.map_congr_left fun m _ => ?_
    rw [Function.comp_apply]
    split <;> rfl
  rwa [HasDistinctNames, hnames]

/-- The members of other names stay as they are. -/
theorem filter_members_withTags (c : DeclaredClass) (name : String) (tags : MemberTags) :
    (c.withTags name tags).members.filter (fun m => m.name ≠ name) =
      c.members.filter fun m => m.name ≠ name := by
  rw [withTags, List.filter_map]
  have hcomp : ((fun m : Member => decide (m.name ≠ name)) ∘
      fun m => if m.name = name then { m with tags } else m) = fun m => decide (m.name ≠ name) := by
    funext m
    rw [Function.comp_apply]
    split <;> rfl
  rw [hcomp]
  refine (List.map_congr_left fun m hm => ?_).trans (List.map_id _)
  exact if_neg (of_decide_eq_true (List.mem_filter.1 hm).2)

theorem member?_withTags (c : DeclaredClass) (tags : MemberTags) {x : String} (hx : x ≠ name) :
    (c.withTags name tags).member? x = c.member? x := by
  have hother : ∀ m : Member, (m.name == x) = true → m.name ≠ name := fun m hm hmn =>
    hx ((beq_iff_eq.1 hm).symm.trans hmn)
  rw [member?, member?, find?_others (l := c.members) fun m _ => hother m,
    find?_others fun m _ => hother m, filter_members_withTags]

/-- Where the block does not name the member, its tags count for no other member. -/
theorem filter_enumMembers_withTags (tags : MemberTags) (hblock : ∀ g ∈ c.classEnums, g.1 ≠ name) :
    (c.withTags name tags).enumMembers.filter (fun m => m.name ≠ name) =
      c.enumMembers.filter fun m => m.name ≠ name := by
  have htagged : (c.withTags name tags).taggedMembers.filter (fun m => m.name ≠ name) =
      c.taggedMembers.filter fun m => m.name ≠ name := by
    rw [taggedMembers, taggedMembers, List.filter_comm, filter_members_withTags, List.filter_comm]
  have hnamed : (c.withTags name tags).namedMembers c.classEnums = c.namedMembers c.classEnums := by
    rw [namedMembers, namedMembers]
    congr 1
    refine List.filterMap_congr fun x hx => ?_
    rw [List.mem_eraseDups, List.mem_map] at hx
    obtain ⟨g, hg, rfl⟩ := hx
    exact member?_withTags c tags (hblock g hg)
  have hgiven : (c.withTags name tags).classEnums = c.classEnums := rfl
  rw [enumMembers, enumMembers, registered, registered, List.filter_append, List.filter_append,
    hgiven, htagged, hnamed]

theorem enumPairs_withTags (c : DeclaredClass) (source : List Char) (name : String)
    (tags : MemberTags) (hpairs : pairs ≠ []) :
    (c.withTags name tags).enumPairs source (f.withPairs pairs) = pairs := by
  have hown : (c.withTags name tags).givenPairs (f.withPairs pairs) = pairs := if_neg hpairs
  rw [enumPairs, hown, if_neg hpairs]

section Block

variable {front back : List ClassTag}

theorem classEnums_withBlock (c : DeclaredClass) (name : String) (pairs : List EnumPair)
    (front back : List ClassTag) :
    (c.withBlock (front ++ .enumeration name pairs :: back)).classEnums =
      front.filterMap ClassTag.enumeration? ++
        (name, pairs) :: back.filterMap ClassTag.enumeration? :=
  List.filterMap_append

theorem classEnums_eq (htags : c.tags = front ++ back) :
    c.classEnums =
      front.filterMap ClassTag.enumeration? ++ back.filterMap ClassTag.enumeration? := by
  rw [classEnums, htags, List.filterMap_append]

/-- A member without pairs gets those of the block. -/
theorem enumPairs_withBlock (hnone : f.tags.pairs = []) (hblock : ∀ g ∈ c.classEnums, g.1 ≠ f.name)
    (hpairs : pairs ≠ []) (htags : c.tags = front ++ back) (source : List Char) :
    (c.withBlock (front ++ .enumeration f.name pairs :: back)).enumPairs source f = pairs := by
  have hfront : ∀ g ∈ front.filterMap ClassTag.enumeration?, g.1 ≠ f.name := fun g hg =>
    hblock g (classEnums_eq htags ▸ List.mem_append_left _ hg)
  have hgiven : (c.withBlock (front ++ .enumeration f.name pairs :: back)).givenPairs f =
      pairs := by
    rw [givenPairs, if_pos hnone, classEnums_withBlock]
    exact EnumPair.firstFor_insert_self (g := (f.name, pairs)) hpairs hfront _
  rw [enumPairs, hgiven, if_neg hpairs]

/-- The members of other names keep their pairs. -/
theorem enumPairs_withBlock_of_ne (htags : c.tags = front ++ back) (source : List Char) {m : Member}
    (hm : m.name ≠ name) :
    (c.withBlock (front ++ .enumeration name pairs :: back)).enumPairs source m =
      c.enumPairs source m := by
  have hgiven : (c.withBlock (front ++ .enumeration name pairs :: back)).givenPairs m =
      c.givenPairs m := by
    rw [givenPairs, givenPairs, classEnums_withBlock, classEnums_eq htags,
      EnumPair.firstFor_insert_of_ne (g := (name, pairs)) hm]
  rw [enumPairs, enumPairs, hgiven]

/-- The pairs of a member are the same behind it and in the block. -/
theorem sameMappings (hd : c.HasDistinctNames) (hf : f ∈ c.members) (hjson : f.isJson = false)
    (hnone : f.tags.pairs = []) (hblock : ∀ g ∈ c.classEnums, g.1 ≠ f.name) (hpairs : pairs ≠ [])
    (htags : c.tags = front ++ back) (source : List Char) :
    SameMappings (c.withTags f.name (f.tags.withPairs pairs))
      (c.withBlock (front ++ .enumeration f.name pairs :: back)) source f.name where
  scope := rfl
  others := by
    -- both have the mappings of the class besides
    rw [filter_enumMembers_withTags _ hblock, enumMembers, enumMembers, classEnums_withBlock,
      classEnums_eq htags]
    exact (c.filter_registered_insert _ (f.name, pairs) _).symm
  pairs m hm := (enumPairs_withBlock_of_ne htags source hm).symm
  moved := by
    have hbehind := enumPairs_withTags (f := f) c source f.name (f.tags.withPairs pairs) hpairs
    refine ⟨f.withPairs pairs, ?_, f, ?_, rfl, rfl, ?_, by rwa [hbehind]⟩
    · refine (mem_registered_iff (hasDistinctNames_withTags hd _ _)).2 ⟨?_, hjson, .inl ?_⟩
      · rw [members_withTags hd hf]
        exact List.mem_map.2 ⟨f, hf, by rw [if_pos rfl]⟩
      · have hown : (f.withPairs pairs).tags.pairs.isEmpty = false :=
          List.isEmpty_eq_false_iff.2 hpairs
        rw [Member.wantsEnum, hown]
        rfl
    · have hd' : (c.withBlock (front ++ .enumeration f.name pairs :: back)).HasDistinctNames := hd
      refine (mem_registered_iff hd').2 ⟨hf, hjson, .inr ⟨(f.name, pairs), ?_, rfl⟩⟩
      rw [classEnums_withBlock]
      exact List.mem_append_right _ List.mem_cons_self
    · rw [mapping, mapping, hbehind, enumPairs_withBlock hnone hblock hpairs htags]
      rfl

/-- The entities of the two classes differ in the pairs behind the member at most. -/
theorem agrees (hd : c.HasDistinctNames) (hf : f ∈ c.members) (htags : c.tags = front ++ back)
    (hsame : SameMappings (c.withTags f.name (f.tags.withPairs pairs))
      (c.withBlock (front ++ .enumeration f.name pairs :: back)) source f.name)
    (he : (c.withTags f.name (f.tags.withPairs pairs)).resolve source file = .ok e)
    (he' : (c.withBlock (front ++ .enumeration f.name pairs :: back)).resolve source file =
      .ok e') :
    Entity.Agrees e e' fun m => if m.name = f.name then pairs else m.tags.pairs := by
  refine ⟨?_, ?_, hsame.enumFor? (hasDistinctNames_withTags hd _ _) hd he he', ?_⟩
  · rw [eq_of_resolve he, eq_of_resolve he']
    rfl
  · rw [members_of_resolve he, members_of_resolve he', members_withTags hd hf]
    rfl
  · have hreadOnly : (front ++ .enumeration f.name pairs :: back).contains .readOnly =
        c.tags.contains .readOnly := by
      rw [htags, Bool.eq_iff_iff]
      simp
    rw [eq_of_resolve he, eq_of_resolve he']
    exact hreadOnly.symm

end Block

end Places

end DeclaredClass

/-! ### Declared classes -/

theorem exists_ok_iff {ε α : Type} {r : Except ε α} : (∃ a, r = .ok a) ↔ ∀ err, r ≠ .error err := by
  cases r <;> simp

/-- The tags of a declared member are those of a text. -/
theorem exists_text_of_mem_members {source : List Char} {c : DeclaredClass}
    (hc : c ∈ declaredClasses source) {m : Member} (hm : m ∈ c.members) :
    ∃ text, m.tags = MemberTags.ofText m.name text := by
  obtain ⟨site, -, rfl⟩ := List.mem_map.1 hc
  obtain ⟨s, -, hmember⟩ := List.mem_filterMap.1 hm
  unfold MemberSite.member? Member.ofCode? at hmember
  simp only [Option.bind_eq_bind, Option.bind_eq_some_iff] at hmember
  obtain ⟨_, _, _, _, _, _, ⟨declarator, initial⟩, _, name, _, _, _, _, _, h⟩ := hmember
  cases h
  cases Declaration.tagText? s.trailing with
  | none => exact ⟨[], rfl⟩
  | some text => exact ⟨text, rfl⟩

namespace DeclaredClass

/-- **Pairs of an enum mean the same behind the member and in the block.**  Take a member of an
annotated class that is not stored as JSON, has no pairs and is not named by a mapping of the block,
and a text with some pair.  One more word with this text, behind the member or in a line of the
block, can always be written.  Then the class is resolved in both cases or in none, and with the
same failure; when it is, each name has the same mapping, and the function that reads a row, the two
functions that bind parameters and the traits of the members that can be changed are the same. -/
theorem enum_places_agree {header : List Char} {c : DeclaredClass}
    (hc : c ∈ declaredClasses header) (hd : c.HasDistinctNames) {f : Member} (hf : f ∈ c.members)
    (hjson : f.isJson = false) (hnone : f.tags.pairs = [])
    (hblock : ∀ g ∈ c.classEnums, g.1 ≠ f.name) {pairs : List Char} (hword : IsUnbrokenText pairs)
    (hpairs : EnumPair.listOf pairs ≠ []) :
    (∃ text, f.tags = MemberTags.ofText f.name text) ∧
    (∀ text, ∃ text', AddsWord (pairsWord pairs) text text') ∧
    (∀ line, ∃ line', AddsWord (blockPairsWord f.name pairs) line line') ∧
    ∀ text text' line line' front back,
      f.tags = MemberTags.ofText f.name text →
      AddsWord (pairsWord pairs) text text' →
      c.tags = front ++ (ClassTag.ofLine false line ++ back) →
      AddsWord (blockPairsWord f.name pairs) line line' →
      ∀ behind block, behind = c.withTags f.name (MemberTags.ofText f.name text') →
      block = c.withBlock (front ++ (ClassTag.ofLine false line' ++ back)) →
      ∀ source file,
        (∀ err, behind.resolve source file = .error err ↔ block.resolve source file = .error err) ∧
        ((∃ e, behind.resolve source file = .ok e) ↔ ∃ e, block.resolve source file = .ok e) ∧
        ∀ e e', behind.resolve source file = .ok e → block.resolve source file = .ok e' →
          (∀ name, e.enumFor? name = e'.enumFor? name) ∧ fromRow e = fromRow e' ∧
          insertParams e = insertParams e' ∧ updateParams e = updateParams e' ∧
          traitsType e = traitsType e' ∧ ∀ mapping, fieldInfo e mapping = fieldInfo e' mapping := by
  have hname := isNamePart_of_mem_members hc hf
  have hcolon : ':' ∉ f.name.toList := fun hmem => absurd (hname ':' hmem) (by decide)
  have hblockWord : IsUnbrokenText (f.name.toList ++ ':' :: pairs) :=
    List.forall_mem_append.2
      ⟨isUnbrokenText_of_isNamePart hname, List.forall_mem_cons.2 ⟨rfl, hword⟩⟩
  refine ⟨exists_text_of_mem_members hc hf, (isWord_pairsWord hword).exists_addsWord,
    (isWord_pairsWord hblockWord).exists_addsWord, ?_⟩
  rintro text text' line line' front back htext hbehind htags hline _ _ rfl rfl source file
  obtain ⟨before, after, hbefore, hafter⟩ := ClassTag.ofLine_of_addsWord hcolon hline
  have htags' : c.tags = (front ++ before) ++ (after ++ back) := by
    rw [htags, hbefore]
    simp only [List.append_assoc]
  have hmore : front ++ (ClassTag.ofLine false line' ++ back) =
      (front ++ before) ++ .enumeration f.name (EnumPair.listOf pairs) :: (after ++ back) := by
    rw [hafter]
    simp only [List.append_assoc, List.cons_append]
  rw [MemberTags.ofText_of_addsWord hbehind (htext ▸ hnone), ← htext, hmore]
  have hsame := sameMappings hd hf hjson hnone hblock hpairs htags' source
  have hd' := hasDistinctNames_withTags hd f.name (f.tags.withPairs (EnumPair.listOf pairs))
  refine ⟨fun err => hsame.resolve_eq_error_iff hd' hd, ?_, fun e e' he he' => ?_⟩
  · rw [exists_ok_iff, exists_ok_iff]
    exact forall_congr' fun err => not_congr (hsame.resolve_eq_error_iff hd' hd)
  · have hagrees := agrees hd hf htags' hsame he he'
    have hdistinct : e'.HasDistinctNames := by
      rw [Entity.HasDistinctNames, members_of_resolve he']
      exact hd
    have htraits := hagrees.fieldTraits hdistinct
    refine ⟨hagrees.enumFor, hagrees.fromRow hdistinct, hagrees.insertParams hdistinct,
      hagrees.updateParams hdistinct, ?_, fun mapping => ?_⟩
    · rw [traitsType, traitsType, htraits]
    · rw [fieldInfo, fieldInfo, htraits]

/-- A header with three enums: one has pairs behind it, one in the block, and one has none. -/
def jobSource : List Char :=
  ("// @relais table=jobs enum=state:on:On\nstruct Job \x7b\n    int64_t id;\n" ++
    "    std::optional<Kind> kind; // @relais filterable\n    State state;\n" ++
    "    Mode mode; // @relais enum=x:X\n\x7d;\n").toList

/-- The member without pairs. -/
def jobKind : Member :=
  ⟨"kind", "std::optional<Kind>", "", 4, { filters := [⟨"kind", "kind", .eq⟩] }⟩

/-- The class of the header. -/
def jobClass : DeclaredClass where
  name := "Job"
  scope := ""
  isStruct := true
  line := 2
  tags := [.table "jobs", .enumeration "state" [⟨"on", "On"⟩]]
  members := [⟨"id", "int64_t", "", 3, {}⟩, jobKind, ⟨"state", "State", "", 5, {}⟩,
    ⟨"mode", "Mode", "", 6, { pairs := [⟨"x", "X"⟩] }⟩]

/-- The class with pairs behind the member, one of which is malformed. -/
def jobBehind : DeclaredClass :=
  jobClass.withTags "kind" (MemberTags.ofText "kind" "enum=a:A,b,c:C filterable".toList)

/-- The class with the same pairs in its block. -/
def jobBlock : DeclaredClass :=
  jobClass.withBlock (ClassTag.ofLine false
    "table=jobs enum=kind:a:A,b,c:C enum=state:on:On".toList)

/-- The entity with these mappings. -/
def jobEntity (c : DeclaredClass) (enums : List EnumMapping) : Entity where
  className := "Job"
  scope := ""
  table := "jobs"
  model := none
  members := c.members
  enums
  readOnly := false
  tiers := []
  entityName := "Job"
  hasStructMeta := false
  file := "Job.h"
  line := 2

/-- The mapping of the member. -/
def jobMapping : EnumMapping := ⟨"kind", "Kind", [⟨"a", "A"⟩, ⟨"c", "C"⟩], false⟩

/-- The mapping stands first or last, and nothing else differs. -/
theorem enum_places_agree_job :
    jobClass ∈ declaredClasses jobSource ∧ jobClass.HasDistinctNames ∧
      ∃ e e', jobBehind.resolve jobSource "Job.h" = .ok e ∧
        jobBlock.resolve jobSource "Job.h" = .ok e' ∧
        e.enums.map EnumMapping.field = ["kind", "mode", "state"] ∧
        e'.enums.map EnumMapping.field = ["mode", "kind", "state"] ∧
        e.enumFor? "kind" = some jobMapping ∧ e'.enumFor? "kind" = some jobMapping ∧
        fromRow e = fromRow e' ∧ insertParams e = insertParams e' := by
  have hsource : jobSource = _ :=
    toList_append_of_eq (toList_append_of_eq String.toList_ofList String.toList_ofList)
      String.toList_ofList
  have hc : jobClass ∈ declaredClasses jobSource := by
    rw [hsource]
    decide +kernel
  have hd : jobClass.HasDistinctNames := by decide
  have hword : "a:A,b,c:C".toList ∈ words "a:A,b,c:C".toList := by decide
  have hbehind : jobBehind.resolve jobSource "Job.h" = .ok (jobEntity jobBehind
      [jobMapping, ⟨"mode", "Mode", [⟨"x", "X"⟩], false⟩,
        ⟨"state", "State", [⟨"on", "On"⟩], false⟩]) := by
    rw [hsource]
    decide +kernel
  have hblock : jobBlock.resolve jobSource "Job.h" = .ok (jobEntity jobBlock
      [⟨"mode", "Mode", [⟨"x", "X"⟩], false⟩, jobMapping,
        ⟨"state", "State", [⟨"on", "On"⟩], false⟩]) := by
    rw [hsource]
    decide +kernel
  obtain ⟨-, -, -, hagree⟩ := enum_places_agree hc hd (f := jobKind) (by decide) rfl rfl
    (by decide) (isUnbrokenText_of_mem_words hword) (by decide)
  obtain ⟨-, -, hsame⟩ := hagree "filterable".toList "enum=a:A,b,c:C filterable".toList
    "table=jobs enum=state:on:On".toList "table=jobs enum=kind:a:A,b,c:C enum=state:on:On".toList
    [] [] (by decide) ⟨[], ["filterable".toList], by decide, by decide⟩ (by decide)
    ⟨["table=jobs".toList], ["enum=state:on:On".toList], by decide, by decide⟩ jobBehind jobBlock
    rfl (by decide) jobSource "Job.h"
  obtain ⟨hmapping, hrow, hinsert, -⟩ := hsame _ _ hbehind hblock
  exact ⟨hc, hd, _, _, hbehind, hblock, rfl, rfl, (hmapping "kind").trans (by decide), by decide,
    hrow, hinsert⟩

end DeclaredClass

end RowMapping
