import Mathlib.Data.List.Forall2
import RowMapping.Compile
import RowMapping.Proofs.EnumMembers
/-!
# Resolving enum mappings

A mapping without pairs in the tags takes those that the header gives for its type.  Where there are
none, the class cannot be resolved, and the header is not compiled.

* `mapM_eq_ok_iff`, `mapM_eq_error_iff`: a list of attempts succeeds when all of them do, and else
  fails with the first failure;
* `DeclaredClass.enumPairs`: the pairs of a member, wherever they come from;
* `resolve_draft`: one mapping;
* `DeclaredClass.enum_resolution`: when a class is resolved, with which pairs, and what is compiled.
-/

namespace RowMapping

/-! ### Lists of attempts -/

theorem exists_of_mem_forall₂ {α β : Type} {R : α → β → Prop} {l : List α} {r : List β}
    (h : List.Forall₂ R l r) {a : α} (ha : a ∈ l) : ∃ b ∈ r, R a b := by
  induction h with
  | nil => cases ha
  | cons hhead _ ih =>
    rcases List.mem_cons.1 ha with rfl | ha
    · exact ⟨_, List.mem_cons_self, hhead⟩
    · obtain ⟨b, hb, hab⟩ := ih ha
      exact ⟨b, List.mem_cons_of_mem _ hb, hab⟩

section Attempts

variable {α β ε : Type} {f : α → Except ε β}

theorem mapM_eq_ok_iff {l : List α} {r : List β} :
    l.mapM f = .ok r ↔ List.Forall₂ (fun a b => f a = .ok b) l r := by
  induction l generalizing r with
  | nil =>
    rw [List.mapM_nil, List.forall₂_nil_left_iff]
    exact ⟨fun h => (Except.ok.inj h).symm, fun h => h ▸ rfl⟩
  | cons a l ih =>
    rw [List.mapM_cons, List.forall₂_cons_left_iff]
    cases ha : f a with
    | error e => exact ⟨nofun, fun ⟨_, _, h, _⟩ => nomatch h⟩
    | ok b =>
      cases hl : l.mapM f with
      | error e =>
        refine ⟨nofun, fun ⟨_, r', _, hr', _⟩ => ?_⟩
        rw [ih.2 hr'] at hl
        cases hl
      | ok bs =>
        constructor
        · intro h
          cases h
          exact ⟨b, bs, rfl, ih.1 hl, rfl⟩
        · rintro ⟨_, r', h, hr', rfl⟩
          cases h
          cases hl.symm.trans (ih.2 hr')
          rfl

/-- The first attempt that fails decides. -/
theorem mapM_eq_error_iff {l : List α} {e : ε} :
    l.mapM f = .error e ↔ ∃ before a after, l = before ++ a :: after ∧
      (∀ b ∈ before, ∃ r, f b = .ok r) ∧ f a = .error e := by
  induction l with
  | nil => exact ⟨nofun, fun ⟨before, _, _, h, _⟩ => by cases before <;> cases h⟩
  | cons a l ih =>
    rw [List.mapM_cons]
    cases ha : f a with
    | error e' =>
      constructor
      · intro h
        cases h
        exact ⟨[], a, l, rfl, fun _ hb => absurd hb List.not_mem_nil, ha⟩
      · rintro ⟨before, a', after, hl, hbefore, ha'⟩
        cases before with
        | nil =>
          cases hl
          cases ha.symm.trans ha'
          rfl
        | cons b before =>
          cases hl
          obtain ⟨r, hr⟩ := hbefore a List.mem_cons_self
          cases ha.symm.trans hr
    | ok b =>
      have hcons : (do let b ← Except.ok b; let bs ← l.mapM f; pure (b :: bs)) = .error e ↔
          l.mapM f = .error e := by
        cases l.mapM f with
        | error e' => exact ⟨fun h => by cases h; rfl, fun h => by cases h; rfl⟩
        | ok bs => exact ⟨nofun, nofun⟩
      rw [hcons, ih]
      constructor
      · rintro ⟨before, a', after, rfl, hbefore, ha'⟩
        exact ⟨a :: before, a', after, rfl, List.forall_mem_cons.2 ⟨⟨b, ha⟩, hbefore⟩, ha'⟩
      · rintro ⟨before, a', after, hl, hbefore, ha'⟩
        cases before with
        | nil =>
          cases hl
          cases ha.symm.trans ha'
        | cons b' before =>
          cases hl
          exact ⟨before, a', after, rfl, (List.forall_mem_cons.1 hbefore).2, ha'⟩

end Attempts

namespace DeclaredClass

/-- The pairs of a member: those that the tags give, or else those that the header gives for the
type of its value. -/
def enumPairs (c : DeclaredClass) (source : List Char) (m : Member) : List EnumPair :=
  if c.givenPairs m = [] then Specialization.pairs source (Name.bare m.valueType)
  else c.givenPairs m

variable {c : DeclaredClass} {source : List Char} {file : String} {m : Member} {e : Entity}
  {err : UnresolvedEnum}

theorem givenPairs_eq_nil_iff : c.givenPairs m = [] ↔
    m.tags.pairs = [] ∧ ∀ g ∈ c.classEnums, g.1 = m.name → g.2 = [] := by
  rw [givenPairs]
  split
  · next h => rw [EnumPair.firstFor_eq_nil_iff, and_iff_right h]
  · next h => simp [h]

theorem enumPairs_eq_nil_iff : c.enumPairs source m = [] ↔
    m.tags.pairs = [] ∧ (∀ g ∈ c.classEnums, g.1 = m.name → g.2 = []) ∧
      Specialization.pairs source (Name.bare m.valueType) = [] := by
  rw [← and_assoc, ← givenPairs_eq_nil_iff, enumPairs]
  split
  · next h => rw [and_iff_right h]
  · next h => simp [h]

/-- A mapping gets the pairs of its member, and fails when there are none. -/
theorem resolve_draft (c : DeclaredClass) (source : List Char) (file : String) (m : Member) :
    EnumMapping.resolve source c.scope file ⟨m.name, m.valueType, c.givenPairs m, false⟩ =
      if c.enumPairs source m = [] then .error ⟨m.name, Name.qualify c.scope m.valueType, file⟩
      else .ok ⟨m.name, m.valueType, c.enumPairs source m,
        Specialization.occurs source (Name.bare m.valueType)⟩ := by
  simp only [EnumMapping.resolve, enumPairs, List.isEmpty_iff]
  rfl

/-- The attempts for the mappings of a class, in order. -/
def attempts (c : DeclaredClass) (source : List Char) (file : String) :
    Except UnresolvedEnum (List EnumMapping) :=
  c.enumDrafts.mapM (EnumMapping.resolve source c.scope file)

theorem resolve_eq_error_iff :
    c.resolve source file = .error err ↔ c.attempts source file = .error err := by
  unfold resolve attempts
  cases c.enumDrafts.mapM (EnumMapping.resolve source c.scope file) with
  | error e => exact ⟨fun h => by cases h; rfl, fun h => by cases h; rfl⟩
  | ok es => exact ⟨nofun, nofun⟩

theorem attempts_of_resolve (h : c.resolve source file = .ok e) :
    c.attempts source file = .ok e.enums := by
  unfold resolve at h
  unfold attempts
  cases hes : c.enumDrafts.mapM (EnumMapping.resolve source c.scope file) with
  | error e => rw [hes] at h; cases h
  | ok es => rw [hes] at h; cases h; rfl

theorem attempts_eq (hd : c.HasDistinctNames) :
    c.attempts source file = c.enumMembers.mapM fun m =>
      EnumMapping.resolve source c.scope file ⟨m.name, m.valueType, c.givenPairs m, false⟩ := by
  rw [attempts, enumDrafts_eq hd, List.mapM_map]
  rfl

/-- A class cannot be resolved for the first of its members without pairs. -/
theorem resolve_eq_error_iff_first (hd : c.HasDistinctNames) :
    c.resolve source file = .error err ↔ ∃ before m after, c.enumMembers = before ++ m :: after ∧
      (∀ b ∈ before, c.enumPairs source b ≠ []) ∧ c.enumPairs source m = [] ∧
        err = ⟨m.name, Name.qualify c.scope m.valueType, file⟩ := by
  have hok : ∀ b : Member, (∃ r, EnumMapping.resolve source c.scope file
      ⟨b.name, b.valueType, c.givenPairs b, false⟩ = .ok r) ↔ c.enumPairs source b ≠ [] := by
    intro b
    rw [resolve_draft]
    by_cases hb : c.enumPairs source b = [] <;> simp [hb]
  have herr : ∀ b : Member, EnumMapping.resolve source c.scope file
      ⟨b.name, b.valueType, c.givenPairs b, false⟩ = .error err ↔ c.enumPairs source b = [] ∧
        err = ⟨b.name, Name.qualify c.scope b.valueType, file⟩ := by
    intro b
    rw [resolve_draft]
    by_cases hb : c.enumPairs source b = [] <;> simp [hb, eq_comm]
  simp only [resolve_eq_error_iff, attempts_eq hd, mapM_eq_error_iff, hok, herr]

/-- The mappings of a resolved class, with all their pairs. -/
theorem enums_of_resolve (hd : c.HasDistinctNames) (h : c.resolve source file = .ok e) :
    e.enums = c.enumMembers.map fun m => ⟨m.name, m.valueType, c.enumPairs source m,
      Specialization.occurs source (Name.bare m.valueType)⟩ := by
  have hall := attempts_of_resolve h
  rw [attempts_eq hd, mapM_eq_ok_iff] at hall
  have hsame : List.Forall₂ (fun m r => r = (⟨m.name, m.valueType, c.enumPairs source m,
      Specialization.occurs source (Name.bare m.valueType)⟩ : EnumMapping))
      c.enumMembers e.enums := by
    refine hall.imp fun m r hr => ?_
    rw [resolve_draft] at hr
    split at hr
    · cases hr
    · exact (Except.ok.inj hr).symm
  rw [← List.forall₂_eq_eq_eq, List.forall₂_map_right_iff]
  exact hsame.flip

theorem exists_error_iff (hd : c.HasDistinctNames) :
    (∃ err, c.resolve source file = .error err) ↔
      ∃ m ∈ c.enumMembers, c.enumPairs source m = [] := by
  constructor
  · rintro ⟨err, h⟩
    obtain ⟨before, m, after, hall, -, hm, -⟩ := (resolve_eq_error_iff_first hd).1 h
    exact ⟨m, hall ▸ List.mem_append_right _ List.mem_cons_self, hm⟩
  · rintro ⟨m, hm, hnil⟩
    cases hfirst : c.enumMembers.find? fun m => c.enumPairs source m = [] with
    | none => exact absurd hnil (by simpa using List.find?_eq_none.1 hfirst m hm)
    | some n =>
      obtain ⟨hn, before, after, hall, hbefore⟩ := List.find?_eq_some_iff_append.1 hfirst
      exact ⟨_, (resolve_eq_error_iff_first hd).2
        ⟨before, n, after, hall, by simpa using hbefore, by simpa using hn, rfl⟩⟩

end DeclaredClass

/-! ### What is compiled -/

section Compile

variable {source : List Char} {file : String} {err : UnresolvedEnum}

theorem compile_eq_ok_iff {names : SourceNames} {headers : List GeneratedHeader} :
    compile source file names = .ok headers ↔
      List.Forall₂ (fun c h => ∃ e, c.resolve source file = .ok e ∧ h = e.generate names)
        (declaredClasses source) headers := by
  rw [compile, allEntities]
  constructor
  · intro h
    cases hes : (declaredClasses source).mapM fun c => c.resolve source file with
    | error err => rw [hes] at h; cases h
    | ok es =>
      rw [hes] at h
      cases h
      rw [List.forall₂_map_right_iff]
      exact (mapM_eq_ok_iff.1 hes).imp fun c e he => ⟨e, he, rfl⟩
  · intro h
    obtain ⟨es, hes, rfl⟩ : ∃ es, List.Forall₂ (fun c e => c.resolve source file = .ok e)
        (declaredClasses source) es ∧ headers = es.map (Entity.generate names) := by
      generalize declaredClasses source = cs at h
      induction h with
      | nil => exact ⟨[], .nil, rfl⟩
      | cons hc _ ih =>
        obtain ⟨e, he, rfl⟩ := hc
        obtain ⟨es, hes, rfl⟩ := ih
        exact ⟨e :: es, .cons he hes, rfl⟩
    rw [mapM_eq_ok_iff.2 hes]
    rfl

theorem compile_eq_error_iff {names : SourceNames} :
    compile source file names = .error err ↔
      ∃ (before : List DeclaredClass) (c : DeclaredClass) (after : List DeclaredClass),
        declaredClasses source = before ++ c :: after ∧
          (∀ b ∈ before, ∃ e, b.resolve source file = .ok e) ∧
          c.resolve source file = .error err := by
  have hmap : compile source file names = .error err ↔ allEntities source file = .error err := by
    rw [compile]
    cases allEntities source file with
    | error e => exact ⟨fun h => by cases h; rfl, fun h => by cases h; rfl⟩
    | ok es => exact ⟨nofun, nofun⟩
  rw [hmap, allEntities, mapM_eq_error_iff]

end Compile

namespace DeclaredClass

variable {c : DeclaredClass}

/-- **Resolving fails for an enum without pairs only, and takes pairs from the nearest place.**  A
class cannot be resolved exactly when some member that is not stored as JSON is tagged as an enum,
by a flag or by the block, and has no pairs: not behind it, not in the block, and not in the header.
The failure is about the first such member in the order of the mappings.  A class that is resolved
has a mapping for each of these members, with the pairs behind it, or else those of the first mapping
of the block that has any, or else those in the header.  What is compiled is one header for each
class in order when all are resolved, and else the failure of the first class that is not. -/
theorem enum_resolution (hd : c.HasDistinctNames) (source : List Char) (file : String)
    (names : SourceNames) :
    ((∃ err, c.resolve source file = .error err) ↔
      ∃ m ∈ c.members, m.isJson = false ∧
        (m.tags.has .autoEnum = true ∨ ∃ g ∈ c.classEnums, g.1 = m.name) ∧ m.tags.pairs = [] ∧
        (∀ g ∈ c.classEnums, g.1 = m.name → g.2 = []) ∧
        Specialization.pairs source (Name.bare m.valueType) = []) ∧
    (∀ err, c.resolve source file = .error err ↔
      ∃ before m after, c.enumMembers = before ++ m :: after ∧
        (∀ b ∈ before, c.enumPairs source b ≠ []) ∧ c.enumPairs source m = [] ∧
        err = ⟨m.name, Name.qualify c.scope m.valueType, file⟩) ∧
    (∀ e, c.resolve source file = .ok e →
      e.enums = c.enumMembers.map fun m => ⟨m.name, m.valueType, c.enumPairs source m,
        Specialization.occurs source (Name.bare m.valueType)⟩) ∧
    (∀ headers, compile source file names = .ok headers ↔
      List.Forall₂ (fun c h => ∃ e, c.resolve source file = .ok e ∧ h = e.generate names)
        (declaredClasses source) headers) ∧
    ∀ err, compile source file names = .error err ↔
      ∃ before c after, declaredClasses source = before ++ c :: after ∧
        (∀ b ∈ before, ∃ e, b.resolve source file = .ok e) ∧
        c.resolve source file = .error err := by
  refine ⟨?_, fun err => resolve_eq_error_iff_first hd, fun e he => enums_of_resolve hd he,
    fun headers => compile_eq_ok_iff, fun err => compile_eq_error_iff⟩
  rw [exists_error_iff hd]
  constructor
  · rintro ⟨m, hm, hnil⟩
    obtain ⟨hmem, hjson, hasks⟩ := (mem_registered_iff hd).1 hm
    obtain ⟨hown, hblock, hheader⟩ := enumPairs_eq_nil_iff.1 hnil
    -- without pairs of its own, a member asks for a mapping by its flag
    have hflag : m.wantsEnum = m.tags.has .autoEnum := by simp [Member.wantsEnum, hown]
    exact ⟨m, hmem, hjson, hflag ▸ hasks, hown, hblock, hheader⟩
  · rintro ⟨m, hmem, hjson, hasks, hown, hblock, hheader⟩
    have hflag : m.wantsEnum = m.tags.has .autoEnum := by simp [Member.wantsEnum, hown]
    exact ⟨m, (mem_registered_iff hd).2 ⟨hmem, hjson, hflag ▸ hasks⟩,
      enumPairs_eq_nil_iff.2 ⟨hown, hblock, hheader⟩⟩

/-- A class whose three enums have their pairs in three places; its block names a fourth member,
which is stored as JSON. -/
def ticket : DeclaredClass where
  name := "Ticket"
  scope := "app"
  isStruct := true
  line := 5
  tags := [.table "tickets", .enumeration "kind" [], .enumeration "state" [],
    .enumeration "mode" [⟨"y", "Y"⟩], .enumeration "state" [⟨"on", "On"⟩],
    .enumeration "state" [⟨"off", "Off"⟩], .enumeration "blob" [⟨"b", "B"⟩]]
  members := [⟨"id", "int64_t", "", 6, {}⟩, ⟨"blob", "Blob", "", 7, { flags := [.jsonField] }⟩,
    ⟨"kind", "Kind", "", 8, {}⟩, ⟨"state", "State", "", 9, { flags := [.autoEnum] }⟩,
    ⟨"mode", "std::optional<Mode>", "", 10, { pairs := [⟨"x", "X"⟩] }⟩]

/-- A header that has pairs for one of the enums. -/
def kindSource : List Char :=
  ("template<> struct glz::meta<app::Kind> \x7b\n" ++
    "    static constexpr auto value = glz::enumerate(\"bug\", Kind::Bug);\n\x7d;\n").toList

/-- The pairs come from the block, from behind the member, and from the header, in the order of the
mappings; without the header, the member that needs it is the failure. -/
theorem enum_resolution_ticket :
    ticket.HasDistinctNames ∧
      (∃ e, ticket.resolve kindSource "Ticket.h" = .ok e) ∧
      (∀ e, ticket.resolve kindSource "Ticket.h" = .ok e →
        e.enums = [⟨"state", "State", [⟨"on", "On"⟩], false⟩, ⟨"mode", "Mode", [⟨"x", "X"⟩], false⟩,
          ⟨"kind", "Kind", [⟨"bug", "Bug"⟩], true⟩]) ∧
      ticket.resolve [] "Ticket.h" = .error ⟨"kind", "app::Kind", "Ticket.h"⟩ := by
  have hsource : kindSource = _ :=
    Text.toList_append_of_eq String.toList_ofList String.toList_ofList
  have hd : ticket.HasDistinctNames := by decide
  rw [hsource]
  obtain ⟨hfails, -, henums, -⟩ := enum_resolution hd _ "Ticket.h" ⟨"Ticket.h", "Ticket.h"⟩
  obtain ⟨-, hfirst, -⟩ := enum_resolution hd [] "Ticket.h" ⟨"Ticket.h", "Ticket.h"⟩
  refine ⟨hd, ?_, fun e he => (henums e he).trans (by decide +kernel), ?_⟩
  · cases h : ticket.resolve _ "Ticket.h" with
    | ok e => exact ⟨e, rfl⟩
    | error err => exact absurd (hfails.1 ⟨err, h⟩) (by decide +kernel)
  · exact (hfirst _).2 ⟨ticket.enumMembers.take 2, ⟨"kind", "Kind", "", 8, {}⟩, [],
      by decide +kernel, by decide +kernel, by decide +kernel, by decide +kernel⟩

end DeclaredClass

end RowMapping
