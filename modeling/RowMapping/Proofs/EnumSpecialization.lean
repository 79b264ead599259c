import RowMapping.Proofs.EnumResolution
import RowMapping.Proofs.SpecializationForm
/-!
# Enums with a specialization of their own

A bare enum takes its pairs from the call of `glz::enumerate` in a specialization of `glz::meta`.
The specialization is chosen by the last segment of the type's name, and the first one in the text
of the header wins, in whatever namespace it is and even in a comment.  An enum has the pairs of its
own specialization when nothing in front of it reads as one for a type of that last segment.

* `EnumEntry`, `EnumSpecialization`: a call with its entries, and a specialization with such a call;
* `pairsIn_text`, `EnumSpecialization.pairs_source`: the pairs that are read off;
* `DeclaredClass.exists_pairs_of_another`: an enum with pairs of another one, and of a comment;
* `DeclaredClass.pairs_of_first`: an enum with its own pairs.
-/

namespace RowMapping

open Text

/-! ### First occurrences -/

section

variable {x : Char} {p a b : List Char}

/-- The first occurrence of a text is where no part in front goes on as this text. -/
theorem splitFirst?_append (hp : p ≠ [])
    (h : ∀ c t, c :: t <:+ a → ¬p <+: c :: (t ++ (p ++ b))) :
    splitFirst? p (a ++ (p ++ b)) = some (a, b) := by
  induction a with
  | nil =>
    obtain ⟨x, p, rfl⟩ := List.exists_cons_of_ne_nil hp
    rw [List.nil_append, List.cons_append, splitFirst?, ← List.cons_append, isPrefixOf?_append]
  | cons c a ih =>
    have hhere : p.isPrefixOf? (c :: (a ++ (p ++ b))) = none := by
      rw [Option.eq_none_iff_forall_ne_some]
      intro rest hrest
      exact h c a List.suffix_rfl ⟨rest, (isPrefixOf?_eq_some_iff.1 hrest).symm⟩
    have hlater := ih fun d t ht => h d t (ht.trans (List.suffix_cons c a))
    rw [List.cons_append, splitFirst?, hhere, hlater]
    rfl

theorem occursIn_append (a p b : List Char) : occursIn p (a ++ (p ++ b)) = true := by
  induction a with
  | nil =>
    cases p with
    | nil => cases b <;> rfl
    | cons x p =>
      rw [occursIn, List.nil_append, List.cons_append, splitFirst?, ← List.cons_append,
        isPrefixOf?_append]
      rfl
  | cons c a ih =>
    rw [occursIn, List.cons_append, splitFirst?]
    split
    · rfl
    · rwa [Option.isSome_map]

theorem occursIn_eq_false_iff {p cs : List Char} :
    occursIn p cs = false ↔ ∀ a b, cs ≠ a ++ (p ++ b) := by
  constructor
  · rintro h a b rfl
    rw [occursIn_append] at h
    cases h
  · intro h
    rw [occursIn, Option.isSome_eq_false_iff, Option.isNone_iff_eq_none,
      Option.eq_none_iff_forall_ne_some]
    rintro ⟨a, b⟩ hsplit
    exact h a b (by rw [eq_of_splitFirst? hsplit, List.append_assoc])

/-- A text whose first character does not come again cannot overlap with itself. -/
theorem splitFirst?_append_of_not_occursIn (hx : x ∉ p) (ha : occursIn (x :: p) a = false) :
    splitFirst? (x :: p) (a ++ (x :: p ++ b)) = some (a, b) := by
  have hnot : ∀ s t, a ≠ s ++ (x :: p ++ t) := fun s t h => by
    rw [h, occursIn_append] at ha
    cases ha
  refine splitFirst?_append (List.cons_ne_nil _ _) ?_
  rintro c t ⟨s, hs⟩ ⟨rest, hrest⟩
  rw [← List.cons_append] at hrest
  rcases List.append_eq_append_iff.1 hrest with ⟨u, hu, -⟩ | ⟨u, hu, hb⟩
  · exact hnot s u (by rw [← hs, hu])
  · cases u with
    | nil => exact hnot s [] (by rw [← hs, hu, List.append_nil, List.append_nil])
    | cons y u =>
      -- the text would start again behind its first character
      obtain rfl : x = y := (List.cons.inj hb).1
      rw [List.cons_append, List.cons.injEq] at hu
      exact hx (hu.2 ▸ List.mem_append_right t List.mem_cons_self)

theorem splitFirst?_append_of_not_mem (hx : x ∉ a) :
    splitFirst? (x :: p) (a ++ (x :: p ++ b)) = some (a, b) := by
  refine splitFirst?_append (List.cons_ne_nil _ _) ?_
  rintro c t ht ⟨rest, hrest⟩
  rw [List.cons_append, List.cons.injEq] at hrest
  exact hx (hrest.1 ▸ ht.subset List.mem_cons_self)

end

/-! ### Last segments -/

namespace Name

/-- A path in front of a plain name: nothing, or segments that end in a word character, with scope
signs behind them. -/
def IsProperPath (p : List Char) : Prop :=
  p.all Specialization.isPathChar = true ∧
    (p = [] ∨ ∃ q c, isWord c = true ∧ p = q ++ c :: scopeSign)

variable {scope name : String} {path type : List Char}

theorem colon_not_mem (ht : Specialization.IsPlain type) : ':' ∉ type := fun h =>
  absurd (List.all_eq_true.1 ht.2 _ h) (by decide)

theorem bare_of_path (hp : IsProperPath path) (ht : Specialization.IsPlain type)
    (h : name.toList = path ++ type) : bare name = String.ofList type := by
  have hcolon : ':' ∉ type.reverse := by
    rw [List.mem_reverse]
    exact colon_not_mem ht
  rw [bare, afterLast, h, List.reverse_append]
  rcases hp.2 with rfl | ⟨q, c, -, rfl⟩
  · cases hsplit : splitFirst? scopeSign.reverse (type.reverse ++ [].reverse) with
    | none => rfl
    | some parts =>
      have hall := eq_of_splitFirst? hsplit
      rw [List.reverse_nil, List.append_nil] at hall
      exact absurd (hall ▸ by simp [scopeSign]) hcolon
  · have hsplit := splitFirst?_append_of_not_mem (p := [':']) (b := (q ++ [c]).reverse) hcolon
    have hreverse : (q ++ c :: scopeSign).reverse = ':' :: [':'] ++ (q ++ [c]).reverse := by
      simp [scopeSign]
    rw [hreverse, show scopeSign.reverse = ':' :: [':'] from rfl, hsplit]
    exact congrArg String.ofList (List.reverse_reverse type)

/-- A name that is qualified to a path and a plain name has this as its last segment. -/
theorem bare_of_qualify (hp : IsProperPath path) (ht : Specialization.IsPlain type)
    (h : (qualify scope name).toList = path ++ type) : bare name = String.ofList type := by
  rw [qualify] at h
  split at h
  · exact bare_of_path hp ht h
  · next hscope =>
    have hunqualified : ∀ u v, name.toList ≠ u ++ (scopeSign ++ v) := fun u v huv => by
      rw [isQualified, huv, occursIn_append] at hscope
      exact hscope rfl
    suffices hname : name.toList = [] ++ type from bare_of_path ⟨rfl, .inl rfl⟩ ht hname
    have hall : scope.toList ++ scopeSign ++ name.toList = path ++ type := by
      rw [← h]
      simp [scopeSign]
    rcases List.append_eq_append_iff.1 hall with ⟨u, hpath, hname⟩ | ⟨u, hscope, htype⟩
    · rcases hp.2 with rfl | ⟨q, c, hc, rfl⟩
      · simp [scopeSign] at hpath
      · -- the scope sign of the qualified name is the last one of the path
        have hsign : q ++ [c] ++ scopeSign = scope.toList ++ scopeSign ++ u := by
          rw [← hpath, List.append_assoc, List.singleton_append]
        rcases List.append_eq_append_iff.1 hsign with ⟨w, hscope, hw⟩ | ⟨w, -, rfl⟩
        · rcases w with _ | ⟨d, _ | ⟨e, w⟩⟩
          · exact absurd (by rw [hname, hw]; rfl) (hunqualified [] type)
          · have htwo : scope.toList ++ scopeSign = q ++ [c, d] := by simpa using hscope
            obtain rfl : ':' = c := (List.cons.inj (List.append_inj' htwo rfl).2).1
            exact absurd hc (by decide)
          · obtain rfl : u = [] := by
              have hlength := congrArg List.length hw
              rw [List.length_append] at hlength
              exact List.length_eq_zero_iff.1 (by simp [scopeSign] at hlength; omega)
            exact hname
        · exact absurd (by rw [hname, List.append_assoc]) (hunqualified w type)
    · rcases List.eq_nil_or_concat u with rfl | ⟨v, d, rfl⟩
      · exact htype.symm
      · -- the plain name would hold a colon
        have hlast : scope.toList ++ [':'] ++ [':'] = path ++ v ++ [d] := by
          simpa [scopeSign] using hscope
        obtain rfl : ':' = d := (List.cons.inj (List.append_inj' hlast rfl).2).1
        exact absurd (htype ▸ by simp) (colon_not_mem ht)

end Name

namespace Specialization

/-! ### Calls -/

/-- An entry of a call, with what stands between it and the next one. -/
structure EnumEntry where
  external : List Char
  beforeComma : Gap
  afterComma : Gap
  enumerator : List Char
  between : List Char
  external_valid : external ≠ [] ∧ ∀ d ∈ external, d ≠ '"' ∧ d ≠ ')' ∧ d ≠ '\\'
  enumerator_valid : enumerator ≠ [] ∧ enumerator.all isPathChar = true
  between_valid : ∀ d ∈ between, d ≠ '"' ∧ d ≠ ')'
  between_head : ∀ d ∈ between.head?, isPathChar d = false

namespace EnumEntry

/-- The text of an entry. -/
def text (e : EnumEntry) : List Char :=
  '"' :: (e.external ++ '"' :: (e.beforeComma.text ++ ',' :: (e.afterComma.text ++
    (e.enumerator ++ e.between))))

/-- The pair that an entry is for. -/
def pair (e : EnumEntry) : EnumPair :=
  ⟨String.ofList e.external, Name.bare (String.ofList e.enumerator)⟩

end EnumEntry

theorem pair?_text (e : EnumEntry) {rest : List Char}
    (hrest : ∀ d ∈ rest.head?, isPathChar d = false) :
    pair? (e.text ++ rest) = some (e.pair, e.between ++ rest) := by
  have hbetween : ∀ d ∈ (e.between ++ rest).head?, isPathChar d = false := by
    rw [List.head?_append]
    cases hb : e.between.head? with
    | none => simpa using hrest
    | some c => simpa [hb] using e.between_head
  have hexternal : e.external.all (· != '"') = true :=
    List.all_eq_true.2 fun c hc => by simpa using (e.external_valid.2 c hc).1
  have hcomma : ∀ cs, trimStart (e.beforeComma.text ++ ',' :: cs) = ',' :: cs := fun cs =>
    (Gap.trimStart_eq_cons_iff rfl).2 ⟨e.beforeComma, rfl⟩
  have hquote : ∀ cs, ∀ d ∈ ('"' :: cs).head?, (d != '"') = false := by rintro _ _ ⟨⟩; rfl
  have hexternal_ne : e.external.isEmpty = false := by simpa using e.external_valid.1
  have henumerator_ne : e.enumerator.isEmpty = false := by simpa using e.enumerator_valid.1
  have htext : e.text ++ rest = '"' :: (e.external ++ '"' :: (e.beforeComma.text ++
      ',' :: (e.afterComma.text ++ (e.enumerator ++ (e.between ++ rest))))) := by
    simp [EnumEntry.text]
  rw [htext]
  simp only [pair?, cons_isPrefixOf?_cons, nil_isPrefixOf?, beq_self_eq_true, if_true,
    Option.bind_eq_bind, Option.bind_some, takeWhile_append_of_stop hexternal (hquote _),
    dropWhile_append_of_stop hexternal (hquote _), hcomma,
    trimStart_gap_name e.enumerator_valid.1 e.enumerator_valid.2,
    takeWhile_append_of_stop e.enumerator_valid.2 hbetween,
    dropWhile_append_of_stop e.enumerator_valid.2 hbetween, hexternal_ne, henumerator_ne]
  rfl

theorem pairsWithin_entry (fuel : Nat) (e : EnumEntry) {rest : List Char}
    (hrest : ∀ d ∈ rest.head?, isPathChar d = false) :
    pairsWithin (fuel + 1) (e.text ++ rest) = e.pair :: pairsWithin fuel (e.between ++ rest) := by
  have hpair := pair?_text e hrest
  rw [EnumEntry.text, List.cons_append] at hpair ⊢
  rw [pairsWithin, hpair]

theorem pairsWithin_skip {fuel : Nat} {skipped cs : List Char} (h : ∀ d ∈ skipped, d ≠ '"')
    (hfuel : skipped.length ≤ fuel) :
    pairsWithin fuel (skipped ++ cs) = pairsWithin (fuel - skipped.length) cs := by
  induction skipped generalizing fuel with
  | nil => rfl
  | cons c skipped ih =>
    obtain ⟨fuel, rfl⟩ : ∃ n, fuel = n + 1 := Nat.exists_eq_succ_of_ne_zero (by
      rintro rfl
      exact absurd hfuel (Nat.not_succ_le_zero _))
    have hc : ('"' == c) = false := by simpa using (h c List.mem_cons_self).symm
    have hnone : pair? (c :: (skipped ++ cs)) = none := by
      simp [pair?, cons_isPrefixOf?_cons, hc]
    rw [List.cons_append, pairsWithin, hnone, List.length_cons, Nat.add_sub_add_right]
    exact ih (fun d hd => h d (List.mem_cons_of_mem _ hd)) (Nat.le_of_succ_le_succ hfuel)

/-- The arguments of a call: entries, with blanks or a comment in front of the first one. -/
def argumentsText (lead : List Char) (entries : List EnumEntry) : List Char :=
  lead ++ entries.flatMap EnumEntry.text

theorem pairsWithin_text {fuel : Nat} (entries : List EnumEntry)
    (hfuel : (entries.flatMap EnumEntry.text).length ≤ fuel) :
    pairsWithin fuel (entries.flatMap EnumEntry.text) = entries.map EnumEntry.pair := by
  induction entries generalizing fuel with
  | nil => cases fuel <;> rfl
  | cons e entries ih =>
    rw [List.flatMap_cons] at hfuel ⊢
    have hrest : ∀ d ∈ (entries.flatMap EnumEntry.text).head?, isPathChar d = false := by
      cases entries with
      | nil => rintro _ ⟨⟩
      | cons e entries => rintro _ ⟨⟩; rfl
    have hshort : e.between.length < e.text.length := by
      simp [EnumEntry.text]
      omega
    rw [List.length_append] at hfuel
    obtain ⟨fuel, rfl⟩ : ∃ n, fuel = n + 1 := Nat.exists_eq_succ_of_ne_zero (by omega)
    rw [pairsWithin_entry fuel e hrest, List.map_cons,
      pairsWithin_skip (fun d hd => (e.between_valid d hd).1) (by omega), ih (by omega)]

/-- The pairs that are read off a call are those of its entries, in order. -/
theorem pairsIn_text {lead : List Char} (hlead : ∀ d ∈ lead, d ≠ '"') (entries : List EnumEntry) :
    pairsIn (argumentsText lead entries) = entries.map EnumEntry.pair := by
  rw [pairsIn, argumentsText, pairsWithin_skip hlead (by simp), pairsWithin_text]
  simp

/-- The call in a body, up to its first argument. -/
def enumerate : List Char := "glz::enumerate(".toList

theorem splitFirst?_enumerate {a b : List Char} (ha : occursIn enumerate a = false) :
    splitFirst? enumerate (a ++ (enumerate ++ b)) = some (a, b) := by
  have hcons : enumerate = 'g' :: enumerate.tail := rfl
  have hfresh : 'g' ∉ enumerate.tail := by decide
  generalize enumerate.tail = rest at hcons hfresh
  rw [hcons] at ha ⊢
  exact splitFirst?_append_of_not_occursIn hfresh ha

theorem EnumEntry.paren_not_mem_text (e : EnumEntry) : ')' ∉ e.text := by
  have hgap : ∀ g : Gap, ')' ∉ g.text := fun g h =>
    absurd (List.all_eq_true.1 g.blank _ h) (by decide)
  have hname : ')' ∉ e.enumerator := fun h =>
    absurd (List.all_eq_true.1 e.enumerator_valid.2 _ h) (by decide)
  have hexternal : ')' ∉ e.external := fun h => (e.external_valid.2 _ h).2.1 rfl
  have hbetween : ')' ∉ e.between := fun h => (e.between_valid _ h).2 rfl
  simp [text, hgap, hname, hexternal, hbetween]

theorem arguments?_eq (cs : List Char) : arguments? cs = (splitFirst? enumerate cs).bind fun call =>
    (splitFirst? [')'] call.2).bind fun arguments => some arguments.1 := rfl

theorem arguments?_append {front lead back : List Char} {entries : List EnumEntry}
    (hfront : occursIn enumerate front = false) (hlead : ')' ∉ lead) :
    arguments? (front ++ (enumerate ++ (argumentsText lead entries ++ ')' :: back))) =
      some (argumentsText lead entries) := by
  have hcall : splitFirst? enumerate
      (front ++ (enumerate ++ (argumentsText lead entries ++ ')' :: back))) =
        some (front, argumentsText lead entries ++ ')' :: back) :=
    splitFirst?_enumerate hfront
  have hend : splitFirst? [')'] (argumentsText lead entries ++ ')' :: back) =
      some (argumentsText lead entries, back) := by
    refine splitFirst?_append_of_not_mem (p := []) fun h => ?_
    rcases List.mem_append.1 h with h | h
    · exact hlead h
    · obtain ⟨e, -, he⟩ := List.mem_flatMap.1 h
      exact e.paren_not_mem_text he
  rw [arguments?_eq, hcall, Option.bind_some, hend, Option.bind_some]

end Specialization

open RowMapping.Specialization

/-! ### Specializations with a call -/

/-- A specialization of `glz::meta` for an enum, with a call of `glz::enumerate` in its body. -/
structure EnumSpecialization (type : List Char) where
  form : Form type
  front : List Char
  lead : List Char
  entries : List EnumEntry
  back : List Char
  type_valid : IsPlain type
  path_valid : Name.IsProperPath form.head.path
  body_eq : form.body = front ++ (enumerate ++ (argumentsText lead entries ++ ')' :: back))
  front_valid : occursIn enumerate front = false
  lead_valid : ∀ d ∈ lead, d ≠ '"' ∧ d ≠ ')'

namespace EnumSpecialization

variable {type before after : List Char}

/-- The text of a specialization. -/
def text (s : EnumSpecialization type) : List Char := s.form.text

/-- The type that is specialized. -/
def name (s : EnumSpecialization type) : String := String.ofList s.form.head.name

/-- The pairs of the call, in order. -/
def pairs (s : EnumSpecialization type) : List EnumPair := s.entries.map EnumEntry.pair

/-- The pairs that a header gives for an enum are those of the first specialization. -/
theorem pairs_source (s : EnumSpecialization type)
    (h : ∀ n < before.length, ¬Reads type ((before ++ (s.text ++ after)).drop n)) :
    Specialization.pairs (before ++ (s.text ++ after)) (String.ofList type) = s.pairs := by
  have hlead : ')' ∉ s.lead := fun hmem => (s.lead_valid _ hmem).2 rfl
  rw [text] at h ⊢
  rw [Specialization.pairs, String.toList_ofList,
    firstBody?_append_form s.type_valid s.form after h, Option.bind_some, s.body_eq,
    arguments?_append s.front_valid hlead, Option.map_some, Option.getD_some,
    pairsIn_text (fun d hd => (s.lead_valid d hd).1) s.entries, pairs]

theorem occurs_source (s : EnumSpecialization type) (before after : List Char) :
    Specialization.occurs (before ++ (s.text ++ after)) (String.ofList type) = true := by
  rw [Specialization.occurs, String.toList_ofList]
  exact occursFor_append_form before s.form after

end EnumSpecialization

/-! ### Enums without pairs in the tags -/

namespace EnumMapping

/-- Filling in no pairs, or those of another member, leaves a mapping without pairs as it is. -/
theorem mem_fill {field : String} {pairs : List EnumPair} {es : List EnumMapping} {e : EnumMapping}
    (he : e ∈ es) (hnone : e.pairs = []) (hfield : field = e.field → pairs = []) :
    e ∈ fill field pairs es := by
  induction es with
  | nil => cases he
  | cons d es ih =>
    rw [fill]
    rcases List.mem_cons.1 he with rfl | he
    · split
      · next hname =>
        have hsame : { e with pairs } = e := by rw [hfield hname.symm, ← hnone]
        rw [hsame, ite_self]
        exact List.mem_cons_self
      · exact List.mem_cons_self
    · split
      · exact List.mem_cons_of_mem _ he
      · exact List.mem_cons_of_mem _ (ih he)

end EnumMapping

namespace DeclaredClass

variable {c : DeclaredClass} {m : Member} {source : List Char} {file : String}

/-- A member that is tagged as an enum, by a flag or by the block, and has no pairs behind it or in
the block.  Where members share a name, the block does not tell which of them it names. -/
def IsBareEnum (c : DeclaredClass) (m : Member) : Prop :=
  m ∈ c.members ∧ m.isJson = false ∧ m.tags.pairs = [] ∧
    (∀ g ∈ c.classEnums, g.1 = m.name → g.2 = []) ∧
    (m.tags.has .autoEnum = true ∨ c.HasDistinctNames ∧ ∃ g ∈ c.classEnums, g.1 = m.name)

instance (c : DeclaredClass) (m : Member) : Decidable (c.IsBareEnum m) :=
  inferInstanceAs (Decidable (_ ∧ _ ∧ _ ∧ _ ∧ _))

theorem mem_addClassEnum {es : List EnumMapping} {e : EnumMapping} {g : String × List EnumPair}
    (he : e ∈ es) (hnone : e.pairs = []) (hg : g.1 = e.field → g.2 = []) :
    e ∈ c.addClassEnum es g := by
  rw [addClassEnum]
  split
  · exact he
  · split
    · exact he
    · split
      · exact EnumMapping.mem_fill he hnone hg
      · exact List.mem_append_left _ he

theorem mem_foldl_addClassEnum {given : List (String × List EnumPair)} {es : List EnumMapping}
    {e : EnumMapping} (he : e ∈ es) (hnone : e.pairs = [])
    (hgiven : ∀ g ∈ given, g.1 = e.field → g.2 = []) : e ∈ given.foldl c.addClassEnum es := by
  induction given generalizing es with
  | nil => exact he
  | cons g given ih =>
    obtain ⟨hg, hgiven⟩ := List.forall_mem_cons.1 hgiven
    exact ih (mem_addClassEnum he hnone hg) hgiven

/-- A bare enum has a mapping without pairs until the header is searched. -/
theorem IsBareEnum.mem_enumDrafts (hm : c.IsBareEnum m) :
    (⟨m.name, m.valueType, [], false⟩ : EnumMapping) ∈ c.enumDrafts := by
  obtain ⟨hmem, hjson, hown, hblock, hflag | ⟨hd, hnamed⟩⟩ := hm
  · refine mem_foldl_addClassEnum (List.mem_filterMap.2 ⟨m, hmem, ?_⟩) rfl hblock
    simp [Member.enumDraft?, Member.wantsEnum, hjson, hown, hflag]
  · rw [enumDrafts_eq hd]
    refine List.mem_map.2 ⟨m, (mem_registered_iff hd).2 ⟨hmem, hjson, .inr hnamed⟩, ?_⟩
    rw [givenPairs_eq_nil_iff.2 ⟨hown, hblock⟩]

theorem IsBareEnum.enumPairs_eq (hm : c.IsBareEnum m) :
    c.enumPairs source m = Specialization.pairs source (Name.bare m.valueType) :=
  if_pos (givenPairs_eq_nil_iff.2 ⟨hm.2.2.1, hm.2.2.2.1⟩)

/-- Every mapping that tags ask for is there when the class is resolved. -/
theorem exists_enum_of_mem_enumDrafts {e : Entity} {d : EnumMapping}
    (h : c.resolve source file = .ok e) (hd : d ∈ c.enumDrafts) :
    ∃ g ∈ e.enums, EnumMapping.resolve source c.scope file d = .ok g :=
  exists_of_mem_forall₂ (mapM_eq_ok_iff.1 (attempts_of_resolve h)) hd

/-- A failure is about a mapping whose type has no pairs in the header. -/
theorem exists_draft_of_error {err : UnresolvedEnum} (h : c.resolve source file = .error err) :
    ∃ d ∈ c.enumDrafts, err = ⟨d.field, Name.qualify c.scope d.type, file⟩ ∧
      Specialization.pairs source (Name.bare d.type) = [] := by
  obtain ⟨before, d, after, hall, -, herr⟩ := mapM_eq_error_iff.1 (resolve_eq_error_iff.1 h)
  refine ⟨d, hall ▸ List.mem_append_right _ List.mem_cons_self, ?_⟩
  by_cases hpairs : d.pairs = []
  · by_cases hnone : Specialization.pairs source (Name.bare d.type) = []
    · simp only [EnumMapping.resolve, hpairs, hnone, List.isEmpty_nil, if_true,
        Except.error.injEq] at herr
      exact ⟨herr.symm, hnone⟩
    · simp [EnumMapping.resolve, hpairs, hnone] at herr
  · simp [EnumMapping.resolve, hpairs] at herr

/-! ### A header with two specializations -/

/-- A specialization for `app::Kind`. -/
def hotLines : List String :=
  ["template<>", "struct glz::meta<app::Kind> \x7b", "    static constexpr auto value =",
    "        glz::enumerate(\"hot\", Kind::Hot);", "\x7d;"]

/-- A specialization for an enum of the same name in another namespace. -/
def coldLines : List String :=
  ["template<>", "struct glz::meta<other::Kind> \x7b", "    static constexpr auto value =",
    "        glz::enumerate(\"cold\", Kind::Cold);", "\x7d;"]

/-- A specialization for `app::Kind` that is commented out. -/
def oldLines : List String :=
  ["// template<>", "// struct glz::meta<app::Kind> \x7b", "//     static constexpr auto value =",
    "//         glz::enumerate(\"cold\", Kind::Cold);", "// \x7d;"]

/-- A class with a bare enum. -/
def jobLines : List String :=
  ["namespace app \x7b", "// @relais table=jobs", "struct Job \x7b", "    Kind kind; // @relais enum",
    "\x7d;", "\x7d"]

/-- The header with these lines. -/
def ofLines (lines : List String) : List Char := lines.flatMap fun l => l.toList ++ ['\n']

theorem ofLines_append (lines more : List String) :
    ofLines (lines ++ more) = ofLines lines ++ ofLines more := List.flatMap_append

/-- Lines that are spelled out need not be decoded. -/
theorem ofLines_map (texts : List (List Char)) :
    ofLines (texts.map String.ofList) = texts.flatMap (· ++ ['\n']) := by
  simp only [ofLines, List.flatMap_map, String.toList_ofList]

/-- The bare enum. -/
def kindMember : Member := ⟨"kind", "Kind", "", 14, { flags := [.autoEnum] }⟩

/-- The class, behind two specializations. -/
def job : DeclaredClass where
  name := "Job"
  scope := "app"
  isStruct := true
  line := 13
  tags := [.table "jobs"]
  members := [kindMember]

/-- The texts of the tokens of the code. -/
def codeTexts (source : List Char) : List String :=
  ((Token.ofText source).filter fun t => !t.isComment).map Token.text

/-- The tokens of the specialization for `app::Kind`. -/
def hotTexts : List String :=
  ["struct", "glz", "::", "meta", "<", "app", "::", "Kind", ">", "\x7b", "static", "constexpr", "auto",
    "value", "=", "glz", "::", "enumerate", "(", "\"hot\"", ",", "Kind", "::", "Hot", ")", ";", "\x7d",
    ";"]

/-- Behind these lines, the code of the header specializes `glz::meta` for `app::Kind` with the text
`hot` for the enumerator `Hot`, but the bare enum gets the text `cold` for `Cold`. -/
def TakesCold (earlier : List String) : Prop :=
  hotTexts <:+: codeTexts (ofLines (earlier ++ hotLines ++ jobLines)) ∧
  job ∈ declaredClasses (ofLines (earlier ++ hotLines ++ jobLines)) ∧ job.IsBareEnum kindMember ∧
  Name.qualify job.scope kindMember.valueType = "app::Kind" ∧
  (job.resolve (ofLines (earlier ++ hotLines ++ jobLines)) "Job.h").toOption.map Entity.enums =
    some [⟨"kind", "Kind", [⟨"cold", "Cold"⟩], true⟩]

instance (earlier : List String) : Decidable (TakesCold earlier) :=
  inferInstanceAs (Decidable (_ ∧ _ ∧ _ ∧ _ ∧ _))

/-- **A bare enum may get the pairs of another enum, and those of a comment.**  In front of the
specialization for `app::Kind` there is one for `other::Kind`, or one that is commented out. -/
theorem exists_pairs_of_another : TakesCold coldLines ∧ TakesCold oldLines := by
  have hhot : ofLines hotLines = _ := ofLines_map [_, _, _, _, _]
  have hcold : ofLines coldLines = _ := ofLines_map [_, _, _, _, _]
  have hold : ofLines oldLines = _ := ofLines_map [_, _, _, _, _]
  have hjob : ofLines jobLines = _ := ofLines_map [_, _, _, _, _, _]
  constructor
  · rw [TakesCold, ofLines_append, ofLines_append, hcold, hhot, hjob]
    decide +kernel
  · rw [TakesCold, ofLines_append, ofLines_append, hold, hhot, hjob]
    decide +kernel

/-- **A bare enum has the pairs of its own specialization when that is the first one for the last
segment of its type.**  The search takes no notice of namespaces and comments, so this is needed.
With pairs in the call, no failure is about the type of the enum. -/
theorem pairs_of_first (hm : c.IsBareEnum m) {type before after : List Char}
    (s : EnumSpecialization type) (hname : s.name = Name.qualify c.scope m.valueType)
    (hfirst : ∀ n < before.length, ¬Reads type ((before ++ (s.text ++ after)).drop n))
    (file : String) :
    (∀ e, c.resolve (before ++ (s.text ++ after)) file = .ok e →
      ⟨m.name, m.valueType, s.pairs, true⟩ ∈ e.enums ∧
      (c.HasDistinctNames → ∀ g ∈ e.enums, g.field = m.name → g.pairs = s.pairs)) ∧
    (s.pairs ≠ [] → ∀ err, c.resolve (before ++ (s.text ++ after)) file = .error err →
      err.type ≠ Name.qualify c.scope m.valueType) := by
  -- whichever way the type is written, its last segment is the one that the search is for
  have hbare : ∀ t, Name.qualify c.scope t = s.name → Name.bare t = String.ofList type :=
    fun t ht => Name.bare_of_qualify s.path_valid s.type_valid (by
      rw [ht, EnumSpecialization.name, String.toList_ofList, Head.name])
  have hpairs := s.pairs_source hfirst
  have hmeta := s.occurs_source before after
  have htype := hbare m.valueType hname.symm
  refine ⟨fun e he => ⟨?_, fun hd g hg hfield => ?_⟩, fun hne err herr hsame => ?_⟩
  · obtain ⟨g, hg, hresolve⟩ := exists_enum_of_mem_enumDrafts he hm.mem_enumDrafts
    simp only [EnumMapping.resolve, htype, hpairs, hmeta, List.isEmpty_nil, if_true] at hresolve
    split at hresolve
    · cases hresolve
    · exact Except.ok.inj hresolve ▸ hg
  · rw [enums_of_resolve hd he] at hg
    obtain ⟨n, hn, rfl⟩ := List.mem_map.1 hg
    obtain rfl : n = m :=
      List.inj_on_of_nodup_map hd ((mem_registered_iff hd).1 hn).1 hm.1 hfield
    exact hm.enumPairs_eq.trans (htype ▸ hpairs)
  · obtain ⟨d, -, rfl, hnone⟩ := exists_draft_of_error herr
    rw [hbare d.type (hsame.trans hname.symm), hpairs] at hnone
    exact hne hnone

/-- The specialization for `app::Kind`, from its keyword to its semicolon. -/
def hotKind : EnumSpecialization "Kind".toList where
  form := {
    head := {
      behindKeyword := ⟨[' '], rfl⟩
      behindTemplate := ⟨[], rfl⟩
      beforePath := ⟨[], rfl⟩
      path := "app::".toList
      behindType := ⟨[], rfl⟩
      behindKeyword_ne := List.cons_ne_nil _ _
      isPath := ⟨by decide, .inr ⟨by decide, rfl⟩⟩ }
    beforeBody := ⟨[' '], rfl⟩
    body := "\n    static constexpr auto value =\n".toList ++
      "        glz::enumerate(\"hot\", Kind::Hot);\n".toList
    beforeEnd := ⟨[], rfl⟩
    body_valid := by decide +kernel }
  front := "\n    static constexpr auto value =\n        ".toList
  lead := []
  entries := [{
    external := ['h', 'o', 't']
    beforeComma := ⟨[], rfl⟩
    afterComma := ⟨[' '], rfl⟩
    enumerator := "Kind::Hot".toList
    between := []
    external_valid := by simp
    enumerator_valid := by decide
    between_valid := nofun
    between_head := nofun }]
  back := [';', '\n']
  type_valid := ⟨by decide, by decide⟩
  path_valid := ⟨by decide, .inr ⟨['a', 'p'], 'p', by decide, by decide⟩⟩
  body_eq := by decide +kernel
  front_valid := by decide +kernel
  lead_valid := nofun

/-- With the specialization for `app::Kind` in front of the one for `other::Kind`, the enum has its
own pairs. -/
theorem pairs_of_first_job :
    job ∈ declaredClasses (ofLines (hotLines ++ coldLines ++ jobLines)) ∧
    job.IsBareEnum kindMember ∧ hotKind.name = Name.qualify job.scope kindMember.valueType ∧
    ∃ e, job.resolve (ofLines (hotLines ++ coldLines ++ jobLines)) "Job.h" = .ok e ∧
      ⟨"kind", "Kind", [⟨"hot", "Hot"⟩], true⟩ ∈ e.enums := by
  have hm : job.IsBareEnum kindMember := by decide
  have hname : hotKind.name = Name.qualify job.scope kindMember.valueType := by decide +kernel
  have hmem : job ∈ declaredClasses (ofLines (hotLines ++ coldLines ++ jobLines)) := by
    have hhot : ofLines hotLines = _ := ofLines_map [_, _, _, _, _]
    have hcold : ofLines coldLines = _ := ofLines_map [_, _, _, _, _]
    have hjob : ofLines jobLines = _ := ofLines_map [_, _, _, _, _, _]
    rw [ofLines_append, ofLines_append, hhot, hcold, hjob]
    decide +kernel
  have hlines : ofLines hotLines = "template<>\n".toList ++ (hotKind.text ++ ['\n']) := by
    decide +kernel
  have hsource : ofLines (hotLines ++ coldLines ++ jobLines) =
      "template<>\n".toList ++ (hotKind.text ++ '\n' :: ofLines (coldLines ++ jobLines)) := by
    rw [List.append_assoc, ofLines_append, hlines]
    simp only [List.append_assoc, List.singleton_append]
  have hfirst : ∀ n < "template<>\n".toList.length, ¬Reads "Kind".toList
      (("template<>\n".toList ++ (hotKind.text ++ '\n' :: ofLines (coldLines ++ jobLines))).drop n) := by
    decide +kernel
  obtain ⟨hpairs, herror⟩ := pairs_of_first hm hotKind hname hfirst "Job.h"
  rw [← hsource] at hpairs herror
  refine ⟨hmem, hm, hname, ?_⟩
  cases h : job.resolve (ofLines (hotLines ++ coldLines ++ jobLines)) "Job.h" with
  | ok e => exact ⟨e, rfl, (hpairs e h).1⟩
  | error err =>
    obtain ⟨d, hd, rfl, -⟩ := exists_draft_of_error h
    have hdrafts : job.enumDrafts = [⟨"kind", "Kind", [], false⟩] := by decide
    rw [hdrafts, List.mem_singleton] at hd
    exact absurd (by rw [hd]; rfl) (herror (List.cons_ne_nil _ _) _ h)

end DeclaredClass

end RowMapping
