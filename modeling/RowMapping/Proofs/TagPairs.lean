import Mathlib.Data.Option.Basic
import RowMapping.Declaration.Finding
import RowMapping.Entity.Resolve
/-!
# Pairs in tags

Blanks separate the words of a tag, commas the pairs in a word, and a colon the two parts of a pair.
So no pair that comes from a tag holds a blank or a comma, neither behind a member nor in a block.

* `EnumPair.IsUnbroken`: a pair without them;
* `MemberTags.isUnbroken_of_mem_foldl`, `ClassTag.isUnbroken_of_mem_ofLine`: pairs in words;
* `DeclaredClass.isUnbroken_of_mem_enumDrafts`: pairs of the mappings that tags ask for.
-/

namespace RowMapping

open Text

theorem of_mem_splitOnP {α : Type} {p : α → Bool} {cs s : List α} (h : s ∈ cs.splitOnP p) :
    ∀ d ∈ s, d ∈ cs ∧ p d = false := by
  induction cs generalizing s with
  | nil =>
    rw [List.splitOnP_nil, List.mem_singleton] at h
    rw [h]
    exact List.forall_mem_nil _
  | cons c cs ih =>
    rw [List.splitOnP_cons_eq_if_modifyHead] at h
    have hlater : s ∈ cs.splitOnP p → ∀ d ∈ s, d ∈ c :: cs ∧ p d = false := fun hs d hd =>
      (ih hs d hd).imp_left (List.mem_cons_of_mem c)
    split at h
    · rcases List.mem_cons.1 h with rfl | h
      · exact List.forall_mem_nil _
      · exact hlater h
    · next hc =>
      cases hsplit : cs.splitOnP p with
      | nil => exact absurd hsplit (List.splitOnP_ne_nil p cs)
      | cons first rest =>
        rw [hsplit, List.modifyHead_cons] at h
        rcases List.mem_cons.1 h with rfl | h
        · refine List.forall_mem_cons.2 ⟨⟨List.mem_cons_self, Bool.eq_false_iff.2 hc⟩, ?_⟩
          exact fun d hd => (ih (hsplit ▸ List.mem_cons_self) d hd).imp_left (List.mem_cons_of_mem c)
        · exact hlater (hsplit ▸ List.mem_cons_of_mem first h)

/-- The text is a word, or a part of one. -/
def IsUnbrokenText (cs : List Char) : Prop := ∀ d ∈ cs, isBlank d = false

theorem isUnbrokenText_of_mem_words {cs w : List Char} (h : w ∈ words cs) : IsUnbrokenText w :=
  fun d hd => (of_mem_splitOnP (List.mem_filter.1 h).1 d hd).2

theorem IsUnbrokenText.value? {key : String} {w text : List Char} (h : IsUnbrokenText w)
    (htext : ClassTag.value? key w = some text) : IsUnbrokenText text := by
  intro d hd
  rw [ClassTag.value?, isPrefixOf?_eq_some_iff] at htext
  exact h d (htext ▸ List.mem_append_right _ hd)

/-- A pair whose text holds neither a blank nor a comma. -/
def EnumPair.IsUnbroken (p : EnumPair) : Prop :=
  ∀ d ∈ p.external.toList, isBlank d = false ∧ d ≠ ','

theorem EnumPair.isUnbroken_of_mem_listOf {text : List Char} (h : IsUnbrokenText text)
    {p : EnumPair} (hp : p ∈ listOf text) : p.IsUnbroken := by
  obtain ⟨fragment, hfragment, hpair⟩ := List.mem_filterMap.1 hp
  intro d hd
  unfold ofFragment? at hpair
  split at hpair
  · next external enumerator hsplit =>
    cases hpair
    rw [String.toList_ofList] at hd
    have hmem : d ∈ fragment :=
      (of_mem_splitOnP (hsplit ▸ List.mem_cons_self : external ∈ fragment.splitOn ':') d hd).1
    obtain ⟨htext, hcomma⟩ := of_mem_splitOnP hfragment d hmem
    exact ⟨h d htext, by simpa using hcomma⟩
  · cases hpair

namespace MemberTags

theorem value?_of_ofText {w text : List Char} (h : Word.ofText w = .pairs text) :
    ClassTag.value? "enum" w = some text := by
  unfold Word.ofText at h
  simp only at h
  split at h
  · next hvalue => cases h; exact hvalue
  · split at h
    · cases h
    · split at h
      · cases h
      · split at h <;> cases h

theorem isUnbroken_of_mem_foldl {field : String} {ws : List (List Char)}
    (hws : ∀ w ∈ ws, IsUnbrokenText w) {tags : MemberTags} (htags : ∀ p ∈ tags.pairs, p.IsUnbroken) :
    ∀ p ∈ ((ws.map Word.ofText).foldl (add field) tags).pairs, p.IsUnbroken := by
  induction ws generalizing tags with
  | nil => exact htags
  | cons w ws ih =>
    obtain ⟨hw, hws⟩ := List.forall_mem_cons.1 hws
    rw [List.map_cons, List.foldl_cons]
    refine ih hws ?_
    cases hword : Word.ofText w with
    | pairs text =>
      intro p hp
      rcases List.mem_append.1 hp with hp | hp
      · exact htags p hp
      · exact EnumPair.isUnbroken_of_mem_listOf (hw.value? (value?_of_ofText hword)) hp
    | flag flag =>
      rw [add]
      split <;> exact htags
    | column name => exact htags
    | filter tag => exact htags
    | sort tag => exact htags

end MemberTags

theorem Member.isUnbroken_of_ofCode? {source : List Char} {code : List Token}
    {trailing : Option Token} {m : Member} (h : Member.ofCode? source code trailing = some m) :
    ∀ p ∈ m.tags.pairs, p.IsUnbroken := by
  unfold Member.ofCode? at h
  simp only [Option.bind_eq_bind, Option.bind_eq_some_iff] at h
  obtain ⟨_, _, _, _, _, _, ⟨declarator, initial⟩, _, name, _, _, _, _, _, h⟩ := h
  cases h
  cases Declaration.tagText? trailing with
  | none => exact List.forall_mem_nil _
  | some text =>
    exact MemberTags.isUnbroken_of_mem_foldl (fun w hw => isUnbrokenText_of_mem_words hw)
      (List.forall_mem_nil _)

theorem ClassTag.isUnbroken_of_mem_ofLine {isList : Bool} {line : List Char} {field : String}
    {pairs : List EnumPair} (h : .enumeration field pairs ∈ ofLine isList line) :
    ∀ p ∈ pairs, p.IsUnbroken := by
  obtain ⟨w, hw, hword⟩ := List.mem_map.1 h
  have hbroken := isUnbrokenText_of_mem_words hw
  cases isList with
  | true =>
    rw [if_pos rfl] at hword
    unfold ofListWord at hword
    split at hword
    · cases hword
    · split at hword <;> cases hword
  | false =>
    rw [if_neg Bool.false_ne_true] at hword
    unfold ofWord at hword
    split at hword
    · cases hword
    · split at hword
      · cases hword
      · split at hword
        · cases hword
        · split at hword
          · next mapping hmapping =>
            cases hword
            intro p hp
            unfold EnumPair.ofClassTag EnumPair.pairsOfClassTag? at hp
            simp only at hp
            split at hp
            · cases hp
            · next c text htext =>
              have htail : IsUnbrokenText text := fun d hd =>
                hbroken.value? hmapping d ((List.dropWhile_suffix _).subset
                  (htext ▸ List.mem_cons_of_mem c hd))
              exact EnumPair.isUnbroken_of_mem_listOf htail hp
          · cases hword

namespace DeclaredClass

variable {c : DeclaredClass} {origin : List Char}

theorem isUnbroken_of_mem_members (hc : c ∈ declaredClasses origin) {m : Member}
    (hm : m ∈ c.members) : ∀ p ∈ m.tags.pairs, p.IsUnbroken := by
  obtain ⟨site, -, rfl⟩ := List.mem_map.1 hc
  obtain ⟨s, -, hmember⟩ := List.mem_filterMap.1 hm
  exact Member.isUnbroken_of_ofCode? hmember

theorem isUnbroken_of_mem_classEnums (hc : c ∈ declaredClasses origin)
    {g : String × List EnumPair} (hg : g ∈ c.classEnums) : ∀ p ∈ g.2, p.IsUnbroken := by
  obtain ⟨site, -, rfl⟩ := List.mem_map.1 hc
  obtain ⟨tag, htag, hgiven⟩ := List.mem_filterMap.1 hg
  obtain ⟨line, -, htag⟩ := List.mem_flatMap.1 htag
  cases tag with
  | enumeration field pairs =>
    cases hgiven
    exact ClassTag.isUnbroken_of_mem_ofLine htag
  | _ => cases hgiven

theorem isUnbroken_of_mem_fill {field : String} {pairs : List EnumPair} {es : List EnumMapping}
    (hpairs : ∀ p ∈ pairs, p.IsUnbroken) (hes : ∀ e ∈ es, ∀ p ∈ e.pairs, p.IsUnbroken) :
    ∀ e ∈ EnumMapping.fill field pairs es, ∀ p ∈ e.pairs, p.IsUnbroken := by
  induction es with
  | nil => exact List.forall_mem_nil _
  | cons d es ih =>
    obtain ⟨hd, hes⟩ := List.forall_mem_cons.1 hes
    rw [EnumMapping.fill]
    split
    · refine List.forall_mem_cons.2 ⟨?_, hes⟩
      split
      · exact hpairs
      · exact hd
    · exact List.forall_mem_cons.2 ⟨hd, ih hes⟩

theorem isUnbroken_of_mem_foldl {given : List (String × List EnumPair)} {es : List EnumMapping}
    (hgiven : ∀ g ∈ given, ∀ p ∈ g.2, p.IsUnbroken)
    (hes : ∀ e ∈ es, ∀ p ∈ e.pairs, p.IsUnbroken) :
    ∀ e ∈ given.foldl c.addClassEnum es, ∀ p ∈ e.pairs, p.IsUnbroken := by
  induction given generalizing es with
  | nil => exact hes
  | cons g given ih =>
    obtain ⟨hg, hgiven⟩ := List.forall_mem_cons.1 hgiven
    rw [List.foldl_cons]
    refine ih hgiven ?_
    rw [addClassEnum]
    split
    · exact hes
    · split
      · exact hes
      · split
        · exact isUnbroken_of_mem_fill hg hes
        · intro e he
          rcases List.mem_append.1 he with he | he
          · exact hes e he
          · rw [List.mem_singleton.1 he]
            exact hg

/-- **No pair from a tag holds a blank or a comma.** -/
theorem isUnbroken_of_mem_enumDrafts (hc : c ∈ declaredClasses origin) {d : EnumMapping}
    (hd : d ∈ c.enumDrafts) : ∀ p ∈ d.pairs, p.IsUnbroken := by
  refine isUnbroken_of_mem_foldl (fun g hg => isUnbroken_of_mem_classEnums hc hg)
    (fun e he => ?_) d hd
  obtain ⟨m, hm, hdraft⟩ := List.mem_filterMap.1 he
  rw [Member.enumDraft?] at hdraft
  split at hdraft
  · cases hdraft
    exact isUnbroken_of_mem_members hc hm
  · cases hdraft

end DeclaredClass

end RowMapping
