import RowMapping.Mapping.Metadata
import RowMapping.Proofs.EnumSpecialization
import RowMapping.Proofs.Members
import RowMapping.Proofs.SpecializationSearch
import RowMapping.Proofs.TagPairs
/-!
# The text of written metadata

The lines of a specialization that the generator writes, read as the header of a later run.  The
pairs of its call are those that were written, but for the ones without an enumerator, which the
search passes over.

* `Name.IsPlainPath`: identifiers with scope signs between them;
* `EnumPair.IsReadable`: a pair that a search takes for what it is;
* `Specialization.pairsIn_itemLines`: reading the entries of a call;
* `Mapping.below`: lines below a text;
* `Mapping.exists_enumForm`: the lines for an enum are a specialization with a call;
* `Mapping.opened_enumMeta`, `Mapping.opened_structMeta`: what heads the lines open.
-/

namespace RowMapping

open Text

/-! ### Paths of identifiers -/

namespace Name

/-- One or more words of name characters, with scope signs between them. -/
inductive IsPlainPath : List Char → Prop
  | last {s : List Char} : s ≠ [] → s.all isNamePart = true → IsPlainPath s
  | cons {s cs : List Char} : s ≠ [] → s.all isNamePart = true → IsPlainPath cs →
      IsPlainPath (s ++ (scopeSign ++ cs))

variable {cs a b s t : List Char} {scope name : String}

theorem isWord_of_isNamePart {c : Char} (h : isNamePart c = true) : isWord c = true := by
  rw [isWord, h, Bool.true_or]

theorem isPathChar_of_isNamePart {c : Char} (h : isNamePart c = true) :
    Specialization.isPathChar c = true := by
  rw [Specialization.isPathChar, isWord_of_isNamePart h, Bool.true_or]

theorem all_isWord (h : s.all isNamePart = true) : s.all isWord = true :=
  List.all_eq_true.2 fun c hc => isWord_of_isNamePart (List.all_eq_true.1 h c hc)

theorem all_isPathChar (h : s.all isNamePart = true) :
    s.all Specialization.isPathChar = true :=
  List.all_eq_true.2 fun c hc => isPathChar_of_isNamePart (List.all_eq_true.1 h c hc)

/-- A path of identifiers has a last one, and a proper path in front of it. -/
theorem IsPlainPath.exists_last (h : IsPlainPath cs) : ∃ path type,
    cs = path ++ type ∧ IsProperPath path ∧ Specialization.IsPlain type := by
  induction h with
  | @last s hne hall => exact ⟨[], s, rfl, ⟨rfl, .inl rfl⟩, hne, all_isWord hall⟩
  | @cons s cs hne hall _ ih =>
    obtain ⟨path, type, rfl, ⟨hpath, hend⟩, htype⟩ := ih
    refine ⟨s ++ (scopeSign ++ path), type, by simp, ⟨?_, .inr ?_⟩, htype⟩
    · rw [List.all_append, List.all_append, all_isPathChar hall, hpath]
      rfl
    · rcases hend with rfl | ⟨q, c, hc, rfl⟩
      · obtain ⟨init, c, rfl⟩ := (List.eq_nil_or_concat s).resolve_left hne
        have hc : isNamePart c = true := List.all_eq_true.1 hall c (by simp)
        exact ⟨init, c, isWord_of_isNamePart hc, by simp⟩
      · exact ⟨s ++ (scopeSign ++ q), c, hc, by simp⟩

theorem IsPlainPath.all_isPathChar (h : IsPlainPath cs) :
    cs.all Specialization.isPathChar = true := by
  induction h with
  | last _ hall => exact Name.all_isPathChar hall
  | cons _ hall _ ih =>
    rw [List.all_append, List.all_append, Name.all_isPathChar hall, ih]
    rfl

theorem IsPlainPath.ne_nil (h : IsPlainPath cs) : cs ≠ [] := by
  cases h with
  | last hne _ => exact hne
  | cons hne _ _ => exact List.append_ne_nil_of_left_ne_nil hne _

theorem IsPlainPath.append (ha : IsPlainPath a) (hb : IsPlainPath b) :
    IsPlainPath (a ++ (scopeSign ++ b)) := by
  induction ha with
  | last hne hall => exact .cons hne hall hb
  | cons hne hall _ ih =>
    rw [List.append_assoc, List.append_assoc]
    exact .cons hne hall ih

theorem IsPlainPath.qualify (hscope : scope = "" ∨ IsPlainPath scope.toList)
    (hname : IsPlainPath name.toList) : IsPlainPath (qualify scope name).toList := by
  rw [Name.qualify]
  split
  · exact hname
  · next hno =>
    have hpath := hscope.resolve_left fun hempty => hno (by simp [hempty])
    have hall : (scope ++ "::" ++ name).toList = scope.toList ++ (scopeSign ++ name.toList) := by
      simp [scopeSign]
    rw [hall]
    exact hpath.append hname

theorem IsProperPath.isPath (h : IsProperPath a) : Specialization.IsPath a := by
  refine ⟨h.1, h.2.imp id ?_⟩
  rintro ⟨q, c, -, rfl⟩
  simp [scopeSign]

theorem getLast?_of_isPath (h : Specialization.IsPath a) : ∀ d ∈ a.getLast?, d = ':' := by
  rcases h.2 with rfl | ⟨hlength, hend⟩
  · simp
  · intro d hd
    rw [← List.take_append_drop (a.length - 2) a, hend] at hd
    simpa [scopeSign, eq_comm] using hd

/-- What stands behind the last colon can be told from the text. -/
theorem eq_of_append_eq (hs : ':' ∉ s) (ht : ':' ∉ t) (ha : ∀ d ∈ a.getLast?, d = ':')
    (hb : ∀ d ∈ b.getLast?, d = ':') (h : a ++ s = b ++ t) : s = t := by
  have hback : ∀ {a s : List Char}, ':' ∉ s → (∀ d ∈ a.getLast?, d = ':') →
      (a ++ s).reverse.takeWhile (· != ':') = s.reverse := fun {a s} hs ha => by
    rw [List.reverse_append]
    refine takeWhile_append_of_stop (List.all_eq_true.2 fun d hd => ?_) fun d hd => ?_
    · rw [bne_iff_ne]
      rintro rfl
      exact hs (List.mem_reverse.1 hd)
    · rw [ha d (by rwa [List.head?_reverse] at hd)]
      rfl
  have hsame := congrArg (fun cs => cs.reverse.takeWhile (· != ':')) h
  simp only [hback hs ha, hback ht hb] at hsame
  exact List.reverse_injective hsame

/-- The type of a name is its last segment. -/
theorem bare_of_isNameOf (hname : IsPlainPath name.toList) (ht : Specialization.IsPlain t)
    (h : Specialization.IsNameOf t name.toList) : bare name = String.ofList t := by
  obtain ⟨path, type, heq, hpath, htype⟩ := hname.exists_last
  obtain ⟨path', hpath', heq'⟩ := h
  obtain rfl := eq_of_append_eq (colon_not_mem htype) (colon_not_mem ht)
    (getLast?_of_isPath hpath.isPath) (getLast?_of_isPath hpath') (heq.symm.trans heq')
  exact bare_of_path hpath htype heq

end Name

/-! ### Pairs that can be read off -/

namespace EnumPair

/-- A pair whose text stands in a literal as it is and ends no call and no body, and whose
enumerator is a word of name characters, perhaps empty. -/
structure IsReadable (p : EnumPair) : Prop where
  external_ne : p.external ≠ ""
  external_valid : ∀ d ∈ p.external.toList,
    d ≠ '"' ∧ d ≠ '\\' ∧ d ≠ ')' ∧ d ≠ '\x7d' ∧ 32 ≤ d.toNat
  enumerator_valid : p.enumerator.toList.all isNamePart = true

/-- The entry that is written for a pair. -/
def item (p : EnumPair) : String := s!"{quote p.external}, {p.enumerator}"

theorem quotedChar_of_plain {c : Char} (h : c ≠ '"' ∧ c ≠ '\\' ∧ 32 ≤ c.toNat) :
    quotedChar c = [c] := by
  have hcontrol : ∀ d : Char, d.toNat < 32 → c ≠ d := by
    rintro d hd rfl
    omega
  unfold quotedChar
  split
  · exact absurd rfl h.1
  · exact absurd rfl h.2.1
  all_goals first
    | exact absurd rfl (hcontrol _ (by decide))
    | exact if_neg (by omega)

theorem toList_item {p : EnumPair} (h : p.IsReadable) : p.item.toList =
    '"' :: (p.external.toList ++ '"' :: ',' :: ' ' :: p.enumerator.toList) := by
  have hquote : p.external.toList.flatMap quotedChar = p.external.toList := by
    have hall : p.external.toList.flatMap quotedChar = p.external.toList.flatMap fun d => [d] :=
      List.flatMap_congr fun d hd =>
        have hd := h.external_valid d hd
        quotedChar_of_plain ⟨hd.1, hd.2.1, hd.2.2.2.2⟩
    rw [hall, List.flatMap_singleton']
  simp [item, quote, toString, hquote]

end EnumPair

namespace Specialization

variable {cs rest skipped : List Char} {p : EnumPair} {fuel : Nat}

/-- A pair is a literal, a comma and a name, with blanks around the comma. -/
theorem exists_of_pair?_eq_some (h : pair? cs = some (p, rest)) :
    ∃ (external name : List Char) (g g' : Gap), cs = '"' :: (external ++ '"' ::
      (g.text ++ ',' :: (g'.text ++ (name ++ rest)))) ∧ '"' ∉ external ∧ name ≠ [] ∧
        name.all isPathChar = true := by
  simp only [pair?, Option.bind_eq_bind, Option.bind_eq_some_iff, Option.guard_eq_some',
    Option.pure_def, Option.some.injEq, Prod.mk.injEq] at h
  obtain ⟨a, ha, -, -, b, hb, c, hc, -, hname, -, rfl⟩ := h
  obtain rfl := isPrefixOf?_eq_some_iff.1 ha
  obtain ⟨g, rfl⟩ := (Gap.isPrefixOf?_trimStart_iff rfl).1 hc
  refine ⟨a.takeWhile (· != '"'), (trimStart c).takeWhile isPathChar, g, Gap.before c, ?_, ?_, ?_,
    List.all_takeWhile⟩
  · have hinner : a = a.takeWhile (· != '"') ++ '"' :: (g.text ++ ',' :: c) := by
      conv => lhs; rw [← List.takeWhile_append_dropWhile (p := (· != '"')) (l := a),
        isPrefixOf?_eq_some_iff.1 hb]
      rfl
    rw [List.takeWhile_append_dropWhile, Gap.before_append_trimStart]
    exact congrArg _ hinner
  · intro hmem
    simpa using List.all_eq_true.1 (List.all_takeWhile (l := a) (p := (· != '"'))) _ hmem
  · simpa using hname

theorem length_of_pair?_eq_some (h : pair? cs = some (p, rest)) : rest.length < cs.length := by
  obtain ⟨external, name, g, g', rfl, -⟩ := exists_of_pair?_eq_some h
  simp only [List.length_cons, List.length_append]
  omega

/-- As much fuel as there are characters is enough. -/
theorem pairsWithin_eq (h : cs.length ≤ fuel) : pairsWithin fuel cs = pairsIn cs := by
  rw [pairsIn]
  induction fuel using Nat.strongRecOn generalizing cs with
  | ind fuel ih =>
    cases cs with
    | nil => cases fuel <;> rfl
    | cons c cs =>
      obtain ⟨fuel, rfl⟩ : ∃ n, fuel = n + 1 := Nat.exists_eq_succ_of_ne_zero (by
        rintro rfl
        exact absurd h (Nat.not_succ_le_zero _))
      have hcs : cs.length ≤ fuel := Nat.le_of_succ_le_succ h
      rw [List.length_cons, pairsWithin, pairsWithin]
      cases hpair : pair? (c :: cs) with
      | none => exact ih fuel (Nat.lt_succ_self _) hcs
      | some found =>
        have hrest : found.2.length ≤ cs.length :=
          Nat.le_of_lt_succ (length_of_pair?_eq_some hpair)
        simp only [List.cons.injEq, true_and]
        rw [ih fuel (Nat.lt_succ_self _) (Nat.le_trans hrest hcs)]
        rcases Nat.lt_or_ge cs.length (fuel + 1) with hlt | hge
        · exact (ih cs.length hlt hrest).symm
        · omega

theorem pairsIn_skip (h : ∀ d ∈ skipped, d ≠ '"') : pairsIn (skipped ++ cs) = pairsIn cs := by
  rw [pairsIn, pairsWithin_skip h (by simp), pairsWithin_eq (by simp)]

theorem pairsIn_of_some {c : Char} (h : pair? (c :: cs) = some (p, rest)) :
    pairsIn (c :: cs) = p :: pairsIn rest := by
  have hlength := Nat.le_of_lt_succ (length_of_pair?_eq_some h)
  rw [pairsIn, List.length_cons, pairsWithin, h]
  exact congrArg _ (pairsWithin_eq hlength)

theorem pairsIn_of_none {c : Char} (h : pair? (c :: cs) = none) :
    pairsIn (c :: cs) = pairsIn cs := by
  rw [pairsIn, List.length_cons, pairsWithin, h, pairsIn]

/-- What may follow an entry: blanks to the end, or a comma, blanks and the literal of another
entry. -/
inductive Follows : List Char → Prop
  | blank {cs : List Char} : cs.all isBlank = true → Follows cs
  | entry {d : Char} (g : Gap) (cs : List Char) : isBlank d = false → d ≠ ',' →
      Follows (',' :: (g.text ++ '"' :: d :: cs))

theorem Follows.isPathChar_head (h : Follows rest) :
    ∀ d ∈ (trimStart rest).head?, isPathChar d = false := by
  cases h with
  | blank hall =>
    have hnil : trimStart (rest ++ []) = [] := Gap.trimStart_append ⟨rest, hall⟩ (by simp)
    rw [List.append_nil] at hnil
    simp [hnil]
  | entry => rintro _ ⟨⟩; rfl

theorem Follows.isPathChar_head' (h : Follows rest) : ∀ d ∈ rest.head?, isPathChar d = false := by
  cases h with
  | blank hall =>
    exact fun d hd => isPathChar_of_isBlank (List.all_eq_true.1 hall d (List.mem_of_head? hd))
  | entry => rintro _ ⟨⟩; rfl

/-- The closing quote of an entry without an enumerator starts no pair. -/
theorem Follows.pair?_quote (h : Follows rest) : pair? ('"' :: ',' :: ' ' :: rest) = none := by
  rw [Option.eq_none_iff_forall_ne_some]
  rintro ⟨p, r⟩ hpair
  obtain ⟨external, name, g, g', heq, hexternal, -⟩ := exists_of_pair?_eq_some hpair
  have heq : ',' :: ' ' :: rest = external ++ '"' :: (g.text ++ ',' :: (g'.text ++ (name ++ r))) :=
    (List.cons.inj heq).2
  cases h with
  | blank hall =>
    have hmem : '"' ∈ ',' :: ' ' :: rest := heq ▸ List.mem_append_right _ List.mem_cons_self
    have hrest : '"' ∉ rest := fun hmem => absurd (List.all_eq_true.1 hall _ hmem) (by decide)
    simp [hrest] at hmem
  | @entry d gap cs hd hcomma =>
    have hplace : (',' :: ' ' :: ',' :: gap.text) ++ '"' :: d :: cs =
        external ++ '"' :: (g.text ++ ',' :: (g'.text ++ (name ++ r))) := heq
    rcases append_cons_cases hplace with ⟨-, hbehind⟩ | ⟨w, hw, -⟩ | ⟨w, hw⟩
    · -- behind the literal a blank or a comma would have to stand
      obtain ⟨gs, hgs⟩ := g
      cases gs with
      | nil => exact hcomma (List.cons.inj hbehind).1
      | cons e gs =>
        obtain rfl : d = e := (List.cons.inj hbehind).1
        rw [List.all_eq_true.1 hgs d List.mem_cons_self] at hd
        cases hd
    · exact hexternal (hw ▸ List.mem_append_right _ List.mem_cons_self)
    · have hmem : '"' ∈ ',' :: ' ' :: ',' :: gap.text :=
        hw ▸ List.mem_append_right _ List.mem_cons_self
      simp [Gap.not_mem gap (x := '"') rfl] at hmem

/-- An entry without an enumerator is no pair. -/
theorem Follows.pair?_empty (h : Follows rest) {external : List Char} (hquote : '"' ∉ external) :
    pair? ('"' :: (external ++ '"' :: ',' :: ' ' :: rest)) = none := by
  rw [Option.eq_none_iff_forall_ne_some]
  rintro ⟨p, r⟩ hpair
  obtain ⟨external', name, g, g', heq, hexternal, hne, hname⟩ := exists_of_pair?_eq_some hpair
  rcases append_cons_cases (List.cons.inj heq).2 with ⟨-, hbehind⟩ | ⟨w, hw, -⟩ | ⟨w, hw⟩
  · have hcomma : ' ' :: rest = g'.text ++ (name ++ r) := by
      obtain ⟨gs, hgs⟩ := g
      cases gs with
      | nil => exact (List.cons.inj hbehind).2
      | cons e gs =>
        obtain rfl : ',' = e := (List.cons.inj hbehind).1
        exact absurd (List.all_eq_true.1 hgs _ List.mem_cons_self) (by decide)
    have htrim : trimStart rest = name ++ r := by
      have hspace : trimStart (' ' :: rest) = trimStart rest := rfl
      rw [← hspace, hcomma, trimStart_gap_name hne hname]
    obtain ⟨c, cs, rfl⟩ := List.exists_cons_of_ne_nil hne
    have hc := h.isPathChar_head c (by rw [htrim]; rfl)
    rw [List.all_eq_true.1 hname c List.mem_cons_self] at hc
    cases hc
  · exact hexternal (hw ▸ List.mem_append_right _ List.mem_cons_self)
  · exact hquote (hw ▸ List.mem_append_right _ List.mem_cons_self)

theorem between_nil_valid : ∀ d ∈ ([] : List Char), d ≠ '"' ∧ d ≠ ')' := List.forall_mem_nil _

theorem between_nil_head : ∀ d ∈ ([] : List Char).head?, isPathChar d = false := by simp

/-- The entry of a pair with an enumerator. -/
def EnumEntry.ofPair (p : EnumPair) (hp : p.IsReadable) (hne : p.enumerator ≠ "") : EnumEntry where
  external := p.external.toList
  beforeComma := .empty
  afterComma := .single
  enumerator := p.enumerator.toList
  between := []
  external_valid := ⟨by simpa using hp.external_ne, fun d hd =>
    have hd := hp.external_valid d hd
    ⟨hd.1, hd.2.2.1, hd.2.1⟩⟩
  enumerator_valid := ⟨by simpa using hne, Name.all_isPathChar hp.enumerator_valid⟩
  between_valid := between_nil_valid
  between_head := between_nil_head

theorem EnumEntry.text_ofPair (hp : p.IsReadable) (hne : p.enumerator ≠ "") :
    (ofPair p hp hne).text = p.item.toList := by
  rw [EnumPair.toList_item hp]
  simp [text, ofPair]

theorem EnumEntry.pair_ofPair (hp : p.IsReadable) (hne : p.enumerator ≠ "") :
    (ofPair p hp hne).pair = p := by
  have hplain : IsPlain p.enumerator.toList :=
    ⟨by simpa using hne, Name.all_isWord hp.enumerator_valid⟩
  simp [pair, ofPair, Name.bare_of_path ⟨rfl, .inl rfl⟩ hplain rfl]

/-- A written entry is read as its pair, unless it has no enumerator. -/
theorem pairsIn_item (hp : p.IsReadable) (h : Follows rest) :
    pairsIn (p.item.toList ++ rest) = [p].filter (·.enumerator ≠ "") ++ pairsIn rest := by
  have hquote : '"' ∉ p.external.toList := fun hmem => (hp.external_valid _ hmem).1 rfl
  by_cases hempty : p.enumerator = ""
  · have hskip : ∀ d ∈ [',', ' '], d ≠ '"' := by simp
    have htext : p.item.toList ++ rest =
        '"' :: (p.external.toList ++ '"' :: ',' :: ' ' :: rest) := by
      rw [EnumPair.toList_item hp, hempty]
      simp
    rw [htext, pairsIn_of_none (h.pair?_empty hquote),
      pairsIn_skip fun d hd heq => hquote (heq ▸ hd), pairsIn_of_none h.pair?_quote,
      show ',' :: ' ' :: rest = [',', ' '] ++ rest from rfl, pairsIn_skip hskip]
    simp [hempty]
  · have hread := pair?_text (EnumEntry.ofPair p hp hempty) h.isPathChar_head'
    rw [EnumEntry.pair_ofPair, EnumEntry.text_ofPair, EnumPair.toList_item hp,
      List.cons_append] at hread
    rw [EnumPair.toList_item hp, List.cons_append, pairsIn_of_some hread]
    simp [EnumEntry.ofPair, hempty]

end Specialization

/-! ### Lines -/

namespace Mapping

open RowMapping.Specialization

/-- Lines below a text. -/
def below (lines : List String) : List Char := lines.flatMap fun l => '\n' :: l.toList

@[simp] theorem below_nil : below [] = [] := rfl

@[simp] theorem below_cons (l : String) (lines : List String) :
    below (l :: lines) = '\n' :: (l.toList ++ below lines) := rfl

@[simp] theorem below_append (a b : List String) : below (a ++ b) = below a ++ below b :=
  List.flatMap_append

variable {names : List (List Char)} {ps : List EnumPair} {name : String}

/-- The lines of the entries of a call. -/
def itemLines (ps : List EnumPair) : List String := commaLines "        " (ps.map EnumPair.item)

theorem below_itemLines_cons (p q : EnumPair) (ps : List EnumPair) :
    below (itemLines (p :: q :: ps)) =
      "\n        ".toList ++ (p.item.toList ++ ',' :: below (itemLines (q :: ps))) := by
  simp [itemLines, commaLines]

theorem below_itemLines_singleton (p : EnumPair) :
    below (itemLines [p]) = "\n        ".toList ++ p.item.toList := by
  simp [itemLines, commaLines]

/-- The lines of the entries start with the literal of the first one. -/
theorem exists_below_itemLines {p : EnumPair} (hp : p.IsReadable) (hfree : p.IsUnbroken)
    (ps : List EnumPair) : ∃ d cs, isBlank d = false ∧ d ≠ ',' ∧
      below (itemLines (p :: ps)) = "\n        ".toList ++ '"' :: d :: cs := by
  obtain ⟨d, ds, hd⟩ := List.exists_cons_of_ne_nil
    (show p.external.toList ≠ [] by simpa using hp.external_ne)
  have hmem := hfree d (hd ▸ List.mem_cons_self)
  cases ps with
  | nil =>
    exact ⟨d, _, hmem.1, hmem.2, by
      rw [below_itemLines_singleton, EnumPair.toList_item hp, hd, List.cons_append]⟩
  | cons q ps =>
    exact ⟨d, _, hmem.1, hmem.2, by
      rw [below_itemLines_cons, EnumPair.toList_item hp, hd, List.cons_append, List.cons_append,
        List.cons_append]⟩

/-- **The pairs that are written in a call are read off again**, but for those without an
enumerator. -/
theorem pairsIn_itemLines (hps : ∀ p ∈ ps, p.IsReadable) (hfree : ∀ p ∈ ps, p.IsUnbroken)
    {tail : List Char} (htail : tail.all isBlank = true) :
    pairsIn (below (itemLines ps) ++ tail) = ps.filter (·.enumerator ≠ "") := by
  have hindent : ∀ d ∈ "\n        ".toList, d ≠ '"' := by simp
  have hend : pairsIn tail = [] := by
    have hskip : ∀ d ∈ tail, d ≠ '"' := by
      rintro d hd rfl
      exact absurd (List.all_eq_true.1 htail _ hd) (by decide)
    rw [← List.append_nil tail, pairsIn_skip hskip]
    rfl
  induction ps with
  | nil => exact hend
  | cons p ps ih =>
    obtain ⟨hp, hps⟩ := List.forall_mem_cons.1 hps
    obtain ⟨hfreep, hfree⟩ := List.forall_mem_cons.1 hfree
    cases ps with
    | nil =>
      rw [below_itemLines_singleton, List.append_assoc, pairsIn_skip hindent,
        pairsIn_item hp (.blank htail), hend, List.append_nil]
    | cons q ps =>
      obtain ⟨d, cs, hblank, hcomma, hnext⟩ := exists_below_itemLines
        (hps q List.mem_cons_self) (hfree q List.mem_cons_self) ps
      have hfollows : Follows (',' :: (below (itemLines (q :: ps)) ++ tail)) := by
        rw [hnext, List.append_assoc]
        exact .entry ⟨"\n        ".toList, by decide⟩ (cs ++ tail) hblank hcomma
      have hskip : ∀ d ∈ [','], d ≠ '"' := by simp
      rw [below_itemLines_cons, List.append_assoc, List.append_assoc, List.cons_append,
        pairsIn_skip hindent, pairsIn_item hp hfollows,
        show ',' :: (below (itemLines (q :: ps)) ++ tail) =
          [','] ++ (below (itemLines (q :: ps)) ++ tail) from rfl, pairsIn_skip hskip,
        ih hps hfree, ← List.filter_append, List.singleton_append]

/-! ### Specializations for enums -/

/-- A character of no entry, no indentation and no comma is in none of the lines. -/
theorem not_mem_below_commaLines {x : Char} {indent : String} {items : List String}
    (hx : x ≠ '\n' ∧ x ≠ ',') (hindent : x ∉ indent.toList) (hitems : ∀ i ∈ items, x ∉ i.toList) :
    x ∉ below (commaLines indent items) := by
  intro hmem
  obtain ⟨l, hl, hx'⟩ := List.mem_flatMap.1 hmem
  obtain ⟨item, hitem, rfl | rfl⟩ := mem_commaLines hl <;>
    simp [hx, hindent, hitems item hitem] at hx'

theorem not_mem_item {x : Char} {p : EnumPair} (hp : p.IsReadable) (hx : x = ')' ∨ x = '\x7d') :
    x ∉ p.item.toList := by
  have hexternal : x ∉ p.external.toList := fun hmem => by
    have hvalid := hp.external_valid x hmem
    rcases hx with rfl | rfl
    · exact hvalid.2.2.1 rfl
    · exact hvalid.2.2.2.1 rfl
  have henumerator : x ∉ p.enumerator.toList := fun hmem => by
    have hvalid := List.all_eq_true.1 hp.enumerator_valid x hmem
    rcases hx with rfl | rfl <;> exact absurd hvalid (by decide)
  rw [EnumPair.toList_item hp]
  rcases hx with rfl | rfl <;> simp [hexternal, henumerator]

theorem occursIn_eq_false {x : Char} {p cs : List Char} (hp : x ∈ p) (hcs : x ∉ cs) :
    occursIn p cs = false := by
  rw [occursIn, Option.isSome_eq_false_iff, Option.isNone_iff_eq_none,
    Option.eq_none_iff_forall_ne_some]
  rintro ⟨a, b⟩ hsplit
  rw [eq_of_splitFirst? hsplit] at hcs
  exact hcs (by simp [hp])

theorem untilEnd?_of_not_mem {cs : List Char} (h : '\x7d' ∉ cs) : untilEnd? cs = none := by
  rw [Option.eq_none_iff_forall_ne_some]
  intro body hbody
  obtain ⟨-, g, rest, rfl⟩ := untilEnd?_eq_some_iff.1 hbody
  exact h (by simp)

/-- The head that is written for a type with a path. -/
def writtenHead (type path : List Char) (hpath : IsPath path) : Head type where
  behindKeyword := .single
  behindTemplate := .empty
  beforePath := .empty
  path := path
  behindType := .empty
  behindKeyword_ne := Gap.text_single_ne
  isPath := hpath

/-- What stands in the body in front of the call. -/
def enumFront (name : String) : List Char :=
  '\n' :: ("    using enum ".toList ++ (name.toList ++ ';' :: '\n' ::
    "    static constexpr auto value = ".toList))

/-- The entries of the call, with the blanks around them. -/
def enumArguments (ps : List EnumPair) : List Char := below (itemLines ps) ++ '\n' :: "    ".toList

/-- The body that is written for an enum. -/
def enumBody (name : String) (ps : List EnumPair) : List Char :=
  enumFront name ++ (enumerate ++ (enumArguments ps ++ ')' :: [';', '\n']))

/-- The line in front of a head. -/
def templateLine : List Char := '\n' :: "template<>".toList

/-- A head up to its name. -/
def headStart : List Char := "struct glz::meta<".toList

theorem text_writtenHead {type path : List Char} (hpath : IsPath path) :
    (writtenHead type path hpath).text = headStart ++ (path ++ (type ++ ['>'])) := by
  have hopening : headStart = keyword ++ ' ' :: (template ++ ['<']) := rfl
  rw [hopening]
  simp [writtenHead, Head.text, Head.argument, Head.name]

theorem templateLine_eq : templateLine = '\n' :: "template<>".toList := rfl

theorem headStart_eq : headStart = "struct glz::meta<".toList := rfl

theorem below_enumMeta (name : String) (ps : List EnumPair) :
    below (enumMeta name ps) = templateLine ++ '\n' :: (headStart ++ (name.toList ++
      '>' :: ' ' :: '\x7b' :: (enumBody name ps ++ ['\x7d', ';']))) := by
  have hitems : commaLines "        " (ps.map fun p => s!"{quote p.external}, {p.enumerator}") =
      itemLines ps := rfl
  have hcall : "    static constexpr auto value = glz::enumerate(".toList =
      "    static constexpr auto value = ".toList ++ enumerate := by decide +kernel
  have hhead : "> \x7b".toList = ['>', ' ', '\x7b'] := rfl
  have husing : ";".toList = [';'] := rfl
  have hend : "    );".toList = "    ".toList ++ [')', ';'] := rfl
  have hclose : "\x7d;".toList = ['\x7d', ';'] := rfl
  simp only [enumMeta, hitems]
  simp only [below_append, below_cons, below_nil, toString, String.toList_append, templateLine_eq,
    headStart_eq, enumBody, enumFront, enumArguments, hcall, hhead, husing, hend, hclose,
    List.append_assoc, List.cons_append, List.nil_append, List.append_nil]

theorem not_mem_of_isPathChar {x : Char} {cs : List Char} (h : cs.all isPathChar = true)
    (hx : isPathChar x = false) : x ∉ cs := fun hmem => by
  rw [List.all_eq_true.1 h x hmem] at hx
  cases hx

theorem not_mem_enumFront {x : Char} (hname : name.toList.all isPathChar = true)
    (hx : x = '(' ∨ x = '\x7d') : x ∉ enumFront name := by
  have hpath : isPathChar x = false := by rcases hx with rfl | rfl <;> rfl
  have hfront : x ∉ enumFront "" := by rcases hx with rfl | rfl <;> decide
  have hname := not_mem_of_isPathChar hname hpath
  simp only [enumFront, List.mem_cons, List.mem_append, not_or] at hfront ⊢
  exact ⟨hfront.1, hfront.2.1, hname, hfront.2.2.2⟩

theorem not_mem_below_itemLines {x : Char} (hps : ∀ p ∈ ps, p.IsReadable)
    (hx : x = ')' ∨ x = '\x7d') : x ∉ below (itemLines ps) := by
  refine not_mem_below_commaLines ?_ ?_ fun i hi => ?_
  · rcases hx with rfl | rfl <;> decide
  · rcases hx with rfl | rfl <;> decide
  · obtain ⟨p, hp, rfl⟩ := List.mem_map.1 hi
    exact not_mem_item (hps p hp) hx

theorem not_mem_enumArguments {x : Char} (hps : ∀ p ∈ ps, p.IsReadable)
    (hx : x = ')' ∨ x = '\x7d') : x ∉ enumArguments ps := by
  have hback : x ∉ '\n' :: "    ".toList := by rcases hx with rfl | rfl <;> decide
  simp only [enumArguments, List.mem_append, hback, not_mem_below_itemLines hps hx, or_self,
    not_false_eq_true]

theorem untilEnd?_enumBody (hname : name.toList.all isPathChar = true)
    (hps : ∀ p ∈ ps, p.IsReadable) : untilEnd? (enumBody name ps) = none := by
  have hcall : '\x7d' ∉ enumerate := by decide
  refine untilEnd?_of_not_mem ?_
  simp [enumBody, not_mem_enumFront hname (.inr rfl), not_mem_enumArguments hps (.inr rfl), hcall]

/-- The pairs in the body that is written for an enum. -/
theorem pairs_enumBody (hname : name.toList.all isPathChar = true)
    (hps : ∀ p ∈ ps, p.IsReadable) (hfree : ∀ p ∈ ps, p.IsUnbroken) :
    (arguments? (enumBody name ps)).map pairsIn = some (ps.filter (·.enumerator ≠ "")) := by
  have hfront : occursIn enumerate (enumFront name) = false :=
    occursIn_eq_false (x := '(') (by decide) (not_mem_enumFront hname (.inl rfl))
  have hend : splitFirst? [')'] (enumArguments ps ++ ')' :: [';', '\n']) =
      some (enumArguments ps, [';', '\n']) :=
    splitFirst?_append_of_not_mem (p := []) (not_mem_enumArguments hps (.inl rfl))
  rw [arguments?_eq, enumBody, splitFirst?_enumerate hfront, Option.bind_some, hend,
    Option.bind_some, Option.map_some, enumArguments, pairsIn_itemLines hps hfree (by decide)]

/-- **The lines for an enum are a specialization from which its pairs are read.** -/
theorem exists_enumForm {path type : List Char} (hname : name.toList = path ++ type)
    (hpath : IsPath path) (ht : IsPlain type) (hps : ∀ p ∈ ps, p.IsReadable)
    (hfree : ∀ p ∈ ps, p.IsUnbroken) : ∃ f : Form type,
      below (enumMeta name ps) = templateLine ++ '\n' :: f.text ∧
        (arguments? f.body).map pairsIn = some (ps.filter (·.enumerator ≠ "")) := by
  have hall : name.toList.all isPathChar = true := by
    have hhead := (writtenHead type path hpath).all_name ht
    rwa [Head.name, writtenHead, ← hname] at hhead
  refine ⟨⟨writtenHead type path hpath, .single, enumBody name ps, .empty,
    untilEnd?_enumBody hall hps⟩, ?_, pairs_enumBody hall hps hfree⟩
  rw [below_enumMeta, Form.text, text_writtenHead, hname]
  simp

/-! ### What the lines open -/

theorem opened_templateLine (names : List (List Char)) : Opened names templateLine := by
  have hparts : templateLine = ('\n' :: "tem".toList) ++ 'p' :: "late<>".toList := rfl
  have hblank : ('p' :: "late<>".toList).any isBlank = false := by decide
  rw [hparts]
  exact (opened_of_not_mem (by decide)).append
    (opened_word (by decide) (by simpa using List.any_eq_false.1 hblank))

theorem opened_headLine (hname : name.toList.all isPathChar = true) {back : List Char}
    (hback : '<' ∉ back) :
    Opened [name.toList] ('\n' :: (headStart ++ (name.toList ++ '>' :: back))) := by
  have hline : '\n' :: (headStart ++ (name.toList ++ '>' :: back)) =
      ('\n' :: (keyword ++ ' ' :: template)) ++ '<' :: (name.toList ++ '>' :: back) := rfl
  rw [hline]
  exact opened_head (by decide) (not_mem_of_isPathChar hname rfl) hback

theorem opened_itemLine {p : EnumPair} (names : List (List Char)) (hp : p.IsReadable)
    (hfree : p.IsUnbroken) : Opened names p.item.toList := by
  have hword : ∀ d ∈ '"' :: p.external.toList, isBlank d = false :=
    List.forall_mem_cons.2 ⟨rfl, fun d hd => (hfree d hd).1⟩
  have hback : '<' ∉ '"' :: ',' :: ' ' :: p.enumerator.toList := by
    simp [not_mem_of_isPathChar (Name.all_isPathChar hp.enumerator_valid) (x := '<') (by decide)]
  rw [EnumPair.toList_item hp, ← List.cons_append]
  exact (opened_word (by decide) hword).append (opened_of_not_mem hback)

theorem opened_itemLines (names : List (List Char)) (hps : ∀ p ∈ ps, p.IsReadable)
    (hfree : ∀ p ∈ ps, p.IsUnbroken) : Opened names (below (itemLines ps)) := by
  refine Opened.flatMap fun l hl => ?_
  have hindent : Opened names ('\n' :: "        ".toList) := opened_of_not_mem (by decide)
  have hcomma : Opened names ",".toList := opened_of_not_mem (by decide)
  obtain ⟨item, hitem, hline⟩ := mem_commaLines hl
  obtain ⟨p, hp, rfl⟩ := List.mem_map.1 hitem
  have hopened := hindent.append (opened_itemLine names (hps p hp) (hfree p hp))
  rcases hline with rfl | rfl
  · rwa [String.toList_append]
  · rw [String.toList_append, String.toList_append]
    exact hopened.append hcomma

/-- The lines for an enum open a head for it, and nothing else. -/
theorem opened_enumMeta (hname : name.toList.all isPathChar = true)
    (hps : ∀ p ∈ ps, p.IsReadable) (hfree : ∀ p ∈ ps, p.IsUnbroken) :
    Opened [name.toList] (below (enumMeta name ps)) := by
  have hfront : '<' ∉ ' ' :: '\x7b' :: enumFront name := by
    have hconst : '<' ∉ ' ' :: '\x7b' :: enumFront "" := by decide +kernel
    simp only [enumFront, List.mem_cons, List.mem_append, not_or] at hconst ⊢
    exact ⟨hconst.1, hconst.2.1, hconst.2.2.1, hconst.2.2.2.1, not_mem_of_isPathChar hname rfl,
      hconst.2.2.2.2.2⟩
  have hall := (opened_templateLine _).append ((opened_headLine hname hfront).append
    ((opened_of_not_mem (show '<' ∉ enumerate by decide)).append
      ((opened_itemLines [name.toList] hps hfree).append (opened_of_not_mem
        (show '<' ∉ '\n' :: "    ".toList ++ [')', ';', '\n', '\x7d', ';'] by decide)))))
  rw [below_enumMeta, enumBody, enumArguments]
  simpa only [List.append_assoc, List.cons_append, List.nil_append] using hall

/-! ### The specialization for a class -/

theorem not_mem_quote {text : String} (h : text.toList.all isNamePart = true) :
    '<' ∉ (quote text).toList := by
  intro hmem
  simp only [quote, String.toList_ofList, List.cons_append, List.mem_cons, List.mem_append,
    List.mem_flatMap, List.not_mem_nil, or_false] at hmem
  rcases hmem with hmem | ⟨c, hc, hmem⟩ | hmem
  · exact absurd hmem (by decide)
  · have hpart := List.all_eq_true.1 h c hc
    have hcode : 32 ≤ c.toNat := by
      simp only [isNamePart, isNameStart, isAsciiLetter, isAsciiDigit, Bool.or_eq_true,
        Bool.and_eq_true, decide_eq_true_eq, beq_iff_eq] at hpart
      rcases hpart with (hpart | rfl) | hpart
      · omega
      · decide
      · omega
    have hplain : c ≠ '"' ∧ c ≠ '\\' := by
      constructor <;> rintro rfl <;> exact absurd hpart (by decide)
    rw [EnumPair.quotedChar_of_plain ⟨hplain.1, hplain.2, hcode⟩, List.mem_singleton] at hmem
    exact absurd (hmem ▸ hpart) (by decide)
  · exact absurd hmem (by decide)

/-- The lines for a class open a head for it, and nothing else. -/
theorem exists_below_structMeta {e : Entity} (h : e.hasStructMeta = false)
    (hname : e.structName.toList.all isPathChar = true)
    (hmembers : ∀ m ∈ e.members, m.name.toList.all isNamePart = true) :
    ∃ back, below (structMeta e) =
      templateLine ++ '\n' :: (headStart ++ (e.structName.toList ++ '>' :: back)) ∧ '<' ∉ back := by
  refine ⟨" \x7b".toList ++ '\n' :: ("    using T = ".toList ++ (e.structName.toList ++ (";".toList ++
    '\n' :: ("    static constexpr auto value = glz::object(".toList ++
      (below (commaLines "        " (objectEntries e)) ++
        '\n' :: ("    );".toList ++ '\n' :: "\x7d;".toList)))))), ?_, ?_⟩
  · have hhead : "> \x7b".toList = '>' :: " \x7b".toList := rfl
    simp only [structMeta, h, Bool.false_eq_true, if_false]
    simp only [below_append, below_cons, below_nil, toString, String.toList_append,
      templateLine_eq, headStart_eq, hhead, List.append_assoc, List.cons_append, List.nil_append,
      List.append_nil]
  · have hfield : ∀ i ∈ objectEntries e, '<' ∉ i.toList := by
      intro i hi
      obtain ⟨c, hc, rfl⟩ := List.mem_map.1 hi
      obtain ⟨m, hm, hcm, -⟩ := Entity.exists_mem_of_mem_columns hc
      have hpart := hcm ▸ hmembers m hm
      have hcomma : '<' ∉ ", &T::".toList := by decide
      simp only [toString, String.toList_append, List.mem_append, not_mem_quote hpart, hcomma,
        not_mem_of_isPathChar (Name.all_isPathChar hpart) (x := '<') rfl, or_self,
        not_false_eq_true]
    have hentries : '<' ∉ below (commaLines "        " (objectEntries e)) :=
      not_mem_below_commaLines (by decide) (by decide) hfield
    have hconst : '<' ∉ " \x7b".toList ++ '\n' :: ("    using T = ".toList ++ (";".toList ++
        '\n' :: ("    static constexpr auto value = glz::object(".toList ++
          '\n' :: ("    );".toList ++ '\n' :: "\x7d;".toList)))) := by decide +kernel
    simp only [List.mem_append, List.mem_cons, not_or] at hconst ⊢
    obtain ⟨h1, h2, h3, h4, h5, h6, h7⟩ := hconst
    exact ⟨h1, h2, h3, not_mem_of_isPathChar hname rfl, h4, h5, h6, hentries, h7⟩

end Mapping

end RowMapping
