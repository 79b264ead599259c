import Mathlib.Data.Option.Basic
import RowMapping.Entity.Specialization
import RowMapping.Proofs.Lexing
/-!
# What reads as a specialization

A specialization is searched in the text of a header, comments and literals included.  Its head is
`struct glz::meta<path::Type>`, with blanks in five places; its body ends with the first closing
brace that a semicolon follows.

* `Gap`, `Head`, `Form`: blanks, a head, and a specialization with its body, with their `text`;
* `mem_headRests_iff`, `body?_eq_some_iff`: the search accepts these texts and no others;
* `Reads`: a specialization for a type starts a text;
* `firstBody?_append_form`: the body that is found is the one of the first specialization.
-/

namespace RowMapping

open Text

/-! ### Gaps -/

/-- A run of blanks, perhaps empty. -/
structure Gap where
  text : List Char
  blank : text.all isBlank = true

namespace Gap

variable {cs rest rest' : List Char} {c : Char}

theorem all_isBlank_nil : ([] : List Char).all isBlank = true := rfl

theorem all_isBlank_space : [' '].all isBlank = true := rfl

/-- No blanks at all. -/
def empty : Gap := ⟨[], all_isBlank_nil⟩

/-- A single space. -/
def single : Gap := ⟨[' '], all_isBlank_space⟩

@[simp] theorem text_empty : empty.text = [] := rfl

@[simp] theorem text_single : single.text = [' '] := rfl

theorem text_single_ne : single.text ≠ [] := List.cons_ne_nil _ _

/-- The blanks in front of a text. -/
def before (cs : List Char) : Gap := ⟨cs.takeWhile isBlank, List.all_takeWhile⟩

theorem before_append_trimStart (cs : List Char) : (before cs).text ++ trimStart cs = cs :=
  List.takeWhile_append_dropWhile

theorem trimStart_append (g : Gap) (h : ∀ d ∈ rest.head?, isBlank d = false) :
    trimStart (g.text ++ rest) = rest :=
  dropWhile_append_of_stop g.blank h

/-- A beginning behind the blanks in front. -/
theorem isPrefixOf?_trimStart_iff {p : List Char} (hp : p.head?.map isBlank = some false) :
    p.isPrefixOf? (trimStart cs) = some rest ↔ ∃ g : Gap, cs = g.text ++ (p ++ rest) := by
  rw [isPrefixOf?_eq_some_iff]
  constructor
  · intro h
    exact ⟨before cs, by rw [← h, before_append_trimStart]⟩
  · rintro ⟨g, rfl⟩
    refine g.trimStart_append ?_
    cases p with
    | nil => cases hp
    | cons c p => simpa using hp

theorem trimStart_eq_cons_iff {c : Char} (hc : isBlank c = false) :
    trimStart cs = c :: rest ↔ ∃ g : Gap, cs = g.text ++ c :: rest :=
  (isPrefixOf?_eq_some_iff (p := [c])).symm.trans
    (isPrefixOf?_trimStart_iff (p := [c]) (congrArg some hc))

/-- Behind a word, a text that starts with a blank has a gap. -/
theorem isBlank_head_iff {g : Gap} {p : List Char} (hp : p.head?.map isBlank = some false) :
    ((g.text ++ (p ++ rest)).head?.map isBlank).getD false = true ↔ g.text ≠ [] := by
  obtain ⟨cs, hcs⟩ := g
  cases cs with
  | nil =>
    cases p with
    | nil => cases hp
    | cons c p => simpa using hp
  | cons d cs => simpa using (List.all_eq_true.1 hcs) d List.mem_cons_self

end Gap

namespace Specialization

variable {type cs r r' rest body : List Char}

/-! ### Heads -/

/-- A qualifying path: nothing, or characters of a qualified name with a scope sign behind them. -/
def IsPath (p : List Char) : Prop :=
  p.all isPathChar = true ∧ (p = [] ∨ 3 ≤ p.length ∧ p.drop (p.length - 2) = Name.scopeSign)

/-- The keyword in front of a head. -/
def keyword : List Char := "struct".toList

/-- The template that is specialized. -/
def template : List Char := "glz::meta".toList

/-- The head `struct glz::meta<path::type>`. -/
structure Head (type : List Char) where
  behindKeyword : Gap
  behindTemplate : Gap
  beforePath : Gap
  path : List Char
  behindType : Gap
  behindKeyword_ne : behindKeyword.text ≠ []
  isPath : IsPath path

/-- The qualified name in a head. -/
def Head.name (h : Head type) : List Char := h.path ++ type

/-- The head from the qualified name on. -/
def Head.argument (h : Head type) : List Char := h.name ++ (h.behindType.text ++ ['>'])

/-- The text of a head. -/
def Head.text (h : Head type) : List Char :=
  keyword ++ (h.behindKeyword.text ++ (template ++ (h.behindTemplate.text ++
    '<' :: (h.beforePath.text ++ h.argument))))

theorem opening?_eq_some_iff : opening? cs = some rest ↔ ∃ g g' : Gap, g.text ≠ [] ∧
    cs = keyword ++ (g.text ++ (template ++ (g'.text ++ '<' :: rest))) := by
  have htemplate : template.head?.map isBlank = some false := rfl
  simp only [opening?, Option.bind_eq_bind, Option.bind_eq_some_iff, Option.guard_eq_some']
  constructor
  · rintro ⟨a, ha, -, hblank, b, hb, hrest⟩
    obtain ⟨g, rfl⟩ := (Gap.isPrefixOf?_trimStart_iff htemplate).1 hb
    obtain ⟨g', rfl⟩ := (Gap.isPrefixOf?_trimStart_iff rfl).1 hrest
    exact ⟨g, g', (Gap.isBlank_head_iff htemplate).1 hblank, isPrefixOf?_eq_some_iff.1 ha⟩
  · rintro ⟨g, g', hg, rfl⟩
    exact ⟨_, isPrefixOf?_append _ _, (), (Gap.isBlank_head_iff htemplate).2 hg, _,
      (Gap.isPrefixOf?_trimStart_iff htemplate).2 ⟨g, rfl⟩,
      (Gap.isPrefixOf?_trimStart_iff rfl).2 ⟨g', rfl⟩⟩

/-- A beginning of a text lies within the run in front when all of it has the property of the
run. -/
theorem le_length_takeWhile_iff {p : Char → Bool} {n : Nat} (hn : n ≤ cs.length) :
    n ≤ (cs.takeWhile p).length ↔ (cs.take n).all p = true := by
  induction cs generalizing n with
  | nil => simp_all
  | cons c cs ih =>
    cases n with
    | zero => simp
    | succ n =>
      have htail := ih (Nat.le_of_succ_le_succ hn)
      cases hc : p c <;> simp_all

theorem take_takeWhile {p : Char → Bool} {n : Nat} (hn : n ≤ (cs.takeWhile p).length) :
    (cs.takeWhile p).take n = cs.take n := by
  obtain ⟨rest, hrest⟩ := List.takeWhile_prefix (l := cs) p
  conv => rhs; rw [← hrest]
  rw [List.take_append_of_le_length hn]

theorem mem_afterBlanks_iff : r ∈ afterBlanks cs ↔ ∃ g : Gap, cs = g.text ++ r := by
  simp only [afterBlanks, List.mem_map, List.mem_reverse, List.mem_range, Nat.lt_succ_iff]
  constructor
  · rintro ⟨n, hn, rfl⟩
    have hlength := Nat.le_trans hn (List.takeWhile_prefix _).length_le
    exact ⟨⟨cs.take n, (le_length_takeWhile_iff hlength).1 hn⟩, (List.take_append_drop n cs).symm⟩
  · rintro ⟨g, rfl⟩
    refine ⟨g.text.length, ?_, List.drop_left⟩
    rw [List.takeWhile_append_of_pos (List.all_eq_true.1 g.blank), List.length_append]
    exact Nat.le_add_right _ _

theorem mem_pathLengths_iff {n : Nat} :
    n ∈ pathLengths cs ↔ n ≤ cs.length ∧ IsPath (cs.take n) := by
  simp only [pathLengths, List.mem_filter, List.mem_reverse, List.mem_range, Nat.lt_succ_iff,
    Bool.or_eq_true, Bool.and_eq_true, beq_iff_eq, decide_eq_true_eq]
  constructor
  · rintro ⟨hn, hpath⟩
    have hlength := Nat.le_trans hn (List.takeWhile_prefix _).length_le
    rw [take_takeWhile hn] at hpath
    refine ⟨hlength, (le_length_takeWhile_iff hlength).1 hn, ?_⟩
    rw [List.length_take_of_le hlength]
    refine hpath.imp ?_ id
    rintro rfl
    rfl
  · rintro ⟨hlength, hall, hpath⟩
    have hn := (le_length_takeWhile_iff hlength).2 hall
    rw [List.length_take_of_le hlength] at hpath
    rw [take_takeWhile hn]
    refine ⟨hn, hpath.imp (fun h => ?_) id⟩
    rw [← List.length_take_of_le hlength, h, List.length_nil]

theorem mem_argumentRests_iff : r ∈ argumentRests type cs ↔
    ∃ (p : List Char) (g : Gap), IsPath p ∧ cs = p ++ (type ++ (g.text ++ '>' :: r)) := by
  simp only [argumentRests, List.mem_filterMap, Option.bind_eq_some_iff]
  constructor
  · rintro ⟨n, hn, a, ha, hr⟩
    obtain ⟨-, hpath⟩ := mem_pathLengths_iff.1 hn
    obtain ⟨g, rfl⟩ := (Gap.isPrefixOf?_trimStart_iff rfl).1 hr
    exact ⟨cs.take n, g, hpath, by
      rw [← List.singleton_append, ← isPrefixOf?_eq_some_iff.1 ha, List.take_append_drop]⟩
  · rintro ⟨p, g, hpath, rfl⟩
    refine ⟨p.length, mem_pathLengths_iff.2 ⟨?_, ?_⟩, g.text ++ '>' :: r, ?_, ?_⟩
    · rw [List.length_append]
      exact Nat.le_add_right _ _
    · rwa [List.take_left]
    · rw [List.drop_left]
      exact isPrefixOf?_append _ _
    · exact (Gap.isPrefixOf?_trimStart_iff rfl).2 ⟨g, rfl⟩

theorem opening?_head (h : Head type) (r : List Char) :
    opening? (h.text ++ r) = some (h.beforePath.text ++ (h.argument ++ r)) :=
  opening?_eq_some_iff.2 ⟨h.behindKeyword, h.behindTemplate, h.behindKeyword_ne,
    by simp [Head.text]⟩

/-- The texts behind a head are what the heads leave of a text. -/
theorem mem_headRests_iff : r ∈ headRests type cs ↔ ∃ h : Head type, cs = h.text ++ r := by
  constructor
  · intro hr
    rw [headRests] at hr
    cases hopening : opening? cs with
    | none =>
      rw [hopening] at hr
      cases hr
    | some rest =>
      rw [hopening] at hr
      obtain ⟨a, ha, hbehind⟩ := List.mem_flatMap.1 hr
      obtain ⟨g, g', hg, rfl⟩ := opening?_eq_some_iff.1 hopening
      obtain ⟨before, rfl⟩ := mem_afterBlanks_iff.1 ha
      obtain ⟨p, behind, hp, rfl⟩ := mem_argumentRests_iff.1 hbehind
      exact ⟨⟨g, g', before, p, behind, hg, hp⟩, by simp [Head.text, Head.argument, Head.name]⟩
  · rintro ⟨h, rfl⟩
    rw [headRests, opening?_head]
    exact List.mem_flatMap.2 ⟨_, mem_afterBlanks_iff.2 ⟨h.beforePath, rfl⟩,
      mem_argumentRests_iff.2 ⟨h.path, h.behindType, h.isPath, by simp [Head.argument, Head.name]⟩⟩

/-! ### Bodies -/

/-- The end of a body is one for every text behind a brace, too. -/
theorem head?_trimStart_brace (cs rest : List Char) :
    (trimStart (cs ++ '\x7d' :: rest)).head? = some ';' ↔ (trimStart cs).head? = some ';' := by
  rw [trimStart, trimStart, List.dropWhile_append]
  cases h : cs.dropWhile isBlank <;> simp [show isBlank '\x7d' = false from rfl]

theorem untilEnd?_cons_eq_none_iff {c : Char} : untilEnd? (c :: cs) = none ↔
    ¬(c = '\x7d' ∧ (trimStart cs).head? = some ';') ∧ untilEnd? cs = none := by
  rw [untilEnd?]
  split <;> simp_all

/-- A body goes up to the first brace behind which a semicolon stands. -/
theorem untilEnd?_eq_some_iff : untilEnd? cs = some body ↔ untilEnd? body = none ∧
    ∃ (g : Gap) (rest : List Char), cs = body ++ '\x7d' :: (g.text ++ ';' :: rest) := by
  induction cs generalizing body with
  | nil => simp [untilEnd?]
  | cons c cs ih =>
    have hhead : (trimStart cs).head? = some ';' ↔
        ∃ (g : Gap) (rest : List Char), cs = g.text ++ ';' :: rest := by
      rw [List.head?_eq_some_iff, exists_comm]
      exact exists_congr fun rest => Gap.trimStart_eq_cons_iff rfl
    rw [untilEnd?]
    split
    · next hend =>
      rw [Bool.and_eq_true, decide_eq_true_eq, decide_eq_true_eq] at hend
      obtain ⟨rfl, hend⟩ := hend
      constructor
      · intro h
        cases h
        obtain ⟨g, rest, hcs⟩ := hhead.1 hend
        exact ⟨rfl, g, rest, congrArg _ hcs⟩
      · rintro ⟨hbody, g, rest, hcs⟩
        cases body with
        | nil => rfl
        | cons d body =>
          cases hcs
          exact absurd ⟨rfl, (head?_trimStart_brace _ _).1 hend⟩
            (untilEnd?_cons_eq_none_iff.1 hbody).1
    · next hend =>
      rw [Bool.and_eq_true, decide_eq_true_eq, decide_eq_true_eq] at hend
      rw [Option.map_eq_some_iff]
      constructor
      · rintro ⟨b, hb, rfl⟩
        obtain ⟨hopen, g, rest, rfl⟩ := ih.1 hb
        refine ⟨untilEnd?_cons_eq_none_iff.2 ⟨fun h => hend ?_, hopen⟩, g, rest, rfl⟩
        exact ⟨h.1, (head?_trimStart_brace _ _).2 h.2⟩
      · rintro ⟨hbody, g, rest, hcs⟩
        cases body with
        | nil =>
          cases hcs
          exact absurd ⟨rfl, hhead.2 ⟨g, rest, rfl⟩⟩ hend
        | cons d body =>
          cases hcs
          exact ⟨body, ih.2 ⟨(untilEnd?_cons_eq_none_iff.1 hbody).2, g, rest, rfl⟩, rfl⟩

theorem body?_eq_some_iff : body? cs = some body ↔ untilEnd? body = none ∧
    ∃ (g g' : Gap) (rest : List Char),
      cs = g.text ++ '\x7b' :: (body ++ '\x7d' :: (g'.text ++ ';' :: rest)) := by
  constructor
  · intro h
    rw [body?] at h
    split at h
    · next rest hrest =>
      obtain ⟨g, rfl⟩ := (Gap.trimStart_eq_cons_iff rfl).1 hrest
      obtain ⟨hbody, g', rest', rfl⟩ := untilEnd?_eq_some_iff.1 h
      exact ⟨hbody, g, g', rest', rfl⟩
    · cases h
  · rintro ⟨hbody, g, g', rest, hcs⟩
    rw [body?, (Gap.trimStart_eq_cons_iff rfl).2 ⟨g, hcs⟩]
    exact untilEnd?_eq_some_iff.2 ⟨hbody, g', rest, rfl⟩

/-- A specialization with a body, up to the semicolon. -/
structure Form (type : List Char) where
  head : Head type
  beforeBody : Gap
  body : List Char
  beforeEnd : Gap
  body_valid : untilEnd? body = none

/-- The text of a specialization. -/
def Form.text (f : Form type) : List Char :=
  f.head.text ++ (f.beforeBody.text ++ '\x7b' :: (f.body ++ '\x7d' :: (f.beforeEnd.text ++ [';'])))

/-- A specialization for `type` starts a text. -/
def Reads (type cs : List Char) : Prop := ∃ f : Form type, f.text <+: cs

/-- Behind some head, the body of a specialization is read exactly where one starts. -/
theorem isSome_findSome?_body? :
    ((headRests type cs).findSome? body?).isSome = true ↔ Reads type cs := by
  rw [List.findSome?_isSome_iff]
  constructor
  · rintro ⟨r, hr, hbody⟩
    obtain ⟨h, rfl⟩ := mem_headRests_iff.1 hr
    obtain ⟨body, hbody⟩ := Option.isSome_iff_exists.1 hbody
    obtain ⟨hopen, g, g', rest, rfl⟩ := body?_eq_some_iff.1 hbody
    exact ⟨⟨h, g, body, g', hopen⟩, rest, by simp [Form.text]⟩
  · rintro ⟨f, rest, rfl⟩
    refine ⟨_, mem_headRests_iff.2 ⟨f.head, by rw [Form.text, List.append_assoc]⟩, ?_⟩
    rw [body?_eq_some_iff.2 ⟨f.body_valid, f.beforeBody, f.beforeEnd, rest, by simp⟩]
    rfl

instance (type cs : List Char) : Decidable (Reads type cs) :=
  decidable_of_iff _ isSome_findSome?_body?

/-! ### The first specialization -/

/-- The code points of the blanks. -/
def blankCodes : List Nat :=
  List.range' 9 5 ++ [0x20, 0x85, 0xA0, 0x1680] ++ List.range' 0x2000 11 ++
    [0x2028, 0x2029, 0x202F, 0x205F, 0x3000]

theorem isPathChar_of_isBlank {c : Char} (h : isBlank c = true) : isPathChar c = false := by
  have hcode : c.toNat ∈ blankCodes := by
    simp only [isBlank, Bool.or_eq_true, Bool.and_eq_true, decide_eq_true_eq, beq_iff_eq] at h
    simp only [blankCodes, List.mem_append, List.mem_range'_1, List.mem_cons, List.not_mem_nil]
    omega
  have hall : ∀ n ∈ blankCodes, isPathChar (Char.ofNat n) = false := by decide +kernel
  simpa using hall _ hcode

/-- Blanks in front of a qualified name are all that is skipped. -/
theorem trimStart_gap_name {name : List Char} (hne : name ≠ []) (hall : name.all isPathChar = true)
    (g : Gap) (rest : List Char) : trimStart (g.text ++ (name ++ rest)) = name ++ rest := by
  refine g.trimStart_append fun d hd => ?_
  obtain ⟨c, cs, rfl⟩ := List.exists_cons_of_ne_nil hne
  obtain rfl : c = d := Option.some.inj hd
  have hc : isPathChar c = true := List.all_eq_true.1 hall c List.mem_cons_self
  by_contra hblank
  rw [isPathChar_of_isBlank (Bool.not_eq_false _ ▸ hblank)] at hc
  cases hc

/-- The name of an enum without path: word characters. -/
def IsPlain (type : List Char) : Prop := type ≠ [] ∧ type.all isWord = true

theorem Head.all_name (ht : IsPlain type) (h : Head type) : h.name.all isPathChar = true := by
  rw [Head.name, List.all_append, h.isPath.1, Bool.true_and]
  refine List.all_eq_true.2 fun c hc => ?_
  rw [isPathChar, List.all_eq_true.1 ht.2 c hc, Bool.true_or]

/-- A head for a plain type ends in one place. -/
theorem Head.eq_of_text_append (ht : IsPlain type) {h h' : Head type}
    (heq : h.text ++ r = h'.text ++ r') : r = r' := by
  -- both heads are taken off by the same functions: up to `<`, the blanks, the path, the blanks
  have hname : ∀ (h : Head type) (r : List Char),
      trimStart (h.beforePath.text ++ (h.argument ++ r)) = h.argument ++ r := fun h r => by
    rw [Head.argument, List.append_assoc]
    exact trimStart_gap_name (List.append_ne_nil_of_right_ne_nil _ ht.1) (h.all_name ht) _ _
  have hbehind : ∀ (h : Head type) (r : List Char),
      (h.argument ++ r).dropWhile isPathChar = h.behindType.text ++ '>' :: r := fun h r => by
    rw [Head.argument, List.append_assoc, List.append_assoc]
    refine dropWhile_append_of_stop (h.all_name ht) ?_
    obtain ⟨cs, hcs⟩ := h.behindType
    cases cs with
    | nil => rintro _ ⟨⟩; rfl
    | cons c cs =>
      rintro _ ⟨⟩
      exact isPathChar_of_isBlank (List.all_eq_true.1 hcs c List.mem_cons_self)
  have hend : ∀ (h : Head type) (r : List Char),
      trimStart (h.behindType.text ++ '>' :: r) = '>' :: r := fun h r =>
    (Gap.trimStart_eq_cons_iff rfl).2 ⟨h.behindType, rfl⟩
  have hopening := congrArg opening? heq
  rw [opening?_head, opening?_head, Option.some.injEq] at hopening
  have hargument := congrArg trimStart hopening
  rw [hname, hname] at hargument
  have hrest := congrArg (fun cs => trimStart (cs.dropWhile isPathChar)) hargument
  simp only [hbehind, hend] at hrest
  exact (List.cons.inj hrest).2

theorem Form.text_append (f : Form type) (after : List Char) : f.text ++ after =
    f.head.text ++ (f.beforeBody.text ++
      '\x7b' :: (f.body ++ '\x7d' :: (f.beforeEnd.text ++ ';' :: after))) := by
  simp [Form.text]

theorem Form.exists_cons (f : Form type) (after : List Char) :
    ∃ c cs, f.text ++ after = c :: cs := by
  rw [text_append, Head.text]
  exact ⟨_, _, rfl⟩

theorem findSome?_body?_form (ht : IsPlain type) (f : Form type) (after : List Char) :
    (headRests type (f.text ++ after)).findSome? body? = some f.body := by
  have hmem := mem_headRests_iff.2 ⟨f.head, f.text_append after⟩
  cases hrests : headRests type (f.text ++ after) with
  | nil =>
    rw [hrests] at hmem
    cases hmem
  | cons r rs =>
    obtain ⟨h, hr⟩ := mem_headRests_iff.1 (hrests ▸ List.mem_cons_self : r ∈ headRests type _)
    -- whichever head is taken, the same body stands behind it
    obtain rfl := Head.eq_of_text_append ht (hr.symm.trans (f.text_append after))
    rw [List.findSome?_cons, body?_eq_some_iff.2
      ⟨f.body_valid, f.beforeBody, f.beforeEnd, after, rfl⟩]

theorem firstBody?_append {before : List Char}
    (h : ∀ n < before.length, ¬Reads type ((before ++ rest).drop n)) :
    firstBody? type (before ++ rest) = firstBody? type rest := by
  induction before with
  | nil => rfl
  | cons c before ih =>
    have hhere : (headRests type (c :: (before ++ rest))).findSome? body? = none := by
      have hnot := h 0 (Nat.zero_lt_succ _)
      rwa [← isSome_findSome?_body?, Bool.not_eq_true, Option.isSome_eq_false_iff,
        Option.isNone_iff_eq_none] at hnot
    rw [List.cons_append, firstBody?, hhere]
    exact ih fun n hn => h (n + 1) (Nat.succ_lt_succ hn)

/-- **The body that is found is that of the first specialization in the text.** -/
theorem firstBody?_append_form (ht : IsPlain type) {before : List Char} (f : Form type)
    (after : List Char)
    (h : ∀ n < before.length, ¬Reads type ((before ++ (f.text ++ after)).drop n)) :
    firstBody? type (before ++ (f.text ++ after)) = some f.body := by
  obtain ⟨c, cs, hcs⟩ := f.exists_cons after
  have hbody := findSome?_body?_form ht f after
  rw [firstBody?_append h, hcs, firstBody?, ← hcs, hbody]

theorem occursFor_append_form (before : List Char) (f : Form type) (after : List Char) :
    occursFor type (before ++ (f.text ++ after)) = true := by
  induction before with
  | nil =>
    obtain ⟨c, cs, hcs⟩ := f.exists_cons after
    have hmem := mem_headRests_iff.2 ⟨f.head, f.text_append after⟩
    rw [List.nil_append, hcs, occursFor, ← hcs]
    simp [List.ne_nil_of_mem hmem]
  | cons c before ih => rw [List.cons_append, occursFor, ih, Bool.or_true]

end Specialization

end RowMapping
