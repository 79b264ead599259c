import RowMapping.Proofs.Declared
import RowMapping.Proofs.Layout
import RowMapping.Proofs.Nested
/-!
# Types that are laid out from their names

The tokens of a type that is laid out are names and four marks, wherever the type stands in a text.

* `Token.IsPart`, `Token.IsInert`: tokens of a type, and tokens that no bracket counting sees;
* `TypeForm.isPart`: the lexemes of a type;
* `TypeForm.toList_spelling`: a type is spelled as it is laid out;
* `TypeForm.declarator?_append`: no declarator ends in a type.
-/

namespace RowMapping

open Declaration Text Token

/-! ### Tokens at a place -/

section

variable (c : Cursor) (ls : List Lexeme)

theorem located_mark (m : Char) :
    located c (.mark m :: ls) = c.tokenAt .mark [m] :: located (c.pass (.mark m)) ls := rfl

theorem located_space : located c (.space :: ls) = located (c.pass .space) ls := rfl

theorem located_name (n : Identifier) :
    located c (n.lexeme :: ls) = c.tokenAt .word n.text :: located (c.pass n.lexeme) ls := rfl

end

namespace Token

variable {t : Token} {c : Cursor} {kind : Kind} {w : List Char} {s : String} {marks : List String}

theorem reads_tokenAt_eq_false (h : w ≠ s.toList) : (c.tokenAt kind w).reads s = false := by
  have hne : String.ofList w ≠ s := fun heq => h (by rw [← heq, String.toList_ofList])
  simp [reads, Cursor.tokenAt, hne]

/-- A name that is no keyword, or one of some marks. -/
def IsPart (marks : List String) (t : Token) : Prop :=
  (t.kind = .word ∧ isPlainName t.text.toList = true) ∨ (t.kind = .mark ∧ t.text ∈ marks)

theorem IsPart.reads (h : t.IsPart marks) (hname : isPlainName s.toList = false)
    (hmark : s ∉ marks) : t.reads s = false := by
  refine Bool.eq_false_iff.2 fun hs => ?_
  have htext : t.text = s := by
    simp only [Token.reads, Bool.and_eq_true, beq_iff_eq] at hs
    exact hs.2
  rcases h with ⟨-, h⟩ | ⟨-, h⟩
  · rw [htext, hname] at h
    cases h
  · exact hmark (htext ▸ h)

theorem IsPart.isComment (h : t.IsPart marks) : t.isComment = false := by
  rcases h with ⟨h, -⟩ | ⟨h, -⟩ <;> simp [Token.isComment, h]

/-- The texts that end or divide statements and scopes. -/
def structural : List String :=
  ["(", ")", "[", "]", "\x7b", "\x7d", ";", "~", "namespace"]

/-- The token is code and none of those that end or divide statements and scopes. -/
def IsInert (t : Token) : Prop := t.isComment = false ∧ ∀ s ∈ structural, t.reads s = false

theorem IsPart.isInert (h : t.IsPart marks) (hmarks : ∀ s ∈ structural, s ∉ marks) : t.IsInert := by
  have hnames : ∀ s ∈ structural, isPlainName s.toList = false := by decide
  exact ⟨h.isComment, fun s hs => h.reads (hnames s hs) (hmarks s hs)⟩

theorem isInert_tokenAt (hkind : kind ≠ .comment) (h : ∀ s ∈ structural, w ≠ s.toList) :
    (c.tokenAt kind w).IsInert :=
  ⟨by simpa [isComment, Cursor.tokenAt] using hkind, fun s hs => reads_tokenAt_eq_false (h s hs)⟩

theorem IsInert.opens? (h : t.IsInert) : t.opens? = none := by
  have hstructural : ∀ k : Bracket, k.opening ∈ structural := fun k => by cases k <;> decide
  exact List.find?_eq_none.2 fun k _ => by simp [h.2 _ (hstructural k)]

theorem IsInert.closes? (h : t.IsInert) : t.closes? = none := by
  have hstructural : ∀ k : Bracket, k.closing ∈ structural := fun k => by cases k <;> decide
  exact List.find?_eq_none.2 fun k _ => by simp [h.2 _ (hstructural k)]

end Token

/-- The lexeme is a blank, a name that is no keyword, or one of some marks. -/
def Lexeme.IsPart (marks : List String) (l : Lexeme) : Prop :=
  l.shape = .blank ∨ (l.shape = .word ∧ isPlainName l.text = true) ∨
    (l.shape = .mark ∧ String.ofList l.text ∈ marks)

theorem Token.isPart_of_mem_located {marks : List String} {c : Cursor} {ls : List Lexeme}
    {t : Token} (hls : ∀ l ∈ ls, l.IsPart marks) (ht : t ∈ located c ls) : t.IsPart marks := by
  obtain ⟨l, hl, hkind, htext⟩ := exists_lexeme_of_mem_located ht
  rcases hls l hl with h | ⟨h, hname⟩ | ⟨h, hmark⟩
  · rw [h] at hkind
    cases hkind
  · rw [h] at hkind
    exact .inl ⟨(Option.some.inj hkind).symm, htext ▸ hname⟩
  · rw [h] at hkind
    rw [← htext, String.ofList_toList] at hmark
    exact .inr ⟨(Option.some.inj hkind).symm, hmark⟩

/-! ### The lexemes of a type -/

/-- The marks of a type. -/
def typeMarks : List String := ["::", "<", ">", ","]

theorem Identifier.isPart (n : Identifier) (marks : List String) : n.lexeme.IsPart marks :=
  .inr (.inl ⟨rfl, n.valid⟩)

theorem QualifiedName.isPart (q : QualifiedName) {marks : List String} (h : "::" ∈ marks) :
    ∀ l ∈ q.lexemes, l.IsPart marks := by
  intro l hl
  rw [lexemes, List.mem_cons, moreLexemes, List.mem_flatMap] at hl
  rcases hl with rfl | ⟨n, -, hl⟩
  · exact q.first.isPart marks
  · simp only [List.mem_cons, List.not_mem_nil, or_false] at hl
    rcases hl with rfl | rfl
    · exact .inr (.inr ⟨rfl, h⟩)
    · exact n.isPart marks

theorem isPart_wordsLexemes (words : List Identifier) (marks : List String) :
    ∀ l ∈ wordsLexemes words, l.IsPart marks := by
  intro l hl
  obtain ⟨n, -, hl⟩ := List.mem_flatMap.1 hl
  simp only [List.mem_cons, List.not_mem_nil, or_false] at hl
  rcases hl with rfl | rfl
  · exact n.isPart marks
  · exact .inl rfl

mutual

theorem TypeForm.isPart : (t : TypeForm) → ∀ l ∈ t.lexemes, l.IsPart typeMarks
  | .plain words name => List.forall_mem_append.2
    ⟨isPart_wordsLexemes words typeMarks, name.isPart (by decide)⟩
  | .applied words name arguments => by
    refine List.forall_mem_append.2 ⟨isPart_wordsLexemes words typeMarks, ?_⟩
    refine List.forall_mem_append.2 ⟨name.isPart (by decide), ?_⟩
    refine List.forall_mem_cons.2 ⟨.inr (.inr ⟨rfl, by decide⟩), ?_⟩
    refine List.forall_mem_append.2 ⟨arguments.isPart, ?_⟩
    exact List.forall_mem_singleton.2 (.inr (.inr ⟨rfl, by decide⟩))

theorem TypeForms.isPart : (ts : TypeForms) → ∀ l ∈ ts.lexemes, l.IsPart typeMarks
  | .last t => t.isPart
  | .cons t ts => by
    refine List.forall_mem_append.2 ⟨t.isPart, ?_⟩
    refine List.forall_mem_cons.2 ⟨.inr (.inr ⟨rfl, by decide⟩), ?_⟩
    exact List.forall_mem_cons.2 ⟨.inl rfl, ts.isPart⟩

end

/-- The lexemes of a type are its text. -/
theorem TypeForm.flatMap_text (t : TypeForm) : t.lexemes.flatMap Lexeme.text = t.text := by
  have hend : ∀ d ∈ ([] : List Char).head?, endsWord d = true := by rintro _ ⟨⟩
  exact flatMap_text_of_lexemes (t.lexemes_text hend)

/-- A type starts with a name. -/
theorem TypeForm.exists_lexemes (t : TypeForm) :
    ∃ (n : Identifier) (ls : List Lexeme), t.lexemes = n.lexeme :: ls := by
  cases t with
  | plain words name =>
    cases words with
    | nil => exact ⟨name.first, _, rfl⟩
    | cons n words => exact ⟨n, _, rfl⟩
  | applied words name arguments =>
    cases words with
    | nil => exact ⟨name.first, _, rfl⟩
    | cons n words => exact ⟨n, _, rfl⟩

/-! ### Types are spelled as they are laid out -/

section

variable {c : Cursor} {ts : List Token}

/-- What stands between a token and those behind it. -/
def gap (t : Token) (ts : List Token) : List Char :=
  match ts with
  | [] => []
  | u :: _ => if (t.isWordLike && u.isWordLike) || t.reads "," then [' '] else []

theorem toList_spelling_cons (t : Token) (ts : List Token) :
    (spelling (t :: ts)).toList = t.text.toList ++ (gap t ts ++ (spelling ts).toList) := by
  cases ts with
  | nil => simp [spelling, gap]
  | cons u ts =>
    rw [spelling, gap]
    split <;> simp

theorem gap_eq_nil {t : Token} (hts : ∀ u ∈ ts.head?, (t.isWordLike && u.isWordLike) = false)
    (h : t.reads "," = false) : gap t ts = [] := by
  cases ts with
  | nil => rfl
  | cons u ts => simp [gap, hts u rfl, h]

theorem Identifier.ne_comma (n : Identifier) : n.text ≠ ",".toList := fun h => by
  have hvalid := n.valid
  rw [h] at hvalid
  exact absurd hvalid (by decide)

theorem Identifier.toList_spelling (n : Identifier)
    (hts : ∀ u ∈ ts.head?, u.isWordLike = false) :
    (spelling (c.tokenAt .word n.text :: ts)).toList = n.text ++ (spelling ts).toList := by
  rw [toList_spelling_cons, gap_eq_nil (fun u hu => by rw [hts u hu, Bool.and_false])
    (reads_tokenAt_eq_false n.ne_comma)]
  simp [Cursor.tokenAt]

theorem toList_spelling_mark {w : List Char} (hw : w ≠ ",".toList) :
    (spelling (c.tokenAt .mark w :: ts)).toList = w ++ (spelling ts).toList := by
  rw [toList_spelling_cons, gap_eq_nil (fun u _ => rfl) (reads_tokenAt_eq_false hw)]
  simp [Cursor.tokenAt]

theorem QualifiedName.toList_spelling_more (more : List Identifier) (c : Cursor)
    (hts : ∀ u ∈ ts.head?, u.isWordLike = false) :
    (∀ u ∈ (located c (moreLexemes more) ++ ts).head?, u.isWordLike = false) ∧
      (spelling (located c (moreLexemes more) ++ ts)).toList =
        more.flatMap (fun n => ':' :: ':' :: n.text) ++ (spelling ts).toList := by
  induction more generalizing c with
  | nil => exact ⟨hts, rfl⟩
  | cons n more ih =>
    obtain ⟨hhead, hmore⟩ := ih ((c.pass ⟨.mark, [':', ':']⟩).pass n.lexeme)
    refine ⟨?_, ?_⟩
    · rintro _ ⟨⟩
      rfl
    · show (spelling (c.tokenAt .mark [':', ':'] :: Cursor.tokenAt _ .word n.text ::
        (located _ (moreLexemes more) ++ ts))).toList = _
      rw [toList_spelling_mark (by decide), n.toList_spelling hhead, hmore]
      simp

theorem QualifiedName.toList_spelling (q : QualifiedName) (c : Cursor)
    (hts : ∀ u ∈ ts.head?, u.isWordLike = false) :
    (spelling (located c q.lexemes ++ ts)).toList = q.text ++ (spelling ts).toList := by
  obtain ⟨hhead, hmore⟩ := toList_spelling_more q.more (c.pass q.first.lexeme) hts
  show (spelling
    (c.tokenAt .word q.first.text :: (located _ (moreLexemes q.more) ++ ts))).toList = _
  rw [q.first.toList_spelling hhead, hmore, text, List.append_assoc]

theorem toList_spelling_words (words : List Identifier) (c : Cursor)
    (hts : ∃ u us, ts = u :: us ∧ u.isWordLike = true) :
    (spelling (located c (wordsLexemes words) ++ ts)).toList =
      wordsText words ++ (spelling ts).toList := by
  induction words generalizing c with
  | nil => rfl
  | cons n words ih =>
    have hnext : ∃ u us,
        located ((c.pass n.lexeme).pass .space) (wordsLexemes words) ++ ts = u :: us ∧
          u.isWordLike = true := by
      cases words with
      | nil => exact hts
      | cons m words => exact ⟨_, _, rfl, rfl⟩
    obtain ⟨u, us, heq, hu⟩ := hnext
    have hword : (c.tokenAt .word n.text).isWordLike = true := rfl
    have hgap : gap (c.tokenAt .word n.text) (u :: us) = [' '] := by
      rw [gap, hword, hu]
      rfl
    have hlocated : located c (wordsLexemes (n :: words)) ++ ts = c.tokenAt .word n.text ::
        (located ((c.pass n.lexeme).pass .space) (wordsLexemes words) ++ ts) := rfl
    rw [hlocated, toList_spelling_cons, ih, heq, hgap]
    simp [Cursor.tokenAt, wordsText]

theorem isWordLike_head_mark (c : Cursor) (m : Char) (us : List Token) :
    ∀ u ∈ (c.tokenAt .mark [m] :: us).head?, u.isWordLike = false := by
  rintro _ ⟨⟩
  rfl

/-- A blank stands behind a comma. -/
theorem toList_spelling_comma (hts : ts ≠ []) :
    (spelling (c.tokenAt .mark [','] :: ts)).toList = ',' :: ' ' :: (spelling ts).toList := by
  obtain ⟨u, us, rfl⟩ := List.exists_cons_of_ne_nil hts
  have hcomma : (c.tokenAt .mark [',']).reads "," = true := rfl
  rw [toList_spelling_cons, gap, hcomma, Bool.or_true]
  simp [Cursor.tokenAt]

theorem TypeForms.located_ne_nil (l : TypeForms) (c : Cursor) (ts : List Token) :
    located c l.lexemes ++ ts ≠ [] := by
  cases l with
  | last t =>
    obtain ⟨n, ls, h⟩ := t.exists_lexemes
    rw [TypeForms.lexemes, h, located_name]
    exact List.cons_ne_nil _ _
  | cons t l =>
    obtain ⟨n, ls, h⟩ := t.exists_lexemes
    rw [TypeForms.lexemes, h, List.cons_append, located_name]
    exact List.cons_ne_nil _ _

theorem QualifiedName.exists_located (q : QualifiedName) (c : Cursor) (ts : List Token) :
    ∃ u us, located c q.lexemes ++ ts = u :: us ∧ u.isWordLike = true := ⟨_, _, rfl, rfl⟩

mutual

/-- A type is spelled as it is laid out. -/
theorem TypeForm.toList_spelling : (t : TypeForm) → (c : Cursor) → {ts : List Token} →
    (∀ u ∈ ts.head?, u.isWordLike = false) →
    (spelling (located c t.lexemes ++ ts)).toList = t.text ++ (spelling ts).toList
  | .plain words name, c, ts, hts => by
    rw [TypeForm.lexemes, Cursor.located_append, List.append_assoc,
      toList_spelling_words words c (name.exists_located _ ts), name.toList_spelling _ hts,
      TypeForm.text, List.append_assoc]
  | .applied words name arguments, c, ts, _ => by
    rw [TypeForm.lexemes, Cursor.located_append, Cursor.located_append, located_mark,
      Cursor.located_append, located_mark, List.append_assoc, List.append_assoc, List.cons_append,
      List.append_assoc, List.cons_append,
      toList_spelling_words words c (name.exists_located _ _),
      name.toList_spelling _ (isWordLike_head_mark _ _ _), toList_spelling_mark (by decide),
      arguments.toList_spelling _ (isWordLike_head_mark _ _ _), toList_spelling_mark (by decide),
      TypeForm.text]
    simp [located]

/-- Types with commas between them are spelled as they are laid out. -/
theorem TypeForms.toList_spelling : (l : TypeForms) → (c : Cursor) → {ts : List Token} →
    (∀ u ∈ ts.head?, u.isWordLike = false) →
    (spelling (located c l.lexemes ++ ts)).toList = l.text ++ (spelling ts).toList
  | .last t, c, _, hts => t.toList_spelling c hts
  | .cons t l, c, ts, hts => by
    rw [TypeForms.lexemes, Cursor.located_append, located_mark, located_space, List.append_assoc,
      List.cons_append, t.toList_spelling _ (isWordLike_head_mark _ _ _),
      toList_spelling_comma (l.located_ne_nil _ ts), l.toList_spelling _ hts, TypeForms.text]
    simp

end

end

/-! ### No declarator ends in a type -/

section

variable {angles : Nat} {a ts : List Token} {c : Cursor}

/-- A split declarator with more tokens in front. -/
def inFront (a : List Token) (r : List Token × List Token) : List Token × List Token :=
  (a ++ r.1, r.2)

theorem map_inFront (a b : List Token) (r : Option (List Token × List Token)) :
    (r.map (inFront b)).map (inFront a) = r.map (inFront (a ++ b)) := by
  rw [Option.map_map]
  congr 1
  funext r
  exact congrArg (·, r.2) (List.append_assoc a b r.1).symm

theorem declarator?_part {t : Token} (h : t.IsPart ["::"]) :
    declarator? angles (t :: ts) = (declarator? angles ts).map (inFront [t]) := by
  have hread : ∀ s ∈ ["<", ">", "=", "\x7b", ",", ":", "["], t.reads s = false := by
    have hs : ∀ s ∈ ["<", ">", "=", "\x7b", ",", ":", "["],
        isPlainName s.toList = false ∧ s ∉ ["::"] := by decide
    exact fun s hmem => h.reads (hs s hmem).1 (hs s hmem).2
  simp only [List.forall_mem_cons] at hread
  obtain ⟨h1, h2, h3, h4, h5, h6, h7, -⟩ := hread
  rw [declarator?]
  simp [h1, h2, h3, h4, h5, h6, h7]
  rfl

theorem declarator?_parts (h : ∀ t ∈ a, t.IsPart ["::"]) :
    declarator? angles (a ++ ts) = (declarator? angles ts).map (inFront a) := by
  induction a with
  | nil => cases h' : declarator? angles ts <;> simp [inFront, h']
  | cons t a ih =>
    obtain ⟨ht, ha⟩ := List.forall_mem_cons.1 h
    rw [List.cons_append, declarator?_part ht, ih ha, map_inFront]
    rfl

theorem declarator?_open :
    declarator? angles (c.tokenAt .mark ['<'] :: ts) =
      (declarator? (angles + 1) ts).map (inFront [c.tokenAt .mark ['<']]) := by
  have h : (c.tokenAt .mark ['<']).reads "<" = true := rfl
  rw [declarator?, if_pos h]
  rfl

theorem declarator?_close :
    declarator? (angles + 1) (c.tokenAt .mark ['>'] :: ts) =
      (declarator? angles ts).map (inFront [c.tokenAt .mark ['>']]) := by
  have hne : ¬ (c.tokenAt .mark ['>']).reads "<" = true :=
    Bool.eq_false_iff.1 (reads_tokenAt_eq_false (by decide))
  have h : (c.tokenAt .mark ['>']).reads ">" = true := rfl
  rw [declarator?, if_neg hne, if_pos h]
  rfl

theorem declarator?_comma :
    declarator? (angles + 1) (c.tokenAt .mark [','] :: ts) =
      (declarator? (angles + 1) ts).map (inFront [c.tokenAt .mark [',']]) := by
  have hne : ∀ s ∈ ["<", ">"], (c.tokenAt .mark [',']).reads s = false := fun s hs =>
    reads_tokenAt_eq_false (by revert s; decide)
  rw [declarator?]
  simp [hne]
  rfl

mutual

theorem TypeForm.declarator?_append : (t : TypeForm) → (c : Cursor) → (angles : Nat) →
    (ts : List Token) → declarator? angles (located c t.lexemes ++ ts) =
      (declarator? angles ts).map (inFront (located c t.lexemes))
  | .plain words name, c, angles, ts => by
    refine declarator?_parts fun u hu => isPart_of_mem_located ?_ hu
    exact List.forall_mem_append.2 ⟨isPart_wordsLexemes words _, name.isPart (by decide)⟩
  | .applied words name arguments, c, angles, ts => by
    have hwords : ∀ (c : Cursor), ∀ u ∈ located c (wordsLexemes words), u.IsPart ["::"] :=
      fun c u hu => isPart_of_mem_located (isPart_wordsLexemes words _) hu
    have hname : ∀ (c : Cursor), ∀ u ∈ located c name.lexemes, u.IsPart ["::"] :=
      fun c u hu => isPart_of_mem_located (name.isPart (by decide)) hu
    rw [TypeForm.lexemes, Cursor.located_append, Cursor.located_append, located_mark,
      Cursor.located_append, located_mark, List.append_assoc, List.append_assoc, List.cons_append,
      List.append_assoc, List.cons_append, declarator?_parts (hwords _),
      declarator?_parts (hname _), declarator?_open, arguments.declarator?_append, declarator?_close]
    simp only [map_inFront]
    simp [located]

theorem TypeForms.declarator?_append : (l : TypeForms) → (c : Cursor) → (angles : Nat) →
    (ts : List Token) → declarator? (angles + 1) (located c l.lexemes ++ ts) =
      (declarator? (angles + 1) ts).map (inFront (located c l.lexemes))
  | .last t, c, angles, ts => t.declarator?_append c (angles + 1) ts
  | .cons t l, c, angles, ts => by
    rw [TypeForms.lexemes, Cursor.located_append, located_mark, located_space, List.append_assoc,
      List.cons_append, t.declarator?_append, declarator?_comma, l.declarator?_append]
    simp only [map_inFront]
    simp

end

end

end RowMapping
