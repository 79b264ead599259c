import RowMapping.Proofs.BodyItems
import RowMapping.Proofs.TagComment
import RowMapping.Proofs.TypeSpelling
/-!
# Lines of members

The line of a member that is laid out is read as one statement, and this statement declares the
member that is described.

* `Literal.sourceOf_located`: an initial value is copied from the source;
* `MemberForm.lexemes_text`: the lexemes of a line;
* `MemberForm.ofCode?_located`: the code of a line declares its member;
* `MemberForm.memberSites_located`: a line is one statement of the body around it.
-/

namespace RowMapping

open Declaration Text Token

/-! ### Initial values -/

namespace Literal

/-- The lexemes of a literal. -/
def lexemes : Literal → List Lexeme
  | number negative numeral => (if negative then [.mark '-'] else []) ++
      [⟨.number, numeral.digit :: numeral.more⟩]
  | quoted body => [⟨.string, '"' :: (body.text ++ ['"'])⟩]

theorem isNumberPart_of_isNumeralPart {d : Char} (h : isNumeralPart d = true) :
    Lexeme.isNumberPart d = true := by
  simp only [isNumeralPart, Bool.or_eq_true] at h
  rcases h with (h | h) | h <;> simp [Lexeme.isNumberPart, isWord, h]

theorem lexemes_text (v : Literal) {rest : List Char}
    (hrest : ∀ d ∈ rest.head?, Lexeme.isNumberPart d = false) :
    RowMapping.lexemes (v.text ++ rest) = v.lexemes ++ RowMapping.lexemes rest := by
  cases v with
  | number negative numeral =>
    have hmore : numeral.more.all Lexeme.isNumberPart = true :=
      List.all_eq_true.2 fun d hd =>
        isNumberPart_of_isNumeralPart (List.all_eq_true.1 numeral.more_valid d hd)
    have hnumber := lexemes_number numeral.digit_valid hmore hrest
    cases negative with
    | false => exact hnumber
    | true =>
      show RowMapping.lexemes ('-' :: (numeral.digit :: numeral.more ++ rest)) = _
      rw [lexemes_mark rfl, hnumber]
      rfl
  | quoted body =>
    have hbody : ∀ d ∈ body.text, d ≠ '"' ∧ d ≠ '\n' ∧ d ≠ '\\' := fun d hd => by
      simpa [and_assoc] using List.all_eq_true.1 body.valid d hd
    have htext : (quoted body).text ++ rest = '"' :: body.text ++ '"' :: rest := by simp [text]
    rw [htext, lexemes_quoted hbody]
    rfl

theorem isBlank_of_isAsciiDigit {d : Char} (h : isAsciiDigit d = true) : isBlank d = false := by
  simp only [isAsciiDigit, Bool.and_eq_true, decide_eq_true_eq] at h
  simp [isBlank]
  omega

theorem isBlank_of_isNumeralPart {d : Char} (h : isNumeralPart d = true) : isBlank d = false := by
  simp only [isNumeralPart, isNamePart, Bool.or_eq_true, beq_iff_eq] at h
  rcases h with ((h | h) | rfl) | rfl
  · exact isBlank_of_isNameStart h
  · exact isBlank_of_isAsciiDigit h
  · rfl
  · rfl

/-- A literal starts and ends with characters that are not blank. -/
theorem isBlank_ends (v : Literal) :
    (∀ d ∈ v.text.head?, isBlank d = false) ∧ ∀ d ∈ v.text.getLast?, isBlank d = false := by
  cases v with
  | number negative numeral =>
    have hall : ∀ d ∈ (number negative numeral).text, isBlank d = false := by
      intro d hd
      rw [text, List.mem_append, List.mem_cons] at hd
      rcases hd with hd | rfl | hd
      · cases negative with
        | false => cases hd
        | true => rw [List.mem_singleton.1 hd]; rfl
      · exact isBlank_of_isAsciiDigit numeral.digit_valid
      · exact isBlank_of_isNumeralPart (List.all_eq_true.1 numeral.more_valid d hd)
    exact ⟨fun d hd => hall d (List.mem_of_mem_head? hd),
      fun d hd => hall d (List.mem_of_getLast? hd)⟩
  | quoted body =>
    have hlast : (quoted body).text.getLast? = some '"' := by
      rw [text, ← List.cons_append, List.getLast?_concat]
    refine ⟨?_, ?_⟩
    · rintro _ ⟨⟩
      rfl
    · rw [hlast]
      rintro _ ⟨⟩
      rfl

variable {c : Cursor} {source rest : List Char}

theorem numeral_ne (numeral : Numeral) {s : String}
    (h : s.toList.head?.any isAsciiDigit = false) :
    numeral.digit :: numeral.more ≠ s.toList := fun heq => by
  rw [← heq, List.head?_cons, Option.any_some, numeral.digit_valid] at h
  cases h

theorem quoted_ne (body : QuotedText) {s : String} (h : s.toList.head? ≠ some '"') :
    '"' :: (body.text ++ ['"']) ≠ s.toList := fun heq => h (by rw [← heq]; rfl)

theorem isInert_located (v : Literal) (c : Cursor) : ∀ t ∈ located c v.lexemes, t.IsInert := by
  have hdigits : ∀ s ∈ structural, s.toList.head?.any isAsciiDigit = false := by decide
  have hquotes : ∀ s ∈ structural, s.toList.head? ≠ some '"' := by decide
  cases v with
  | number negative numeral =>
    have hnumber : ∀ c : Cursor,
        (c.tokenAt .number (numeral.digit :: numeral.more)).IsInert := fun c =>
      isInert_tokenAt (by decide) fun s hs => numeral_ne numeral (hdigits s hs)
    cases negative with
    | false => exact List.forall_mem_singleton.2 (hnumber c)
    | true =>
      refine List.forall_mem_cons.2 ⟨isInert_tokenAt (by decide) (by decide), ?_⟩
      exact List.forall_mem_singleton.2 (hnumber _)
  | quoted body =>
    exact List.forall_mem_singleton.2
      (isInert_tokenAt (by decide) fun s hs => quoted_ne body (hquotes s hs))

/-- There is no comma in an initial value. -/
theorem hasTopLevelComma_located (v : Literal) (c : Cursor) :
    hasTopLevelComma 0 (located c v.lexemes) = false := by
  have hone : ∀ t : Token, (∀ s ∈ ["\x7b", "[", "<", "\x7d", "]", ">", ","], t.reads s = false) →
      ∀ ts, hasTopLevelComma 0 (t :: ts) = hasTopLevelComma 0 ts := by
    intro t h ts
    simp only [List.forall_mem_cons] at h
    obtain ⟨h1, h2, h3, h4, h5, h6, h7, -⟩ := h
    rw [hasTopLevelComma]
    simp [h1, h2, h3, h4, h5, h6, h7]
  have hmarks : ∀ s ∈ ["\x7b", "[", "<", "\x7d", "]", ">", ","],
      s.toList.head?.any isAsciiDigit = false ∧ s.toList.head? ≠ some '"' ∧ ['-'] ≠ s.toList := by
    decide
  cases v with
  | number negative numeral =>
    have hnumber : ∀ c : Cursor, hasTopLevelComma 0 (located c [⟨.number, numeral.digit ::
        numeral.more⟩]) = false := fun c => hone (c.tokenAt .number _) (fun s hs =>
      reads_tokenAt_eq_false (numeral_ne numeral (hmarks s hs).1)) []
    cases negative with
    | false => exact hnumber c
    | true =>
      refine (hone (c.tokenAt .mark ['-']) (fun s hs => ?_) _).trans (hnumber _)
      exact reads_tokenAt_eq_false (hmarks s hs).2.2
  | quoted body =>
    exact hone (c.tokenAt .string _) (fun s hs =>
      reads_tokenAt_eq_false (quoted_ne body (hmarks s hs).2.1)) []

/-- An initial value is copied from the source. -/
theorem sourceOf_located (v : Literal) (h : c.IsAt source (v.text ++ rest)) :
    sourceOf source (located c v.lexemes) = String.ofList v.text := by
  have hslice : String.ofList (trim (slice c.offset (c.offset + byteLength v.text) source)) =
      String.ofList v.text := by
    rw [h.slice_eq, trim_eq_self v.isBlank_ends.1 v.isBlank_ends.2]
  cases v with
  | number negative numeral =>
    cases negative with
    | false => exact hslice
    | true =>
      rw [← hslice, text, byteLength_append, ← Nat.add_assoc]
      rfl
  | quoted body => exact hslice

end Literal

/-! ### Statements without brackets -/

section

variable {code : List Token}

/-- A statement in which no bracket counting sees anything ends at its semicolon. -/
theorem read_inert (hcode : ∀ t ∈ code, t.IsInert) {s : Token} (hs : s.reads ";" = true)
    (found : Option Token) (rest : List Token) :
    Statement.read 0 false found (code ++ s :: rest) = ⟨.simple, code, rest⟩ := by
  induction code generalizing found with
  | nil =>
    rw [List.nil_append, Statement.read]
    simp [reads_of_ne hs, hs]
  | cons t code ih =>
    obtain ⟨ht, hcode⟩ := List.forall_mem_cons.1 hcode
    have hsemi : 0 = 0 → t.reads ";" = false := fun _ => ht.2 ";" (by decide)
    rw [List.cons_append, Statement.read_plain 0 false found _ ht.opens? ht.closes? hsemi, ih hcode]
    rfl

theorem withoutAttributes_inert (hcode : ∀ t ∈ code, t.IsInert) :
    withoutAttributes code = code := by
  induction code with
  | nil => rw [withoutAttributes]
  | cons t code ih =>
    obtain ⟨ht, hcode⟩ := List.forall_mem_cons.1 hcode
    cases code with
    | nil => rw [withoutAttributes]
    | cons u code => rw [withoutAttributes, ht.2 "[" (by decide), ih hcode]; rfl

end

/-! ### Members -/

namespace MemberForm

/-- The lexemes of an initial value. -/
def initialLexemes : Option Literal → List Lexeme
  | some value => .space :: .mark '=' :: .space :: value.lexemes
  | none => []

/-- The lexemes of the code of a member, without the semicolon. -/
def codeLexemes (m : MemberForm) : List Lexeme :=
  m.type.lexemes ++ .space :: m.name.lexeme :: initialLexemes m.initial

/-- The lexemes of the comment behind a member. -/
def trailingLexemes : Option (List TagWord) → List Lexeme
  | some ws => [.space, ⟨.lineComment, '/' :: '/' :: commentText ws⟩]
  | none => []

/-- The lexemes of the line of a member. -/
def lexemes (m : MemberForm) : List Lexeme :=
  m.codeLexemes ++ .mark ';' :: (trailingLexemes m.tags ++ [.newline])

variable {m : MemberForm} {c : Cursor} {source rest : List Char} {ts : List Token}

theorem lexemes_trailing (tags : Option (List TagWord))
    (hrest : ∀ d ∈ rest.head?, isBlank d = false) :
    RowMapping.lexemes (trailingText tags ++ '\n' :: rest) =
      trailingLexemes tags ++ .newline :: RowMapping.lexemes rest := by
  cases tags with
  | none => exact lexemes_newline hrest
  | some ws =>
    have hcomment : ∀ d ∈ commentText ws, d ≠ '\n' := fun d hd heq =>
      newline_not_mem_commentText ws (heq ▸ hd)
    show RowMapping.lexemes (' ' :: ('/' :: '/' :: commentText ws ++ '\n' :: rest)) = _
    rw [lexemes_space (by rintro _ ⟨⟩; rfl), lexemes_comment hcomment, lexemes_newline hrest]
    rfl

theorem lexemes_initial (initial : Option Literal) (rest : List Char) :
    RowMapping.lexemes (initialText initial ++ ';' :: rest) =
        initialLexemes initial ++ .mark ';' :: RowMapping.lexemes rest ∧
      ∀ d ∈ (initialText initial ++ ';' :: rest).head?, endsWord d = true := by
  cases initial with
  | none => exact ⟨lexemes_mark rfl rest, by rintro _ ⟨⟩; rfl⟩
  | some value =>
    refine ⟨?_, by rintro _ ⟨⟩; rfl⟩
    have hvalue : ∀ d ∈ (value.text ++ ';' :: rest).head?, isBlank d = false := by
      intro d hd
      rw [List.head?_append, Option.mem_def, Option.or_eq_some_iff] at hd
      rcases hd with hd | ⟨-, hd⟩
      · exact value.isBlank_ends.1 d hd
      · obtain rfl := Option.some.inj hd
        rfl
    have hend : ∀ d ∈ (';' :: rest).head?, Lexeme.isNumberPart d = false := by
      rintro _ ⟨⟩
      rfl
    show RowMapping.lexemes (' ' :: '=' :: ' ' :: (value.text ++ ';' :: rest)) = _
    rw [lexemes_space (by rintro _ ⟨⟩; rfl), lexemes_mark rfl, lexemes_space hvalue,
      value.lexemes_text hend, lexemes_mark rfl]
    rfl

/-- The line of a member is cut into its lexemes. -/
theorem lexemes_text (m : MemberForm) (hrest : ∀ d ∈ rest.head?, isBlank d = false) :
    RowMapping.lexemes (m.text ++ rest) = m.lexemes ++ RowMapping.lexemes rest := by
  obtain ⟨hinitial, hname⟩ := lexemes_initial m.initial (trailingText m.tags ++ '\n' :: rest)
  have htype := endsWord_head_mark (c := ' ') rfl
    (m.name.text ++ (initialText m.initial ++ ';' :: (trailingText m.tags ++ '\n' :: rest)))
  have htext : m.text ++ rest = m.type.text ++ ' ' :: (m.name.text ++
      (initialText m.initial ++ ';' :: (trailingText m.tags ++ '\n' :: rest))) := by
    simp [text]
  rw [htext, m.type.lexemes_text htype, lexemes_space (isBlank_head_name m.name.isName _),
    lexemes_name m.name.isName hname, hinitial, lexemes_trailing m.tags hrest, lexemes, codeLexemes]
  simp [Identifier.lexeme]

/-! ### The code of a line -/

/-- The place behind the type of a member. -/
def nameCursor (m : MemberForm) (c : Cursor) : Cursor := (c.past m.type.lexemes).pass .space

/-- The tokens of the initial value of a member, its equals sign included. -/
def initialTokens (m : MemberForm) (c : Cursor) : List Token :=
  located ((m.nameCursor c).pass m.name.lexeme) (initialLexemes m.initial)

theorem located_codeLexemes (m : MemberForm) (c : Cursor) :
    located c m.codeLexemes = located c m.type.lexemes ++
      (m.nameCursor c).tokenAt .word m.name.text :: m.initialTokens c := by
  rw [codeLexemes, Cursor.located_append]
  rfl

theorem isPart_name (m : MemberForm) (c : Cursor) (marks : List String) :
    (c.tokenAt .word m.name.text).IsPart marks :=
  .inl ⟨rfl, by simpa [Cursor.tokenAt] using m.name.valid⟩

theorem isInert_located (m : MemberForm) (c : Cursor) :
    ∀ t ∈ located c m.codeLexemes, t.IsInert := by
  rw [located_codeLexemes]
  refine List.forall_mem_append.2 ⟨fun t ht => ?_, List.forall_mem_cons.2 ⟨?_, ?_⟩⟩
  · exact (isPart_of_mem_located m.type.isPart ht).isInert (by decide)
  · exact (m.isPart_name _ []).isInert (by decide)
  · unfold initialTokens
    cases m.initial with
    | none => exact List.forall_mem_nil _
    | some value =>
      exact List.forall_mem_cons.2 ⟨isInert_tokenAt (by decide) (by decide),
        value.isInert_located _⟩

theorem declarator?_initialTokens (m : MemberForm) (c : Cursor) :
    declarator? 0 (m.initialTokens c) = some ([], m.initialTokens c) := by
  unfold initialTokens
  cases m.initial with
  | none => rfl
  | some value => rfl

theorem declarator?_located (m : MemberForm) (c : Cursor) :
    declarator? 0 (located c m.codeLexemes) =
      some (located c m.type.lexemes ++ [(m.nameCursor c).tokenAt .word m.name.text],
        m.initialTokens c) := by
  rw [located_codeLexemes, m.type.declarator?_append, declarator?_part (m.isPart_name _ _),
    declarator?_initialTokens]
  rfl

theorem hasTopLevelComma_initialTokens (m : MemberForm) (c : Cursor) :
    hasTopLevelComma 0 (m.initialTokens c) = false := by
  unfold initialTokens
  cases m.initial with
  | none => rfl
  | some value => exact value.hasTopLevelComma_located _

/-- The initial value is copied from the source. -/
theorem initialText_initialTokens (m : MemberForm) (h : c.IsAt source (m.text ++ rest)) :
    Declaration.initialText source (m.initialTokens c) =
      (m.initial.map fun value => String.ofList value.text).getD "" := by
  cases hinitial : m.initial with
  | none =>
    rw [initialTokens, hinitial]
    rfl
  | some value =>
    have htokens : m.initialTokens c = (((m.nameCursor c).pass m.name.lexeme).pass .space).tokenAt
        .mark ['='] :: located (c.past (m.type.lexemes ++
          [.space, m.name.lexeme, .space, .mark '=', .space])) value.lexemes := by
      rw [initialTokens, hinitial, Cursor.past_append]
      rfl
    have hfront : (m.type.lexemes ++ [.space, m.name.lexeme, .space, .mark '=', .space]).flatMap
        Lexeme.text = m.type.text ++ ' ' :: (m.name.text ++ [' ', '=', ' ']) := by
      rw [List.flatMap_append, m.type.flatMap_text]
      simp [Lexeme.space, Lexeme.mark, Identifier.lexeme]
    have htext : m.text ++ rest = (m.type.text ++ ' ' :: (m.name.text ++ [' ', '=', ' '])) ++
        (value.text ++ (';' :: (trailingText m.tags ++ '\n' :: rest))) := by
      simp [text, hinitial, initialText]
    rw [htext] at h
    rw [htokens]
    exact value.sourceOf_located (h.past hfront)

theorem spelling_type (m : MemberForm) (c : Cursor) :
    spelling (located c m.type.lexemes) = String.ofList m.type.text := by
  have hend : ∀ u ∈ ([] : List Token).head?, u.isWordLike = false := by rintro _ ⟨⟩
  have h := m.type.toList_spelling c hend
  rw [List.append_nil, spelling, String.toList_empty, List.append_nil] at h
  rw [← h, String.ofList_toList]

/-- The code of a line declares the member that is described. -/
theorem ofCode?_located (m : MemberForm) (h : c.IsAt source (m.text ++ rest))
    {trailing : Option Token} (htags : tagText? trailing = m.tags.map TagWord.joined) :
    Member.ofCode? source (located c m.codeLexemes) trailing =
      some { m.member with line := (m.nameCursor c).line } := by
  obtain ⟨n, ls, htype⟩ := m.type.exists_lexemes
  have hhead : (located c m.codeLexemes).head? = some (c.tokenAt .word n.text) := by
    rw [located_codeLexemes, htype]
    rfl
  have hword : (located c m.type.lexemes).any (fun t => t.kind == .word) = true := by
    rw [htype]
    rfl
  have hkeyword : nonMemberKeywords.contains (c.tokenAt .word n.text).text = false := by
    have hvalid := (Bool.and_eq_true_iff.1 n.valid).2
    rw [Bool.not_eq_true', List.contains_append, Bool.or_eq_false_iff] at hvalid
    exact hvalid.1
  have hcall : (located c m.codeLexemes).any (fun t => t.reads "(" || t.reads "~") = false := by
    refine List.any_eq_false.2 fun t ht => ?_
    have hinert := (m.isInert_located c t ht).2
    simp [hinert "(" (by decide), hinert "~" (by decide)]
  rw [Member.ofCode?, hhead]
  simp only [Option.bind_eq_bind, Option.bind_some, hkeyword, hcall, m.declarator?_located,
    List.getLast?_concat, List.dropLast_concat, hword, m.hasTopLevelComma_initialTokens,
    m.spelling_type, m.initialText_initialTokens h, htags, Option.map_map]
  rfl

/-! ### A line is one statement -/

/-- The comment behind a member. -/
def trailing? (m : MemberForm) (c : Cursor) : Option Token :=
  m.tags.map fun ws => (((c.past m.codeLexemes).pass (.mark ';')).pass .space).tokenAt .comment
    ('/' :: '/' :: commentText ws)

/-- The site of a member whose line starts at a place. -/
def site (m : MemberForm) (c : Cursor) : MemberSite :=
  ⟨c.line, located c m.codeLexemes, m.trailing? c⟩

theorem located_lexemes (m : MemberForm) (c : Cursor) :
    located c m.lexemes = located c m.codeLexemes ++
      (c.past m.codeLexemes).tokenAt .mark [';'] :: (m.trailing? c).toList := by
  rw [lexemes, Cursor.located_append, located_mark, trailing?]
  cases m.tags <;> rfl

theorem firstOnLine_trailing (m : MemberForm) (c : Cursor) :
    ∀ t ∈ m.trailing? c, t.isComment = true ∧ t.firstOnLine = false := by
  intro t ht
  obtain ⟨ws, -, rfl⟩ := Option.map_eq_some_iff.1 ht
  have hmark : (Lexeme.mark ';').shape ≠ .blank := by decide
  exact ⟨rfl, (Cursor.isBehindCode_pass hmark).pass_blank.firstOnLine _ _⟩

/-- In a body, the line of a member is one statement, whatever the lines behind it are. -/
theorem memberSites_located (m : MemberForm) (c : Cursor)
    (hts : ∀ t ∈ ts.head?, t.isComment = false) :
    memberSites true (located c m.lexemes ++ ts) = m.site c :: memberSites true ts := by
  obtain ⟨n, ls, htype⟩ := m.type.exists_lexemes
  obtain ⟨code, hcode⟩ : ∃ code, located c m.codeLexemes = c.tokenAt .word n.text :: code := by
    rw [located_codeLexemes, htype]
    exact ⟨_, rfl⟩
  have hinert := m.isInert_located c
  have hread := read_inert hinert (s := (c.past m.codeLexemes).tokenAt .mark [';']) rfl none
    ((m.trailing? c).toList ++ ts)
  have hcomments : ∀ t ∈ (m.trailing? c).toList, t.isComment = true := fun t ht =>
    (m.firstOnLine_trailing c t (Option.mem_toList.1 ht)).1
  have htrailing : Declaration.trailing? ((m.trailing? c).toList ++ ts) = m.trailing? c := by
    cases h : m.trailing? c with
    | none => exact trailing?_append hts []
    | some t =>
      obtain ⟨hcomment, hfirst⟩ := m.firstOnLine_trailing c t h
      simp [Declaration.trailing?, hcomment, hfirst]
  -- the first word of a type is an identifier, and the access keywords are none
  have hlabel : ∀ us, accessLabel? (c.tokenAt .word n.text) us = none := by
    intro us
    have hkeyword : ∀ s ∈ accessKeywords, (c.tokenAt .word n.text).reads s = false := fun s hs =>
      IsPart.reads (.inl ⟨rfl, by simpa [Cursor.tokenAt] using n.valid⟩)
        (by revert s; decide) (List.not_mem_nil (a := s))
    simp only [accessKeywords, List.forall_mem_cons] at hkeyword
    simp [accessLabel?, hkeyword]
  have hfirst := hinert _ (hcode ▸ List.mem_cons_self)
  rw [located_lexemes, List.append_assoc, List.cons_append]
  rw [hcode, List.cons_append] at hread ⊢
  rw [memberSites_cons (hfirst.2 _ (by decide)) hfirst.1 (hfirst.2 _ (by decide))
    (hlabel _) hread, htrailing, memberSites_append_comments hcomments, site, hcode]
  rfl

theorem code_site (m : MemberForm) (c : Cursor) : (m.site c).code = located c m.codeLexemes := by
  have hinert := m.isInert_located c
  have hfilter : (located c m.codeLexemes).filter (fun t => !t.isComment) =
      located c m.codeLexemes := List.filter_eq_self.2 fun t ht => by simp [(hinert t ht).1]
  rw [MemberSite.code, site, hfilter, withoutAttributes_inert hinert]

/-- The site of a line declares the member that is described. -/
theorem member?_site (m : MemberForm) (h : c.IsAt source (m.text ++ rest)) :
    (m.site c).member? source = some { m.member with line := (m.nameCursor c).line } := by
  have htags : tagText? (m.trailing? c) = m.tags.map TagWord.joined := by
    rw [trailing?, tagText?]
    cases m.tags with
    | none => rfl
    | some ws =>
      rw [Option.map_some, Option.bind_some, Option.map_some, ← memberText?_commentText ws]
      exact congrArg memberText? String.toList_ofList
  rw [MemberSite.member?, code_site, ← m.ofCode?_located h htags]
  rfl

end MemberForm

end RowMapping
