import RowMapping.Proofs.MemberLine
/-!
# A header that is laid out is read back

Reading the header of a tree of namespaces and annotated classes gives exactly these classes, in
order, each with the namespaces around it, its annotations and its members.

* `ClassForm.lexemes_text`, `Outline.lexemes_head`: the lexemes of the lines of a class and of the
  head of a namespace;
* `ClassForm.findings_located`: one class is read from its lines;
* `Outline.findings_text`: a tree is read from its lines, whatever follows;
* `Outline.declaredClasses_text`: the statement about headers.
-/

namespace RowMapping

open Declaration Text Token

/-! ### Without lines -/

/-- The member, whatever its line is. -/
def Member.withoutLine (m : Member) : Member := { m with line := 0 }

/-- The class and its members, whatever their lines are. -/
def DeclaredClass.withoutLines (c : DeclaredClass) : DeclaredClass :=
  { c with line := 0, members := c.members.map Member.withoutLine }

/-! ### Tokens that the walk over a header passes -/

namespace Token

/-- The token is a comment behind code, or it is code that opens and closes nothing. -/
def IsPassed (t : Token) : Prop :=
  (t.isComment = true ∧ t.firstOnLine = false) ∨
    (t.isComment = false ∧ t.reads "namespace" = false ∧ t.isOpen = false ∧ t.isClose = false)

theorem IsInert.isPassed {t : Token} (h : t.IsInert) : t.IsPassed :=
  .inr ⟨h.1, h.2 _ (by decide), h.2 _ (by decide), h.2 _ (by decide)⟩

end Token

section

variable {before : Option Token} {scopes : List Scope} {a ts : List Token} {t : Token}

theorem findings_code (hcomment : t.isComment = false) (hspace : t.reads "namespace" = false)
    (hopen : t.isOpen = false) (hclose : t.isClose = false) :
    findings before scopes none (t :: ts) = findings (some t) scopes none ts := by
  rw [findings.eq_def]
  simp [hcomment, hspace, hopen, hclose]

theorem findings_comment {line : TagLine} (hcomment : t.isComment = true)
    (hline : t.tagLine? = some line) :
    findings before scopes none (t :: ts) = .opened (line :: (tagRun ts).1) ::
      findings before scopes (some (line :: (tagRun ts).1)) (tagRun ts).2 := by
  rw [findings.eq_def]
  simp [hcomment, hline]

theorem findings_open (waiting : Option (List TagLine)) (h : t.isOpen = true) :
    findings before scopes waiting (t :: ts) = findings (some t) (.block :: scopes) waiting ts := by
  have hcomment : t.isComment = false := isComment_of_reads h
  have hspace : t.reads "namespace" = false := reads_of_ne h (by decide)
  rw [findings.eq_def]
  simp [hcomment, hspace, h]

theorem findings_close (waiting : Option (List TagLine)) (h : t.isClose = true) :
    findings before scopes waiting (t :: ts) = findings (some t) scopes.tail waiting ts := by
  have hcomment : t.isComment = false := isComment_of_reads h
  have hspace : t.reads "namespace" = false := reads_of_ne h (by decide)
  have hopen : t.isOpen = false := reads_of_ne h (by decide)
  rw [findings.eq_def]
  simp [hcomment, hspace, hopen, h]

/-- The head of a class takes the block that waits for it. -/
theorem findings_class {k n o : Token} {block : List TagLine}
    (hk : (k.reads "struct" || k.reads "class") = true) (hn : n.kind = .word)
    (ho : o.isOpen = true) (hbefore : (before.map forbidsClass).getD false = false)
    (scopes : List Scope) (ts : List Token) :
    findings before scopes (some block) (k :: n :: o :: ts) =
      .defined ⟨n, k.reads "struct", Scope.path scopes, block, memberSites (k.reads "struct") ts⟩ ::
        findings (some o) (.block :: scopes) none ts := by
  obtain ⟨hcomment, hspace, hopen, hclose⟩ : ¬ k.isComment = true ∧ ¬ k.reads "namespace" = true ∧
      ¬ k.isOpen = true ∧ ¬ k.isClose = true := by
    simp only [Bool.not_eq_true]
    rcases Bool.or_eq_true_iff.1 hk with h | h <;>
      exact ⟨isComment_of_reads h, reads_of_ne h (by decide), reads_of_ne h (by decide),
        reads_of_ne h (by decide)⟩
  have hbrace : o.reads "\x7b" = true := ho
  have hbody : bodyOf? 0 (o :: ts) = some (o :: ts) := by
    rw [bodyOf?]
    simp [reads_of_ne hbrace, hbrace]
  have hhead : classHead? before (n :: o :: ts) = some (n, o :: ts) := by
    simp [classHead?, hbefore, hn, reads_of_ne hbrace, hbody]
  rw [findings.eq_def]
  dsimp only
  rw [if_neg hcomment, if_neg hspace, if_neg hopen, if_neg hclose, if_pos hk]
  split
  · next b name body hwaiting hclass =>
    rw [hhead] at hclass
    cases hclass
    cases hwaiting
    rw [findings_open none ho]
    rfl
  · next hnone => exact (hnone _ _ _ rfl hhead).elim

theorem tagRun_nil (h : t.tagLine? = none) (ts : List Token) :
    tagRun (t :: ts) = ([], t :: ts) := by
  simp [tagRun, h]

theorem tagRun_cons {u : Token} {line : TagLine} (hline : t.tagLine? = some line)
    (h : u.tagLine? = none) (ts : List Token) : tagRun (t :: u :: ts) = ([line], u :: ts) := by
  simp [tagRun, hline, h]

/-- A walk that looks for annotations passes over tokens that open and close nothing. -/
theorem findings_passed (h : ∀ t ∈ a, t.IsPassed) (before : Option Token) (scopes : List Scope)
    (ts : List Token) :
    ∃ before', findings before scopes none (a ++ ts) = findings before' scopes none ts := by
  induction a generalizing before with
  | nil => exact ⟨before, rfl⟩
  | cons t a ih =>
    obtain ⟨ht, ha⟩ := List.forall_mem_cons.1 h
    rcases ht with ⟨hcomment, hfirst⟩ | ⟨hcomment, hspace, hopen, hclose⟩
    · obtain ⟨before', hbefore⟩ := ih ha before
      have hline : t.tagLine? = none := by simp [Token.tagLine?, hfirst]
      refine ⟨before', ?_⟩
      rw [List.cons_append, ← hbefore, findings.eq_def]
      simp [hcomment, hline]
    · obtain ⟨before', hbefore⟩ := ih ha (some t)
      exact ⟨before', by rw [List.cons_append, findings_code hcomment hspace hopen hclose, hbefore]⟩

end

/-! ### The lines of a class -/

namespace ClassForm

variable {rest : List Char} {ts : List Token} {source : List Char} {p : Cursor}

/-- The lexeme of an annotation. -/
def tagLexeme (isList : Bool) (ws : List TagWord) : Lexeme :=
  ⟨.lineComment, '/' :: '/' :: tagComment isList ws⟩

/-- The lexemes of the annotations in front of a class. -/
def tagLexemes (c : ClassForm) : List Lexeme :=
  tagLexeme false c.tags :: .newline ::
    (c.listTags.map fun ws => [tagLexeme true ws, .newline]).getD []

/-- The lexemes of the head of a class. -/
def headLexemes (c : ClassForm) : List Lexeme :=
  [⟨.word, keyword c.isStruct⟩, .space, c.name.lexeme, .space, .mark '\x7b', .newline]

/-- The lexemes of the label behind the head of a class. -/
def labelLexemes (isStruct : Bool) : List Lexeme :=
  if isStruct then [] else [⟨.word, "public".toList⟩, .mark ':', .newline]

/-- The lexemes of the body of a class, without its braces. -/
def bodyLexemes (c : ClassForm) : List Lexeme :=
  labelLexemes c.isStruct ++ c.members.flatMap MemberForm.lexemes

/-- The lexemes of a class. -/
def lexemes (c : ClassForm) : List Lexeme :=
  c.tagLexemes ++ (c.headLexemes ++ (c.bodyLexemes ++ [.mark '\x7d', .mark ';', .newline]))

theorem lexemes_tagLine (isList : Bool) (ws : List TagWord)
    (hrest : ∀ d ∈ rest.head?, isBlank d = false) :
    RowMapping.lexemes (tagLineText isList ws ++ rest) =
      tagLexeme isList ws :: .newline :: RowMapping.lexemes rest := by
  have hcomment : ∀ d ∈ tagComment isList ws, d ≠ '\n' := fun d hd heq =>
    newline_not_mem_tagComment isList ws (heq ▸ hd)
  have htext : tagLineText isList ws ++ rest =
      '/' :: '/' :: tagComment isList ws ++ '\n' :: rest := by
    simp [tagLineText]
  rw [htext, lexemes_comment hcomment, lexemes_newline hrest]
  rfl

theorem isBlank_head_members (members : List MemberForm)
    (hrest : ∀ d ∈ rest.head?, isBlank d = false) :
    ∀ d ∈ (members.flatMap MemberForm.text ++ rest).head?, isBlank d = false := by
  cases members with
  | nil => exact hrest
  | cons m members =>
    rw [List.flatMap_cons, MemberForm.text, List.append_assoc, List.append_assoc]
    exact m.type.isBlank_head _

theorem lexemes_members (members : List MemberForm)
    (hrest : ∀ d ∈ rest.head?, isBlank d = false) :
    RowMapping.lexemes (members.flatMap MemberForm.text ++ rest) =
      members.flatMap MemberForm.lexemes ++ RowMapping.lexemes rest := by
  induction members with
  | nil => rfl
  | cons m members ih =>
    rw [List.flatMap_cons, List.append_assoc,
      m.lexemes_text (isBlank_head_members members hrest), ih, List.flatMap_cons,
      List.append_assoc]

theorem isName_keyword (isStruct : Bool) : isName (keyword isStruct) = true := by
  cases isStruct <;> decide

theorem lexemes_label (isStruct : Bool) (hrest : ∀ d ∈ rest.head?, isBlank d = false) :
    RowMapping.lexemes (labelText isStruct ++ rest) =
      labelLexemes isStruct ++ RowMapping.lexemes rest := by
  cases isStruct with
  | true => rfl
  | false =>
    have hcolon := endsWord_head_mark (c := ':') rfl ('\n' :: rest)
    have hend : ('\n' :: rest).head? ≠ some ':' := fun h => absurd (Option.some.inj h) (by decide)
    have htext : labelText false ++ rest = "public".toList ++ ':' :: '\n' :: rest := rfl
    rw [htext, lexemes_name (by decide) hcolon, lexemes_colon hend, lexemes_newline hrest]
    rfl

theorem isBlank_head_label (isStruct : Bool) (hrest : ∀ d ∈ rest.head?, isBlank d = false) :
    ∀ d ∈ (labelText isStruct ++ rest).head?, isBlank d = false := by
  cases isStruct with
  | true => exact hrest
  | false =>
    rintro _ ⟨⟩
    rfl

theorem lexemes_tags (c : ClassForm) (hrest : ∀ d ∈ rest.head?, isBlank d = false) :
    RowMapping.lexemes (tagLineText false c.tags ++
        ((c.listTags.map (tagLineText true)).getD [] ++ rest)) =
      c.tagLexemes ++ RowMapping.lexemes rest := by
  rw [tagLexemes]
  cases c.listTags with
  | none => exact lexemes_tagLine false c.tags hrest
  | some ws =>
    have hline : ∀ d ∈ (tagLineText true ws ++ rest).head?, isBlank d = false := by
      rintro _ ⟨⟩
      rfl
    show RowMapping.lexemes (tagLineText false c.tags ++ (tagLineText true ws ++ rest)) = _
    rw [lexemes_tagLine false c.tags hline, lexemes_tagLine true ws hrest]
    rfl

/-- The lines of a class are cut into its lexemes. -/
theorem lexemes_text (c : ClassForm) (hrest : ∀ d ∈ rest.head?, isBlank d = false) :
    RowMapping.lexemes (c.text ++ rest) = c.lexemes ++ RowMapping.lexemes rest := by
  have hclose : ∀ d ∈ ('\x7d' :: ';' :: '\n' :: rest).head?, isBlank d = false := by
    rintro _ ⟨⟩
    rfl
  have hbody := isBlank_head_label c.isStruct (isBlank_head_members c.members hclose)
  have hkeyword := endsWord_head_mark (c := ' ') rfl (c.name.text ++ ' ' :: '\x7b' :: '\n' ::
    (labelText c.isStruct ++ (c.members.flatMap MemberForm.text ++ '\x7d' :: ';' :: '\n' :: rest)))
  have hname := endsWord_head_mark (c := ' ') rfl ('\x7b' :: '\n' ::
    (labelText c.isStruct ++ (c.members.flatMap MemberForm.text ++ '\x7d' :: ';' :: '\n' :: rest)))
  have hopen : ∀ d ∈ ('\x7b' :: '\n' :: (labelText c.isStruct ++
      (c.members.flatMap MemberForm.text ++ '\x7d' :: ';' :: '\n' :: rest))).head?,
      isBlank d = false := by
    rintro _ ⟨⟩
    rfl
  have htext : c.text ++ rest = tagLineText false c.tags ++
      ((c.listTags.map (tagLineText true)).getD [] ++ (keyword c.isStruct ++ ' ' :: (c.name.text ++
        ' ' :: '\x7b' :: '\n' :: (labelText c.isStruct ++ (c.members.flatMap MemberForm.text ++
          '\x7d' :: ';' :: '\n' :: rest))))) := by
    simp [text]
  rw [htext, c.lexemes_tags (isBlank_head_name (isName_keyword _) _),
    lexemes_name (isName_keyword _) hkeyword, lexemes_space (isBlank_head_name c.name.isName _),
    lexemes_name c.name.isName hname, lexemes_space hopen, lexemes_mark rfl, lexemes_newline hbody,
    lexemes_label c.isStruct (isBlank_head_members c.members hclose),
    lexemes_members c.members hclose, lexemes_mark rfl, lexemes_mark rfl, lexemes_newline hrest,
    lexemes, headLexemes, bodyLexemes]
  simp [Lexeme.mark, Identifier.lexeme]

/-! ### The body of a class -/

/-- In a body, each line is the site of its member. -/
theorem memberSites_members (members : List MemberForm) (p : Cursor)
    (h : p.IsAt source (members.flatMap MemberForm.text ++ rest))
    (hts : ∀ t ∈ ts.head?, t.isComment = false) :
    (∀ t ∈ (located p (members.flatMap MemberForm.lexemes) ++ ts).head?, t.isComment = false) ∧
      ∃ sites, memberSites true (located p (members.flatMap MemberForm.lexemes) ++ ts) =
          sites ++ memberSites true ts ∧
        (sites.filterMap (MemberSite.member? source)).map Member.withoutLine =
          members.map MemberForm.member := by
  induction members generalizing p with
  | nil => exact ⟨hts, [], rfl, rfl⟩
  | cons m members ih =>
    rw [List.flatMap_cons, List.append_assoc] at h
    have hflat : m.lexemes.flatMap Lexeme.text = m.text := by
      have hend : ∀ d ∈ ([] : List Char).head?, isBlank d = false := by rintro _ ⟨⟩
      exact flatMap_text_of_lexemes (m.lexemes_text hend)
    obtain ⟨hhead, sites, hsites, hmembers⟩ := ih (p.past m.lexemes) (h.past hflat)
    have hlocated : located p ((m :: members).flatMap MemberForm.lexemes) ++ ts =
        located p m.lexemes ++
          (located (p.past m.lexemes) (members.flatMap MemberForm.lexemes) ++ ts) := by
      rw [List.flatMap_cons, Cursor.located_append, List.append_assoc]
    rw [hlocated]
    refine ⟨?_, m.site p :: sites, ?_, ?_⟩
    · obtain ⟨n, ls, htype⟩ := m.type.exists_lexemes
      rw [MemberForm.located_lexemes, MemberForm.located_codeLexemes, htype]
      rintro _ ⟨⟩
      rfl
    · rw [m.memberSites_located p hhead, hsites, List.cons_append]
    · rw [List.filterMap_cons_some (m.member?_site h), List.map_cons, hmembers, List.map_cons]
      rfl

theorem isPassed_member (m : MemberForm) (p : Cursor) : ∀ t ∈ located p m.lexemes, t.IsPassed := by
  rw [m.located_lexemes]
  refine List.forall_mem_append.2 ⟨fun t ht => (m.isInert_located p t ht).isPassed, ?_⟩
  refine List.forall_mem_cons.2 ⟨.inr ⟨rfl, rfl, rfl, rfl⟩, fun t ht => ?_⟩
  exact .inl (m.firstOnLine_trailing p t (Option.mem_toList.1 ht))

theorem isPassed_body (c : ClassForm) (p : Cursor) : ∀ t ∈ located p c.bodyLexemes, t.IsPassed := by
  have hmembers : ∀ (members : List MemberForm) (p : Cursor),
      ∀ t ∈ located p (members.flatMap MemberForm.lexemes), t.IsPassed := by
    intro members
    induction members with
    | nil => exact fun p => List.forall_mem_nil _
    | cons m members ih =>
      intro p
      rw [List.flatMap_cons, Cursor.located_append]
      exact List.forall_mem_append.2 ⟨isPassed_member m p, ih _⟩
  rw [bodyLexemes, Cursor.located_append]
  refine List.forall_mem_append.2 ⟨?_, hmembers _ _⟩
  unfold labelLexemes
  cases c.isStruct with
  | true => exact List.forall_mem_nil _
  | false =>
    refine List.forall_mem_cons.2 ⟨.inr ⟨rfl, rfl, rfl, rfl⟩, ?_⟩
    exact List.forall_mem_singleton.2 (.inr ⟨rfl, rfl, rfl, rfl⟩)

/-- The sites of a class are those of its members, whatever the lines behind the class are. -/
theorem memberSites_body (c : ClassForm) (p : Cursor)
    (h : p.IsAt source (labelText c.isStruct ++ (c.members.flatMap MemberForm.text ++ rest)))
    {u : Token} (hu : u.isClose = true) (ts : List Token) :
    ((memberSites c.isStruct (located p c.bodyLexemes ++ u :: ts)).filterMap
        (MemberSite.member? source)).map Member.withoutLine = c.members.map MemberForm.member := by
  have hstop : memberSites true (u :: ts) = [] := by rw [memberSites, if_pos hu]
  have hlabel : (labelLexemes c.isStruct).flatMap Lexeme.text = labelText c.isStruct := by
    cases c.isStruct <;> rfl
  obtain ⟨-, sites, hsites, hmembers⟩ :=
    memberSites_members c.members (p.past (labelLexemes c.isStruct)) (h.past hlabel)
      (isComment_head_close hu ts)
  rw [hstop, List.append_nil] at hsites
  have hbody : memberSites c.isStruct (located p c.bodyLexemes ++ u :: ts) = sites := by
    rw [← hsites, bodyLexemes, Cursor.located_append, List.append_assoc]
    cases c.isStruct with
    | true => rfl
    | false => exact memberSites_label rfl rfl false _
  rw [hbody, hmembers]

/-! ### A class is read from its lines -/

/-- The annotation lines in front of a class. -/
def block (c : ClassForm) : List TagLine :=
  ⟨false, TagWord.joined c.tags⟩ ::
    (c.listTags.map fun ws => (⟨true, TagWord.joined ws⟩ : TagLine)).toList

theorem tagLine?_tokenAt (hp : p.IsFresh) (isList : Bool) (ws : List TagWord) :
    (p.tokenAt .comment ('/' :: '/' :: tagComment isList ws)).tagLine? =
      some ⟨isList, TagWord.joined ws⟩ := by
  have hcomment : (p.tokenAt .comment ('/' :: '/' :: tagComment isList ws)).isComment = true := rfl
  have htext : (p.tokenAt .comment ('/' :: '/' :: tagComment isList ws)).text =
      String.ofList ('/' :: '/' :: tagComment isList ws) := rfl
  rw [Token.tagLine?, hcomment, hp.firstOnLine, Bool.and_self, if_pos rfl, htext,
    String.toList_ofList, ofComment?_tagComment]

/-- The place behind the line of an annotation is in front of everything on its line. -/
theorem isFresh_tagLine (p : Cursor) (isList : Bool) (ws : List TagWord) :
    ((p.pass (tagLexeme isList ws)).pass .newline).IsFresh := by
  have hcomment : (tagLexeme isList ws).shape ≠ .blank := by simp [tagLexeme]
  exact (Cursor.isBehindCode_pass hcomment).pass_newline

/-- The annotations in front of a class open a block. -/
theorem findings_tags (c : ClassForm) (hp : p.IsFresh) (before : Option Token)
    (scopes : List Scope) {t : Token} (ht : t.isComment = false) (ts : List Token) :
    findings before scopes none (located p c.tagLexemes ++ t :: ts) =
      .opened c.block :: findings before scopes (some c.block) (t :: ts) := by
  have hstop : t.tagLine? = none := by simp [Token.tagLine?, ht]
  have hfirst := tagLine?_tokenAt hp false c.tags
  rw [tagLexemes, block]
  cases c.listTags with
  | none =>
    have hlocated : located p (tagLexeme false c.tags :: .newline ::
        ((none : Option (List TagWord)).map fun ws => [tagLexeme true ws, .newline]).getD []) ++
          t :: ts = p.tokenAt .comment ('/' :: '/' :: tagComment false c.tags) :: t :: ts := rfl
    rw [hlocated, findings_comment rfl hfirst, tagRun_nil hstop]
    rfl
  | some ws =>
    have hsecond := tagLine?_tokenAt (isFresh_tagLine p false c.tags) true ws
    have hruns := tagRun_cons hsecond hstop ts
    have hlocated : located p (tagLexeme false c.tags :: .newline ::
        ((some ws).map fun ws => [tagLexeme true ws, .newline]).getD []) ++ t :: ts =
        p.tokenAt .comment ('/' :: '/' :: tagComment false c.tags) ::
          ((p.pass (tagLexeme false c.tags)).pass .newline).tokenAt .comment
            ('/' :: '/' :: tagComment true ws) :: t :: ts := rfl
    rw [hlocated, findings_comment rfl hfirst, hruns]
    rfl

theorem flatMap_tagLexemes (c : ClassForm) : c.tagLexemes.flatMap Lexeme.text =
    tagLineText false c.tags ++ (c.listTags.map (tagLineText true)).getD [] := by
  unfold tagLexemes
  cases c.listTags <;> simp [tagLexeme, tagLineText, Lexeme.newline]

theorem flatMap_headLexemes (c : ClassForm) : c.headLexemes.flatMap Lexeme.text =
    keyword c.isStruct ++ ' ' :: (c.name.text ++ [' ', '\x7b', '\n']) := by
  simp [headLexemes, Lexeme.space, Lexeme.newline, Lexeme.mark, Identifier.lexeme]

theorem reads_keyword (isStruct : Bool) (p : Cursor) :
    (p.tokenAt .word (keyword isStruct)).reads "struct" = isStruct ∧
      ((p.tokenAt .word (keyword isStruct)).reads "struct" ||
        (p.tokenAt .word (keyword isStruct)).reads "class") = true := by
  cases isStruct <;> exact ⟨rfl, rfl⟩

/-- The place in front of the body of a class. -/
def bodyCursor (c : ClassForm) (p : Cursor) : Cursor := (p.past c.tagLexemes).past c.headLexemes

theorem isAt_bodyCursor (c : ClassForm) (h : p.IsAt source (c.text ++ rest)) :
    (c.bodyCursor p).IsAt source (labelText c.isStruct ++ (c.members.flatMap MemberForm.text ++
      '\x7d' :: ';' :: '\n' :: rest)) := by
  have htext : c.text ++ rest =
      (tagLineText false c.tags ++ (c.listTags.map (tagLineText true)).getD []) ++
        ((keyword c.isStruct ++ ' ' :: (c.name.text ++ [' ', '\x7b', '\n'])) ++
          (labelText c.isStruct ++ (c.members.flatMap MemberForm.text ++
            '\x7d' :: ';' :: '\n' :: rest))) := by
    simp [text]
  rw [htext] at h
  exact (h.past c.flatMap_tagLexemes).past c.flatMap_headLexemes

theorem located_lexemes (c : ClassForm) (p : Cursor) (ts : List Token) :
    ∃ k n o u v : Token, located p c.lexemes ++ ts = located p c.tagLexemes ++
        k :: n :: o :: (located (c.bodyCursor p) c.bodyLexemes ++ u :: v :: ts) ∧
      (k.reads "struct" = c.isStruct ∧ (k.reads "struct" || k.reads "class") = true) ∧
      (n.kind = .word ∧ n.text = String.ofList c.name.text) ∧ o.isOpen = true ∧ u.isClose = true ∧
      v.reads ";" = true := by
  let head := p.past c.tagLexemes
  let name := (head.pass ⟨.word, keyword c.isStruct⟩).pass .space
  let opening := (name.pass c.name.lexeme).pass .space
  let closing := (c.bodyCursor p).past c.bodyLexemes
  refine ⟨head.tokenAt .word (keyword c.isStruct), name.tokenAt .word c.name.text,
    opening.tokenAt .mark ['\x7b'], closing.tokenAt .mark ['\x7d'],
    (closing.pass (.mark '\x7d')).tokenAt .mark [';'], ?_, reads_keyword _ _, ⟨rfl, rfl⟩, rfl, rfl,
    rfl⟩
  rw [lexemes, Cursor.located_append, Cursor.located_append, Cursor.located_append,
    List.append_assoc, List.append_assoc, List.append_assoc]
  rfl

/-- A class is read from its lines, whatever the lines behind it are. -/
theorem findings_located (c : ClassForm) (hp : p.IsFresh)
    (h : p.IsAt source (c.text ++ rest)) {before : Option Token}
    (hbefore : (before.map forbidsClass).getD false = false) (scopes : List Scope)
    (ts : List Token) :
    ∃ site v, findings before scopes none (located p c.lexemes ++ ts) =
        .opened c.block :: .defined site :: findings (some v) scopes none ts ∧
      forbidsClass v = false ∧
      (site.declared source).withoutLines = c.declared (Scope.path scopes) := by
  obtain ⟨k, n, o, u, v, hlocated, ⟨hstruct, hkeyword⟩, ⟨hn, hname⟩, ho, hu, hv⟩ :=
    c.located_lexemes p ts
  have hk : k.isComment = false := by
    rcases Bool.or_eq_true_iff.1 hkeyword with h | h <;> exact isComment_of_reads h
  obtain ⟨before', hbody⟩ := findings_passed (c.isPassed_body (c.bodyCursor p)) (some o)
    (.block :: scopes) (u :: v :: ts)
  have hmembers := c.memberSites_body (c.bodyCursor p) (c.isAt_bodyCursor h) hu (v :: ts)
  refine ⟨⟨n, c.isStruct, Scope.path scopes, c.block, memberSites c.isStruct
    (located (c.bodyCursor p) c.bodyLexemes ++ u :: v :: ts)⟩, v, ?_, ?_, ?_⟩
  · rw [hlocated, c.findings_tags hp before scopes hk, findings_class hkeyword hn ho hbefore, hbody,
      findings_close none hu, findings_code (isComment_of_reads hv) (reads_of_ne hv (by decide))
        (reads_of_ne hv (by decide)) (reads_of_ne hv (by decide)), hstruct]
    rfl
  · simp [forbidsClass, reads_of_ne hv]
  · rw [DeclaredClass.withoutLines, ClassSite.declared, declared, hname, hmembers, block]
    cases c.listTags <;> simp [TagLine.blockTags, TagLine.tags]

theorem isFresh_past (c : ClassForm) (p : Cursor) : (p.past c.lexemes).IsFresh := by
  have hmark : (Lexeme.mark ';').shape ≠ .blank := by decide
  simp only [lexemes, Cursor.past_append, Cursor.past_cons, Cursor.past_nil]
  exact (Cursor.isBehindCode_pass hmark).pass_newline

theorem flatMap_text (c : ClassForm) : c.lexemes.flatMap Lexeme.text = c.text := by
  have hend : ∀ d ∈ ([] : List Char).head?, isBlank d = false := by rintro _ ⟨⟩
  exact flatMap_text_of_lexemes (c.lexemes_text hend)

end ClassForm

/-! ### Trees -/

namespace QualifiedName

theorem namespaceHead_name (n : Identifier) (p : Cursor) (name : String) (ts : List Token) :
    namespaceHead name (p.tokenAt .word n.text :: ts) =
      namespaceHead (name ++ String.ofList n.text) ts := by
  have hopen : ¬ (p.tokenAt .word n.text).reads "\x7b" = true := by
    refine Bool.eq_false_iff.1 (IsPart.reads (.inl ⟨rfl, ?_⟩) (by decide) List.not_mem_nil)
    simpa [Cursor.tokenAt] using n.valid
  have hword : ((p.tokenAt .word n.text).kind == .word ||
      (p.tokenAt .word n.text).reads "::") = true := rfl
  rw [namespaceHead, if_neg hopen, if_pos hword]
  rfl

theorem namespaceHead_more (more : List Identifier) (p : Cursor) (name : String) {o : Token}
    (ho : o.isOpen = true) (ts : List Token) :
    namespaceHead name (located p (moreLexemes more) ++ o :: ts) =
      (some (name ++ String.ofList (more.flatMap fun n => ':' :: ':' :: n.text)), ts) := by
  induction more generalizing p name with
  | nil =>
    have hopen : o.reads "\x7b" = true := ho
    show namespaceHead name (o :: ts) = _
    rw [namespaceHead, if_pos hopen, List.flatMap_nil, String.ofList_nil, String.append_empty]
  | cons n more ih =>
    show namespaceHead (name ++ String.ofList [':', ':']) (Cursor.tokenAt _ .word n.text ::
      (located _ (moreLexemes more) ++ o :: ts)) = _
    rw [namespaceHead_name, ih, List.flatMap_cons, String.append_assoc, String.append_assoc,
      ← String.ofList_append, ← String.ofList_append]
    rfl

/-- The name of a namespace is read from the tokens of its head. -/
theorem namespaceHead_located (q : QualifiedName) (p : Cursor) {o : Token}
    (ho : o.isOpen = true) (ts : List Token) :
    namespaceHead "" (located p q.lexemes ++ o :: ts) = (some (String.ofList q.text), ts) := by
  show namespaceHead ""
    (p.tokenAt .word q.first.text :: (located _ (moreLexemes q.more) ++ o :: ts)) = _
  rw [namespaceHead_name, namespaceHead_more _ _ _ ho, String.empty_append, ← String.ofList_append]
  rfl

end QualifiedName

namespace Outline

variable {source rest : List Char} {p : Cursor} {before : Option Token}

/-- The lexemes of the head of a namespace. -/
def headLexemes (name : QualifiedName) : List Lexeme :=
  ⟨.word, keyword⟩ :: .space :: (name.lexemes ++ [.space, .mark '\x7b', .newline])

theorem isBlank_head (o : Outline) (hrest : ∀ d ∈ rest.head?, isBlank d = false) :
    ∀ d ∈ (o.text ++ rest).head?, isBlank d = false := by
  cases o with
  | done => exact hrest
  | scope name inner next =>
    rintro _ ⟨⟩
    rfl
  | entry c next =>
    rintro _ ⟨⟩
    rfl

/-- The text of the head of a namespace. -/
def headText (name : QualifiedName) : List Char :=
  keyword ++ ' ' :: (name.text ++ [' ', '\x7b', '\n'])

theorem lexemes_head (name : QualifiedName) (hrest : ∀ d ∈ rest.head?, isBlank d = false) :
    lexemes (headText name ++ rest) = headLexemes name ++ lexemes rest := by
  have hkeyword := endsWord_head_mark (c := ' ') rfl (name.text ++ ' ' :: '\x7b' :: '\n' :: rest)
  have hname := endsWord_head_mark (c := ' ') rfl ('\x7b' :: '\n' :: rest)
  have hopen : ∀ d ∈ ('\x7b' :: '\n' :: rest).head?, isBlank d = false := by
    rintro _ ⟨⟩
    rfl
  have htext : headText name ++ rest =
      keyword ++ ' ' :: (name.text ++ ' ' :: '\x7b' :: '\n' :: rest) := by
    simp [headText]
  rw [htext, lexemes_name (by decide) hkeyword, lexemes_space (name.isBlank_head _),
    name.lexemes_text hname, lexemes_space hopen, lexemes_mark rfl, lexemes_newline hrest,
    headLexemes]
  simp [Lexeme.mark]

theorem isFresh_past_head (name : QualifiedName) (p : Cursor) :
    (p.past (headLexemes name)).IsFresh := by
  have hmark : (Lexeme.mark '\x7b').shape ≠ .blank := by decide
  simp only [headLexemes, Cursor.past_cons, Cursor.past_append, Cursor.past_nil]
  exact (Cursor.isBehindCode_pass hmark).pass_newline

/-- The scopes in some namespaces, the outermost of which comes first. -/
def scopesOf (around : List QualifiedName) : List Scope :=
  (around.map fun q => .named (String.ofList q.text)).reverse

theorem scopesOf_concat (around : List QualifiedName) (name : QualifiedName) :
    scopesOf (around ++ [name]) = .named (String.ofList name.text) :: scopesOf around := by
  simp [scopesOf]

theorem path_scopesOf (around : List QualifiedName) :
    Scope.path (scopesOf around) = "::".intercalate (around.map fun q => String.ofList q.text) := by
  have hname : ∀ q : QualifiedName, (String.ofList q.text).isEmpty = false := fun q => by
    obtain ⟨c, cs, hfirst, -⟩ := exists_of_isName q.first.isName
    simp [QualifiedName.text, hfirst]
  rw [Scope.path, scopesOf, List.reverse_reverse, List.filterMap_map, ← List.filterMap_eq_map]
  congr 1
  refine List.filterMap_congr fun q _ => ?_
  simp [Scope.name?, hname]

/-- A walk that looks for annotations enters a namespace at its head. -/
theorem findings_head (name : QualifiedName) (p : Cursor) (before : Option Token)
    (around : List QualifiedName) (ts : List Token) :
    findings before (scopesOf around) none (located p (headLexemes name) ++ ts) =
      findings none (scopesOf (around ++ [name])) none ts := by
  obtain ⟨q, o, ho, hlocated⟩ : ∃ q o, o.isOpen = true ∧ located p (headLexemes name) ++ ts =
      p.tokenAt .word keyword :: (located q name.lexemes ++ o :: ts) := by
    let q := (p.pass ⟨.word, keyword⟩).pass .space
    refine ⟨q, ((q.past name.lexemes).pass .space).tokenAt .mark ['\x7b'], rfl, ?_⟩
    have hhead : located p (headLexemes name) = p.tokenAt .word keyword ::
        located q (name.lexemes ++ [.space, .mark '\x7b', .newline]) := rfl
    rw [hhead, Cursor.located_append, List.cons_append, List.append_assoc]
    rfl
  have hcomment : ¬ (p.tokenAt .word keyword).isComment = true := Bool.false_ne_true
  have hspace : (p.tokenAt .word keyword).reads "namespace" = true := rfl
  rw [hlocated, findings.eq_def]
  dsimp only
  rw [if_neg hcomment, if_pos hspace, name.namespaceHead_located q ho ts, scopesOf_concat]
  rfl

/-- A tree is read from its lines, whatever the lines behind it are. -/
theorem findings_text (o : Outline) (around : List QualifiedName) (hp : p.IsFresh)
    (h : p.IsAt source (o.text ++ rest)) (hrest : ∀ d ∈ rest.head?, isBlank d = false)
    (hbefore : (before.map forbidsClass).getD false = false) :
    ∃ (found : List Finding) (before' : Option Token) (p' : Cursor),
      findings before (scopesOf around) none (p.tokens (o.text ++ rest)) =
        found ++ findings before' (scopesOf around) none (p'.tokens rest) ∧
      p'.IsFresh ∧ p'.IsAt source rest ∧ (before'.map forbidsClass).getD false = false ∧
      ((found.filterMap Finding.site?).map (ClassSite.declared source)).map
        DeclaredClass.withoutLines = o.classes around := by
  induction o generalizing around p before rest with
  | done => exact ⟨[], before, p, rfl, hp, h, hbefore, rfl⟩
  | scope name inner next ihinner ihnext =>
    have hnext := next.isBlank_head hrest
    have hclose : ∀ d ∈ ('\x7d' :: '\n' :: (next.text ++ rest)).head?, isBlank d = false := by
      rintro _ ⟨⟩
      rfl
    have htext : (scope name inner next).text ++ rest =
        headText name ++ (inner.text ++ ('\x7d' :: '\n' :: (next.text ++ rest))) := by
      simp [text, headText]
    have hhead := lexemes_head name (inner.isBlank_head hclose)
    have hallows : ((none : Option Token).map forbidsClass).getD false = false := rfl
    rw [htext] at h ⊢
    obtain ⟨found, before', q, hfound, -, hat, -, hinner⟩ := ihinner (around ++ [name])
      (isFresh_past_head name p) (h.past (flatMap_text_of_lexemes hhead)) hclose hallows
    -- behind the brace that closes the namespace, its scope is left again
    have hbrace : lexemes (['\x7d', '\n'] ++ (next.text ++ rest)) =
        [.mark '\x7d', .newline] ++ lexemes (next.text ++ rest) := by
      rw [List.cons_append, lexemes_mark rfl]
      exact congrArg (Lexeme.mark '\x7d' :: ·) (lexemes_newline hnext)
    have hfresh : ((q.pass (.mark '\x7d')).pass .newline).IsFresh :=
      (Cursor.isBehindCode_pass (by decide)).pass_newline
    have hbehind : ((some (q.tokenAt .mark ['\x7d'])).map forbidsClass).getD false = false := rfl
    obtain ⟨found', before'', p', hfound', hp', hat', hbefore', hclasses⟩ := ihnext around hfresh
      (hat.past (flatMap_text_of_lexemes hbrace)) hrest hbehind
    refine ⟨found ++ found', before'', p', ?_, hp', hat', hbefore', ?_⟩
    · have hleave : findings before' (scopesOf (around ++ [name])) none
          (q.tokens ('\x7d' :: '\n' :: (next.text ++ rest))) =
            findings (some (q.tokenAt .mark ['\x7d'])) (scopesOf around) none
              (((q.pass (.mark '\x7d')).pass .newline).tokens (next.text ++ rest)) := by
        rw [show q.tokens ('\x7d' :: '\n' :: (next.text ++ rest)) = _ from
          Cursor.tokens_append hbrace q, scopesOf_concat]
        exact findings_close none rfl
      rw [Cursor.tokens_append hhead, findings_head, hfound, hleave, hfound', List.append_assoc]
    · rw [List.filterMap_append, List.map_append, List.map_append, hinner, hclasses, classes]
  | entry c next ih =>
    have hnext := next.isBlank_head hrest
    rw [text, List.append_assoc] at h ⊢
    obtain ⟨site, v, hclass, hv, hsite⟩ := c.findings_located hp h hbefore (scopesOf around)
      ((p.past c.lexemes).tokens (next.text ++ rest))
    have hbehind : ((some v).map forbidsClass).getD false = false := hv
    obtain ⟨found, before', p', hfound, hp', hat', hbefore', hclasses⟩ :=
      ih around (c.isFresh_past p) (h.past c.flatMap_text) hrest hbehind
    refine ⟨.opened c.block :: .defined site :: found, before', p', ?_, hp', hat', hbefore', ?_⟩
    · rw [Cursor.tokens_append (c.lexemes_text hnext), hclass, hfound]
      rfl
    · show (site.declared source).withoutLines :: _ = _
      rw [hclasses, hsite, path_scopesOf, classes]

/-- **A header that is laid out is read back.**  The annotated classes of the header of a tree are
those of the tree: in order, each with the namespaces around it, the tags of its annotations, and
its members with their types and initial values as they are laid out. -/
theorem declaredClasses_text (o : Outline) :
    (declaredClasses o.text).map DeclaredClass.withoutLines = o.classes [] := by
  have hend : ∀ d ∈ ([] : List Char).head?, isBlank d = false := by rintro _ ⟨⟩
  have hstart : Cursor.start.IsAt o.text (o.text ++ []) := by
    rw [List.append_nil]
    exact Cursor.isAt_start _
  have hallows : ((none : Option Token).map forbidsClass).getD false = false := rfl
  obtain ⟨found, before, p, hfound, -, -, -, hclasses⟩ :=
    findings_text o [] Cursor.isFresh_start hstart hend hallows
  have hnone : findings before (scopesOf []) none (p.tokens []) = [] := by
    rw [Cursor.tokens, lexemes_nil, located, findings.eq_def]
    rfl
  rw [hnone, List.append_nil, List.append_nil] at hfound
  rw [declaredClasses, sourceFindings, ← hclasses, ← hfound]
  rfl

end Outline

end RowMapping
