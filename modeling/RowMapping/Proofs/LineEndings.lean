import RowMapping.Proofs.LexemeForm
import RowMapping.Proofs.TokenCores
/-!
# Line endings

A header can be stored with a carriage return in front of every line end.  The lexemes are then the
same but for these carriage returns: a line comment, a directive and a literal without its closing
quote take up the one behind them, and blanks, block comments and raw strings hold those inside of
them.

* `crlf`: a text with carriage returns;
* `Lexeme.IsContinued`: a directive or a literal that goes on in the next line;
* `Lexeme.Fits.startsReturned`: the first lexeme of a text with carriage returns;
* `classSummaries_crlf`: what is said of the classes of a header does not change, when nothing is
  continued;
* `exists_classSummaries_crlf_ne`: a continued directive ends early.
-/

namespace RowMapping

open Text Lexeme

/-- The text with a carriage return in front of every line end. -/
def crlf (cs : List Char) : List Char :=
  cs.flatMap fun c => if c = '\n' then ['\r', '\n'] else [c]

section

variable {c d : Char} {cs ds p : List Char}

@[simp] theorem crlf_nil : crlf [] = [] := rfl

theorem crlf_newline (cs : List Char) : crlf ('\n' :: cs) = '\r' :: '\n' :: crlf cs := rfl

theorem crlf_cons_of_ne (hc : c ≠ '\n') (cs : List Char) : crlf (c :: cs) = c :: crlf cs := by
  rw [crlf, List.flatMap_cons, if_neg hc]
  rfl

theorem crlf_append (cs ds : List Char) : crlf (cs ++ ds) = crlf cs ++ crlf ds := List.flatMap_append

theorem crlf_of_not_mem (h : '\n' ∉ cs) : crlf cs = cs := by
  induction cs with
  | nil => rfl
  | cons c cs ih =>
    rw [List.mem_cons, not_or] at h
    rw [crlf_cons_of_ne (Ne.symm h.1), ih h.2]

theorem crlf_ne_nil (h : cs ≠ []) : crlf cs ≠ [] := by
  cases cs with
  | nil => exact absurd rfl h
  | cons c cs =>
    rw [crlf, List.flatMap_cons]
    split <;> exact List.cons_ne_nil _ _

/-- Without the carriage returns the text is as before. -/
theorem filter_crlf (h : '\r' ∉ cs) : (crlf cs).filter (· != '\r') = cs := by
  induction cs with
  | nil => rfl
  | cons c cs ih =>
    rw [List.mem_cons, not_or] at h
    by_cases hc : c = '\n'
    · subst hc
      simp [crlf_newline, ih h.2]
    · simp [crlf_cons_of_ne hc, ih h.2, Ne.symm h.1]

@[simp] theorem count_crlf (cs : List Char) : (crlf cs).count '\n' = cs.count '\n' := by
  induction cs with
  | nil => rfl
  | cons c cs ih =>
    by_cases hc : c = '\n'
    · subst hc
      simp [crlf_newline, ih]
    · simp [crlf_cons_of_ne hc, ih, hc]

theorem newlines_crlf (cs : List Char) : Cursor.newlines (crlf cs) = Cursor.newlines cs :=
  count_crlf cs

theorem mem_crlf_iff (hc : c ≠ '\r') : c ∈ crlf cs ↔ c ∈ cs := by
  have hchar : ∀ a, c ∈ (if a = '\n' then ['\r', '\n'] else [a]) ↔ c = a := by
    intro a
    split
    · next ha => simp [hc, ha]
    · exact List.mem_singleton
  simp only [crlf, List.mem_flatMap, hchar, exists_eq_right']

theorem head?_crlf (hd : d ∈ (crlf cs).head?) : d ∈ cs.head? ∨ d = '\r' ∧ cs.head? = some '\n' := by
  cases cs with
  | nil => cases hd
  | cons c cs =>
    by_cases hc : c = '\n'
    · subst hc
      cases hd
      exact .inr ⟨rfl, rfl⟩
    · rw [crlf_cons_of_ne hc] at hd
      exact .inl hd

/-- What occurs in a text with carriage returns occurs in it. -/
theorem infix_crlf_iff (hp : '\r' ∉ p) (hcs : '\r' ∉ cs) : crlf p <:+: crlf cs ↔ p <:+: cs := by
  constructor
  · intro h
    have hfilter := h.filter (· != '\r')
    rwa [filter_crlf hp, filter_crlf hcs] at hfilter
  · rintro ⟨a, b, rfl⟩
    exact ⟨crlf a, crlf b, by rw [crlf_append, crlf_append]⟩

end

/-! ### Lexemes -/

namespace Lexeme

variable {l : Lexeme} {p : Char → Bool} {text rest run tail : List Char} {quote : Char}

/-- A directive, or a literal that is not a raw string, goes on in the next line. -/
def IsContinued (l : Lexeme) : Prop :=
  '\n' ∈ l.text ∧
    (l.shape = .directive ∨ l.shape.quote?.isSome ∧ l.text.head? = l.shape.quote?)

instance (l : Lexeme) : Decidable l.IsContinued :=
  inferInstanceAs (Decidable (_ ∧ (_ ∨ _ ∧ l.text.head? = l.shape.quote?)))

/-- The second lexeme is the first one, with carriage returns that its core does not have. -/
structure Returned (l l' : Lexeme) : Prop where
  shape : l'.shape = l.shape
  newlines : Cursor.newlines l'.text = Cursor.newlines l.text
  core : ∀ kind, Token.Kind.ofShape? l.shape = some kind →
    coreText kind l'.text = coreText kind l.text

/-- The second text is the first one with carriage returns, of which the lexeme before it may have
taken up the first. -/
def Behind (rest rest' : List Char) : Prop :=
  rest' = crlf rest ∨ ∃ more, rest = '\n' :: more ∧ rest' = '\n' :: crlf more

/-- With carriage returns the text behind still starts with the lexeme, but for those that it takes
up. -/
def StartsReturned (l : Lexeme) (rest : List Char) : Prop :=
  ∃ l' rest', crlf (l.text ++ rest) = l'.text ++ rest' ∧ l'.Fits rest' ∧ l.Returned l' ∧
    Behind rest rest'

theorem returned_self (l : Lexeme) : l.Returned l := ⟨rfl, rfl, fun _ _ => rfl⟩

/-- Trivia with carriage returns. -/
theorem returned_of_trivia {shape : Shape} (hshape : Token.Kind.ofShape? shape = none)
    {text text' : List Char} (h : Cursor.newlines text' = Cursor.newlines text) :
    Returned ⟨shape, text⟩ ⟨shape, text'⟩ :=
  ⟨rfl, h, fun kind hkind => by rw [hshape] at hkind; cases hkind⟩

theorem newlines_append_return (text : List Char) :
    Cursor.newlines (text ++ ['\r']) = Cursor.newlines text := by
  simp [Cursor.newlines]

theorem IsRun.before_crlf (h : IsRun p text rest) (hp : p '\r' = false) : IsRun p text (crlf rest) := by
  refine ⟨h.1, fun d hd => ?_⟩
  rcases head?_crlf hd with hd | ⟨rfl, -⟩
  · exact h.2 d hd
  · exact hp

theorem head?_crlf_ne {d : Char} (hd : d ≠ '\r') (h : rest.head? ≠ some d) :
    (crlf rest).head? ≠ some d := fun heq =>
  (head?_crlf (Option.mem_def.2 heq)).elim (fun hmem => h hmem) fun hreturn => hd hreturn.1

/-- A lexeme that ends at the end of its line takes up a carriage return. -/
theorem startsReturned_of_line (hnewline : '\n' ∉ l.text) (h : l.Fits rest)
    (hmore : ∀ more, rest = '\n' :: more →
      Fits ⟨l.shape, l.text ++ ['\r']⟩ ('\n' :: crlf more) ∧
        Returned l ⟨l.shape, l.text ++ ['\r']⟩)
    (hend : rest.head? ≠ some '\n' → l.Fits (crlf rest)) : l.StartsReturned rest := by
  rw [StartsReturned, crlf_append, crlf_of_not_mem hnewline]
  by_cases hrest : rest.head? = some '\n'
  · obtain ⟨more, rfl⟩ := List.head?_eq_some_iff.1 hrest
    obtain ⟨hfits, hreturned⟩ := hmore more rfl
    exact ⟨_, _, by rw [crlf_newline, List.append_assoc]; rfl, hfits, hreturned,
      .inr ⟨more, rfl, rfl⟩⟩
  · exact ⟨l, _, rfl, hend hrest, returned_self l, .inl rfl⟩

theorem Halts.before_crlf (h : Halts (· == '\n') rest) (hrest : rest.head? ≠ some '\n') :
    Halts (· == '\n') (crlf rest) := by
  rcases h with rfl | h
  · exact .inl rfl
  · cases rest with
    | nil => exact .inr h
    | cons d rest => exact absurd (congrArg some (beq_iff_eq.1 (h d rfl))) hrest

theorem coreText_append_return_of_quote {kind : Token.Kind}
    (hkind : kind = .string ∨ kind = .character) {q : Char} (hq : isQuote q = true)
    (hmem : q ∈ text) : coreText kind (text ++ ['\r']) = coreText kind text := by
  have hany : text.any isQuote = true := List.any_eq_true.2 ⟨q, hmem, hq⟩
  rcases hkind with rfl | rfl <;> simp [coreText, hany]

theorem returned_comment (text : List Char) :
    Returned ⟨.lineComment, text⟩ ⟨.lineComment, text ++ ['\r']⟩ := by
  refine ⟨rfl, newlines_append_return text, fun kind hkind => ?_⟩
  cases hkind
  exact List.rdropWhile_concat_pos _ _ _ rfl

theorem returned_literal {shape : Shape} (hquote : shape.quote? = some quote) (tail : List Char) :
    Returned ⟨shape, quote :: tail⟩ ⟨shape, quote :: tail ++ ['\r']⟩ := by
  refine ⟨rfl, newlines_append_return _, fun kind hkind => ?_⟩
  refine coreText_append_return_of_quote (q := quote) ?_ ?_ List.mem_cons_self
  · cases shape <;> cases hquote <;> cases hkind <;> simp
  · cases shape <;> cases hquote <;> rfl

theorem RawTail.of_crlf (h : RawTail tail rest) (htail : '\r' ∉ tail) :
    RawTail (crlf tail) (crlf rest) := by
  have hparen : ∀ {cs : List Char}, '(' ∉ cs → '(' ∉ crlf cs := fun h hmem =>
    h ((mem_crlf_iff (by decide)).1 hmem)
  have hterminator : ∀ delimiter, terminator (crlf delimiter) =
      crlf (terminator delimiter) := fun delimiter => by
    rw [terminator, terminator, crlf_cons_of_ne (by decide), crlf_append]
    rfl
  cases h with
  | bare hrest => exact .bare (hparen hrest)
  | @closed delimiter inner hdelimiter hinner =>
    rw [crlf_append, crlf_cons_of_ne (by decide), crlf_append, ← hterminator]
    refine .closed (hparen hdelimiter) ?_ _
    simp only [List.mem_append, List.mem_cons, not_or] at htail
    have hend : '\r' ∉ terminator delimiter := htail.2.2.2
    have hdrop : (crlf (terminator delimiter)).dropLast = crlf (terminator delimiter).dropLast := by
      rw [← hterminator, terminator, terminator, List.dropLast_cons_of_ne_nil (by simp),
        List.dropLast_concat, List.dropLast_cons_of_ne_nil (by simp), List.dropLast_concat,
        crlf_cons_of_ne (by decide)]
    rw [hterminator, hdrop, ← crlf_append, infix_crlf_iff hend]
    · exact hinner
    · rw [List.mem_append, not_or]
      exact ⟨htail.2.2.1, fun hmem => hend (List.mem_of_mem_dropLast hmem)⟩
  | @unclosed delimiter inner hdelimiter hinner =>
    rw [crlf_append, crlf_cons_of_ne (by decide)]
    refine .unclosed (hparen hdelimiter) ?_
    simp only [List.mem_append, List.mem_cons, not_or] at htail
    rw [hterminator, infix_crlf_iff]
    · exact hinner
    · simp [terminator, htail.1]
    · exact htail.2.2

theorem IsRun.newline_not_mem (h : IsRun p text rest) (hp : p '\n' = false) : '\n' ∉ text :=
  fun hmem => by simpa [hp] using List.all_eq_true.1 h.1 _ hmem

theorem newline_not_mem_cons {c : Char} {q : Char → Bool} (hc : q c = true) (hq : q '\n' = false)
    (h : IsRun p text rest) (hp : p '\n' = false) : '\n' ∉ c :: text := by
  rw [List.mem_cons, not_or]
  refine ⟨?_, h.newline_not_mem hp⟩
  rintro rfl
  rw [hq] at hc
  cases hc

theorem startsReturned_of_plain (hnewline : '\n' ∉ l.text) (h : l.Fits (crlf rest)) :
    l.StartsReturned rest :=
  ⟨l, _, by rw [crlf_append, crlf_of_not_mem hnewline], h, returned_self l, .inl rfl⟩

theorem startsReturned_blank (hne : text ≠ []) (hrun : IsRun isBlank text rest) :
    StartsReturned ⟨.blank, text⟩ rest := by
  refine ⟨⟨.blank, crlf text⟩, _, crlf_append _ _, .blank (crlf_ne_nil hne) ⟨?_, fun d hd => ?_⟩,
    returned_of_trivia rfl (newlines_crlf _), .inl rfl⟩
  · refine List.all_eq_true.2 fun d hd => ?_
    by_cases hd' : d = '\r'
    · rw [hd']; rfl
    · exact List.all_eq_true.1 hrun.1 d ((mem_crlf_iff hd').1 hd)
  · rcases head?_crlf hd with hd | ⟨-, hnewline⟩
    · exact hrun.2 d hd
    · exact absurd (hrun.2 _ hnewline) (by decide)

theorem infix_crlf_end_iff (h : '\r' ∉ text) : ['*', '/'] <:+: crlf text ↔ ['*', '/'] <:+: text :=
  infix_crlf_iff (p := ['*', '/']) (by decide) h

theorem startsReturned_closedComment (hinner : ¬['*', '/'] <:+: text ++ ['*'])
    (hreturn : '\r' ∉ text) (rest : List Char) :
    StartsReturned ⟨.blockComment, '/' :: '*' :: (text ++ ['*', '/'])⟩ rest := by
  have hstar : crlf text ++ ['*'] = crlf (text ++ ['*']) := (crlf_append text ['*']).symm
  have hinner' : ¬['*', '/'] <:+: crlf text ++ ['*'] := by
    rw [hstar, infix_crlf_end_iff (by simpa using hreturn)]
    exact hinner
  refine ⟨⟨.blockComment, '/' :: '*' :: (crlf text ++ ['*', '/'])⟩, _, ?_,
    .closedComment hinner' _, returned_of_trivia rfl ?_, .inl rfl⟩
  · simp [crlf_append, crlf_cons_of_ne]
  · simp [Cursor.newlines]

theorem startsReturned_openComment (hinner : ¬['*', '/'] <:+: text) (hreturn : '\r' ∉ text) :
    StartsReturned ⟨.blockComment, '/' :: '*' :: text⟩ [] := by
  have hinner' : ¬['*', '/'] <:+: crlf text := by
    rw [infix_crlf_end_iff hreturn]
    exact hinner
  refine ⟨⟨.blockComment, '/' :: '*' :: crlf text⟩, [], ?_, .openComment hinner',
    returned_of_trivia rfl ?_, .inl rfl⟩
  · simp [crlf_cons_of_ne]
  · simp [Cursor.newlines]

theorem startsReturned_lineComment (hrun : IsRun (· != '\n') text rest) :
    StartsReturned ⟨.lineComment, '/' :: '/' :: text⟩ rest := by
  have hnewline : '\n' ∉ text := hrun.newline_not_mem rfl
  refine startsReturned_of_line (by simpa using hnewline) (.lineComment hrun)
    (fun more hmore => ⟨?_, returned_comment _⟩) fun hrest => .lineComment ⟨hrun.1, fun d hd => ?_⟩
  · have hmoreRun : IsRun (· != '\n') (text ++ ['\r']) ('\n' :: crlf more) :=
      ⟨by rw [List.all_append, hrun.1]; rfl, by rintro _ ⟨⟩; rfl⟩
    exact .lineComment hmoreRun
  · rcases head?_crlf hd with hd | ⟨-, hhead⟩
    · exact hrun.2 d hd
    · exact absurd hhead hrest

theorem startsReturned_directive (hrun : Escaped (· == '\n') run) (hhalts : Halts (· == '\n') rest)
    (hnewline : '\n' ∉ '#' :: run) : StartsReturned ⟨.directive, '#' :: run⟩ rest := by
  refine startsReturned_of_line hnewline (.directive hrun hhalts)
    (fun more hmore => ⟨?_, returned_of_trivia rfl (newlines_append_return _)⟩)
    fun hrest => .directive hrun (hhalts.before_crlf hrest)
  have hmoreRun : Escaped (· == '\n') (run ++ ['\r']) :=
    hrun.append (.plain (by decide) rfl .nil)
  exact .directive hmoreRun (.inr (by rintro _ ⟨⟩; rfl))

theorem startsReturned_literal {shape : Shape} (hquote : shape.quote? = some quote)
    (htail : LiteralTail quote tail rest) (hnewline : '\n' ∉ quote :: tail) :
    StartsReturned ⟨shape, quote :: tail⟩ rest := by
  cases htail with
  | closed hrun => exact startsReturned_of_plain hnewline (.literal hquote (.closed hrun _))
  | unclosed hrun hhalts =>
    refine startsReturned_of_line hnewline (.literal hquote (.unclosed hrun hhalts))
      (fun more hmore => ⟨?_, returned_literal hquote tail⟩)
      fun hrest => .literal hquote (.unclosed hrun (hhalts.before_crlf hrest))
    have hreturnStays : stopsLiteral quote '\r' = false := by
      cases shape <;> cases hquote <;> rfl
    have hmoreTail : LiteralTail quote (tail ++ ['\r']) ('\n' :: crlf more) :=
      .unclosed (hrun.append (.plain (by decide) hreturnStays .nil))
        (.inr (by rintro _ ⟨⟩; rfl))
    exact .literal hquote hmoreTail

theorem startsReturned_raw {marker : List Char} (hmarker : rawMarkers.contains marker = true)
    (htail : RawTail tail rest) (hreturn : '\r' ∉ tail) :
    StartsReturned ⟨.string, marker ++ '"' :: tail⟩ rest := by
  have hmarkerLine : '\n' ∉ marker := by
    have hmem : marker ∈ rawMarkers := by simpa using hmarker
    exact (by decide : ∀ marker ∈ rawMarkers, '\n' ∉ marker) marker hmem
  refine ⟨⟨.string, marker ++ '"' :: crlf tail⟩, _, ?_, .raw hmarker (htail.of_crlf hreturn),
    ⟨rfl, ?_, fun kind hkind => ?_⟩, .inl rfl⟩
  · simp [crlf_append, crlf_cons_of_ne, crlf_of_not_mem hmarkerLine]
  · simp [Cursor.newlines]
  · cases hkind
    have hany : ∀ cs, (marker ++ '"' :: cs).any isQuote = true := fun cs =>
      List.any_eq_true.2 ⟨'"', by simp, rfl⟩
    simp only [coreText, hany, if_true, List.filter_append, List.filter_cons, filter_crlf hreturn,
      List.filter_eq_self.2 fun c hc => bne_iff_ne.2 (ne_of_mem_of_not_mem hc hreturn)]

/-- The first lexeme of a text with carriage returns. -/
theorem Fits.startsReturned (h : l.Fits rest) (hreturn : '\r' ∉ l.text)
    (hline : ¬l.IsContinued) : l.StartsReturned rest := by
  cases h with
  | blank hne hrun => exact startsReturned_blank hne hrun
  | closedComment hinner =>
    exact startsReturned_closedComment hinner (fun hmem => hreturn (by simp [hmem])) rest
  | openComment hinner =>
    exact startsReturned_openComment hinner fun hmem => hreturn (by simp [hmem])
  | lineComment hrun => exact startsReturned_lineComment hrun
  | directive hrun hhalts =>
    exact startsReturned_directive hrun hhalts fun hmem => hline ⟨hmem, .inl rfl⟩
  | literal hquote htail =>
    exact startsReturned_literal hquote htail fun hmem =>
      hline ⟨hmem, .inr ⟨Option.isSome_of_mem hquote, hquote.symm⟩⟩
  | raw hmarker htail =>
    exact startsReturned_raw hmarker htail fun hmem => hreturn (by simp [hmem])
  | number hc hrun =>
    exact startsReturned_of_plain (newline_not_mem_cons hc (by decide) hrun (by decide))
      (.number hc (hrun.before_crlf (by decide)))
  | word hc hrun hraw =>
    exact startsReturned_of_plain (newline_not_mem_cons hc (by decide) hrun (by decide))
      (.word hc (hrun.before_crlf (by decide)) fun hmarker =>
        head?_crlf_ne (by decide) (hraw hmarker))
  | foreignNumber hc hascii hrun =>
    exact startsReturned_of_plain (newline_not_mem_cons hc (by decide) hrun (by decide))
      (.foreignNumber hc hascii (hrun.before_crlf (by decide)))
  | doubleColon => exact startsReturned_of_plain (by decide) (.doubleColon _)
  | colon hcolon =>
    exact startsReturned_of_plain (by decide) (.colon (head?_crlf_ne (by decide) hcolon))
  | slash hstar hslash =>
    exact startsReturned_of_plain (by decide)
      (.slash (head?_crlf_ne (by decide) hstar) (head?_crlf_ne (by decide) hslash))
  | @mark c hc =>
    refine startsReturned_of_plain ?_ (.mark hc _)
    rw [List.mem_singleton]
    rintro rfl
    exact absurd hc (by decide)

end Lexeme

/-! ### Tokens -/

section

variable {c c' : Cursor} {l l' : Lexeme} {cs : List Char}

/-- Of a place, the cores of tokens keep the lines only. -/
def Cursor.SameLines (c c' : Cursor) : Prop := c.line = c'.line ∧ c.contentLine = c'.contentLine

theorem Cursor.SameLines.pass (h : c.SameLines c') (hl : l.Returned l') :
    (c.pass l).SameLines (c'.pass l') := by
  obtain ⟨hline, hcontent⟩ := h
  refine ⟨?_, ?_⟩ <;> simp only [Cursor.pass, hl.shape, hl.newlines, hline, hcontent]

theorem Cursor.SameLines.token (h : c.SameLines c') (hl : l.Returned l') :
    cores (c.token? l).toList = cores (c'.token? l').toList := by
  obtain ⟨hline, hcontent⟩ := h
  rw [Cursor.token?, Cursor.token?, hl.shape]
  cases hkind : Token.Kind.ofShape? l.shape with
  | none => rfl
  | some kind => simp [cores, Token.core, hl.core kind hkind, hline, hcontent]

theorem cores_located_congr (h : c.SameLines c') (ls : List Lexeme) :
    cores (located c ls) = cores (located c' ls) := by
  induction ls generalizing c c' with
  | nil => rfl
  | cons l ls ih =>
    rw [located, located, cores_append, cores_append, h.token (returned_self l),
      ih (h.pass (returned_self l))]

/-- A carriage return in front of a line end is one of the blanks there. -/
theorem cores_located_return (h : c.SameLines c') (cs : List Char) :
    cores (located c (lexemes ('\n' :: cs))) = cores (located c' (lexemes ('\r' :: '\n' :: cs))) := by
  have hblank : ∀ front : List Char, front ≠ [] → front.all isBlank = true → lexemes (front ++ cs) =
      ⟨.blank, front ++ cs.takeWhile isBlank⟩ :: lexemes (cs.dropWhile isBlank) := by
    intro front hne hall
    have hrun : IsRun isBlank (front ++ cs.takeWhile isBlank) (cs.dropWhile isBlank) :=
      ⟨by rw [List.all_append, hall, List.all_takeWhile]; rfl, (isRun_takeWhile isBlank cs).2⟩
    rw [← (Fits.blank (List.append_ne_nil_of_left_ne_nil hne _) hrun).lexemes_append,
      List.append_assoc, List.takeWhile_append_dropWhile]
  have hreturned : Returned ⟨.blank, '\n' :: cs.takeWhile isBlank⟩
      ⟨.blank, '\r' :: '\n' :: cs.takeWhile isBlank⟩ := returned_of_trivia rfl (by simp [Cursor.newlines])
  have hnewline := hblank ['\n'] (List.cons_ne_nil _ _) rfl
  have hreturn := hblank ['\r', '\n'] (List.cons_ne_nil _ _) rfl
  simp only [List.cons_append, List.nil_append] at hnewline hreturn
  rw [hnewline, hreturn, located, located]
  exact cores_located_congr (h.pass hreturned) _

/-- The tokens of a text with carriage returns have the same cores. -/
theorem cores_located_crlf (hreturn : '\r' ∉ cs) (hline : ∀ l ∈ lexemes cs, ¬l.IsContinued)
    (h : c.SameLines c') :
    cores (located c (lexemes cs)) = cores (located c' (lexemes (crlf cs))) := by
  induction cs using lexemes.induct generalizing c c' with
  | case1 => rw [crlf_nil, lexemes_nil]; rfl
  | case2 d cs ih =>
    have happend := first_append d cs
    rw [lexemes_cons] at hline ⊢
    obtain ⟨hfirst, hrest⟩ := List.forall_mem_cons.1 hline
    rw [← happend, List.mem_append, not_or] at hreturn
    obtain ⟨l', rest', hcrlf, hfits, hl, hbehind⟩ := (fits_first d cs).startsReturned hreturn.1 hfirst
    rw [← happend, hcrlf, hfits.lexemes_append, located, located, cores_append, cores_append,
      h.token hl]
    congr 1
    rcases hbehind with rfl | ⟨more, hmore, rfl⟩
    · exact ih hreturn.2 hrest (h.pass hl)
    · rw [ih hreturn.2 hrest (h.pass hl), hmore, crlf_newline]
      exact (cores_located_return ⟨rfl, rfl⟩ (crlf more)).symm

end

/-- **Line ends may be written with carriage returns.**  When a header holds no carriage return and
no directive or literal in it goes on in the next line, a carriage return in front of every line end
changes nothing that the header says of its classes, but for initial values and the types that hold
a literal. -/
theorem classSummaries_crlf {source : List Char} (hreturn : '\r' ∉ source)
    (hline : ∀ l ∈ lexemes source, ¬l.IsContinued) :
    classSummaries (crlf source) = classSummaries source :=
  (classSummaries_eq_of_cores (cores_located_crlf hreturn hline ⟨rfl, rfl⟩)).symm

/-- A header with a directive, tags above a class and behind a member, and a raw string of two lines. -/
def noteHeader : List Char := (
  "#pragma once\n" ++
  "// @relais table=notes\n" ++
  "struct Note \x7b\n" ++
  "  int id; // @relais primary_key\n" ++
  "  auto x = R\"(a\nb)\";\n" ++
  "\x7d;\n").toList

/-- With carriage returns the same is said of its class. -/
theorem classSummaries_crlf_note : '\r' ∉ noteHeader ∧ (∀ l ∈ lexemes noteHeader, ¬l.IsContinued) ∧
    classSummaries (crlf noteHeader) = [{
      name := "Note"
      scope := ""
      isStruct := true
      line := 3
      tags := [.table "notes"]
      members := [⟨"id", 4, ⟨[.primaryKey], none, [], [], []⟩, some "int"⟩,
        ⟨"x", 5, {}, some "auto"⟩] }] := by
  have hsource : noteHeader = _ :=
    toList_append_of_eq (toList_append_of_eq (toList_append_of_eq (toList_append_of_eq
      (toList_append_of_eq String.toList_ofList String.toList_ofList) String.toList_ofList)
      String.toList_ofList) String.toList_ofList) String.toList_ofList
  have hreturn : '\r' ∉ noteHeader := by rw [hsource]; decide +kernel
  have hline : ∀ l ∈ lexemes noteHeader, ¬l.IsContinued := by rw [hsource]; decide +kernel
  refine ⟨hreturn, hline, ?_⟩
  rw [classSummaries_crlf hreturn hline, hsource]
  decide +kernel

/-- A header in which a directive of two lines defines how a namespace is opened. -/
def macroHeader : List Char := (
  "#define BEGIN_MODELS \\\n" ++
  "    namespace app \x7b\n" ++
  "// @relais table=users\n" ++
  "struct User \x7b\n" ++
  "    int64_t id;\n" ++
  "\x7d;\n").toList

/-- Behind a carriage return the second line of a directive is read as code, so that the class seems
to lie in a namespace. -/
theorem exists_classSummaries_crlf_ne : ∃ source, '\r' ∉ source ∧
    classSummaries (crlf source) ≠ classSummaries source ∧
    (classSummaries source).map ClassSummary.scope = [""] ∧
    (classSummaries (crlf source)).map ClassSummary.scope = ["app"] := by
  have hsource : macroHeader = _ :=
    toList_append_of_eq (toList_append_of_eq (toList_append_of_eq (toList_append_of_eq
      (toList_append_of_eq String.toList_ofList String.toList_ofList) String.toList_ofList)
      String.toList_ofList) String.toList_ofList) String.toList_ofList
  have hreturn : '\r' ∉ macroHeader := by rw [hsource]; decide +kernel
  have hscope : (classSummaries macroHeader).map ClassSummary.scope = [""] := by
    rw [hsource]
    decide +kernel
  have hscope' : (classSummaries (crlf macroHeader)).map ClassSummary.scope = ["app"] := by
    rw [hsource]
    decide +kernel
  refine ⟨macroHeader, hreturn, fun heq => ?_, hscope, hscope'⟩
  rw [heq, hscope] at hscope'
  exact absurd hscope' (by decide)

end RowMapping
