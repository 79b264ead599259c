import Mathlib.Data.List.Basic
import Mathlib.Tactic.SplitIfs
import RowMapping.Token.Stream
/-!
# Texts that are cut as they are written

A text that is written lexeme by lexeme is cut into these lexemes again, when each of them ends where
its own rule ends it.  What decides is the character behind a lexeme.

* `endsWord`, `lexemes_word`, `lexemes_number`, `lexemes_quoted`, `lexemes_comment`, `lexemes_blank`,
  `lexemes_mark`: the first lexeme, from its characters and the character behind it;
* `Cursor.past`, `Cursor.tokens`: the place behind some lexemes, and the tokens of a text from a
  place on;
* `Cursor.IsAt`: a place lies in front of a part of the source;
* `Cursor.IsFresh`, `Cursor.IsBehindCode`: nothing, or something, precedes a place on its line.
-/

namespace RowMapping

open Text

/-! ### The first lexeme -/

section

variable {c : Char} {cs rest : List Char}

/-- A character that ends a word in front of it. -/
def endsWord (c : Char) : Bool := !isNamePart c && c != '"'

/-- A character with which no lexeme of several characters starts. -/
def isMark (c : Char) : Bool :=
  !(c == '/' || c == '#' || c == '"' || c == '\'' || isDigit c || isNameStart c || c == ':' ||
    isBlank c)

theorem takeWhile_append_of_stop {p : Char → Bool} (hcs : cs.all p = true)
    (hrest : ∀ d ∈ rest.head?, p d = false) : (cs ++ rest).takeWhile p = cs := by
  rw [List.takeWhile_append_of_pos (List.all_eq_true.1 hcs)]
  cases rest with
  | nil => simp
  | cons d rest => simp [hrest d rfl]

theorem dropWhile_append_of_stop {p : Char → Bool} (hcs : cs.all p = true)
    (hrest : ∀ d ∈ rest.head?, p d = false) : (cs ++ rest).dropWhile p = rest := by
  rw [List.dropWhile_append_of_pos (List.all_eq_true.1 hcs)]
  cases rest with
  | nil => rfl
  | cons d rest => simp [hrest d rfl]

/-- Texts with a separator between them hold the separator and their own characters. -/
theorem mem_of_mem_intercalate {sep : Char} {texts : List (List Char)}
    (h : c ∈ [sep].intercalate texts) : c = sep ∨ c ∈ texts.flatten := by
  induction texts with
  | nil => cases h
  | cons t ts ih =>
    cases ts with
    | nil => exact .inr (by simpa using h)
    | cons u ts =>
      rw [List.intercalate_cons_cons, List.mem_append, List.mem_append, List.mem_singleton] at h
      rw [List.flatten_cons, List.mem_append]
      rcases h with (h | h) | h
      · exact .inr (.inl h)
      · exact .inl h
      · exact (ih h).imp id .inr

/-- The character is none of those that are tested before letters and digits. -/
theorem ne_of_isNamePart (h : isNamePart c = true) : c ≠ '/' ∧ c ≠ '#' ∧ c ≠ '"' ∧ c ≠ '\'' := by
  refine ⟨?_, ?_, ?_, ?_⟩ <;> rintro rfl <;> exact absurd h (by decide)

theorem isDigit_of_isNameStart (h : isNameStart c = true) : isDigit c = false := by
  simp only [isNameStart, isAsciiLetter, Bool.or_eq_true, Bool.and_eq_true, decide_eq_true_eq,
    beq_iff_eq] at h
  have hc : c.toNat ≤ 127 ∧ ¬ (48 ≤ c.toNat ∧ c.toNat ≤ 57) := by
    rcases h with h | rfl
    · omega
    · decide
  simp only [isDigit, isAsciiDigit, Bool.or_eq_false_iff, Bool.and_eq_false_iff,
    decide_eq_false_iff_not]
  omega

theorem isNamePart_of_isNameStart (h : isNameStart c = true) : isNamePart c = true := by
  rw [isNamePart, h, Bool.true_or]

theorem isNamePart_of_isAsciiDigit (h : isAsciiDigit c = true) : isNamePart c = true := by
  rw [isNamePart, h, Bool.or_true]

theorem lexemes_word (hc : isNameStart c = true) (hcs : cs.all isNamePart = true)
    (hrest : ∀ d ∈ rest.head?, endsWord d = true) :
    lexemes (c :: cs ++ rest) = ⟨.word, c :: cs⟩ :: lexemes rest := by
  have hstop : ∀ d ∈ rest.head?, isNamePart d = false ∧ d ≠ '"' := fun d hd => by
    simpa [endsWord] using hrest d hd
  have hraw : Lexeme.wordOrRaw c (cs ++ rest) = (⟨.word, c :: cs⟩, rest) := by
    rw [Lexeme.wordOrRaw, takeWhile_append_of_stop hcs fun d hd => (hstop d hd).1,
      dropWhile_append_of_stop hcs fun d hd => (hstop d hd).1]
    cases rest with
    | nil => rfl
    | cons d rest =>
      simp only
      split
      · next heq => exact absurd (List.cons.inj heq).1 (hstop d rfl).2
      · rfl
  obtain ⟨h1, h2, h3, h4⟩ := ne_of_isNamePart (isNamePart_of_isNameStart hc)
  have hfirst : Lexeme.first c (cs ++ rest) = (⟨.word, c :: cs⟩, rest) := by
    simp [Lexeme.first, h1, h2, h3, h4, isDigit_of_isNameStart hc, hc, hraw]
  rw [List.cons_append, lexemes_cons, hfirst]

theorem lexemes_number (hc : isAsciiDigit c = true) (hcs : cs.all Lexeme.isNumberPart = true)
    (hrest : ∀ d ∈ rest.head?, Lexeme.isNumberPart d = false) :
    lexemes (c :: cs ++ rest) = ⟨.number, c :: cs⟩ :: lexemes rest := by
  obtain ⟨h1, h2, h3, h4⟩ := ne_of_isNamePart (isNamePart_of_isAsciiDigit hc)
  have hdigit : isDigit c = true := by rw [isDigit, hc, Bool.true_or]
  have hfirst : Lexeme.first c (cs ++ rest) = (⟨.number, c :: cs⟩, rest) := by
    simp [Lexeme.first, h1, h2, h3, h4, hdigit, hc, takeWhile_append_of_stop hcs hrest,
      dropWhile_append_of_stop hcs hrest]
  rw [List.cons_append, lexemes_cons, hfirst]

theorem escapedRun_append_of_stop {stop : Char → Bool}
    (hcs : ∀ d ∈ cs, stop d = false ∧ d ≠ '\\') (hc : stop c = true) (hslash : c ≠ '\\') :
    Lexeme.escapedRun stop (cs ++ c :: rest) = (cs, c :: rest) := by
  induction cs with
  | nil => cases rest <;> simp [Lexeme.escapedRun, hc, hslash]
  | cons d cs ih =>
    obtain ⟨⟨hstop, hd⟩, hcs⟩ := List.forall_mem_cons.1 hcs
    have hne : cs ++ c :: rest ≠ [] := by simp
    obtain ⟨e, es, hes⟩ := List.exists_cons_of_ne_nil hne
    rw [List.cons_append, hes, Lexeme.escapedRun, if_neg hd, if_neg (by simp [hstop]), ← hes,
      ih hcs]

/-- A string literal of one line without backslashes ends at its first quote. -/
theorem lexemes_quoted (hcs : ∀ d ∈ cs, d ≠ '"' ∧ d ≠ '\n' ∧ d ≠ '\\') (rest : List Char) :
    lexemes ('"' :: cs ++ '"' :: rest) = ⟨.string, '"' :: (cs ++ ['"'])⟩ :: lexemes rest := by
  have htail : Lexeme.literalTail '"' (cs ++ '"' :: rest) = (cs ++ ['"'], rest) := by
    rw [Lexeme.literalTail, escapedRun_append_of_stop (fun d hd => ?_) rfl (by decide)]
    · simp
    · obtain ⟨h1, h2, h3⟩ := hcs d hd
      simp [h1, h2, h3]
  have hfirst : Lexeme.first '"' (cs ++ '"' :: rest) = (⟨.string, '"' :: (cs ++ ['"'])⟩, rest) := by
    simp [Lexeme.first, htail]
  rw [List.cons_append, lexemes_cons, hfirst]

/-- A line comment ends with its line. -/
theorem lexemes_comment (hcs : ∀ d ∈ cs, d ≠ '\n') (rest : List Char) :
    lexemes ('/' :: '/' :: cs ++ '\n' :: rest) =
      ⟨.lineComment, '/' :: '/' :: cs⟩ :: lexemes ('\n' :: rest) := by
  have hall : cs.all (· != '\n') = true := by simpa using hcs
  have hfirst : Lexeme.first '/' ('/' :: (cs ++ '\n' :: rest)) =
      (⟨.lineComment, '/' :: '/' :: cs⟩, '\n' :: rest) := by
    rw [Lexeme.first, if_pos rfl, Lexeme.slash, takeWhile_append_of_stop hall (by simp),
      dropWhile_append_of_stop hall (by simp)]
  rw [List.cons_append, List.cons_append, lexemes_cons, hfirst]

/-- A blank in front of something else is a lexeme of its own. -/
theorem lexemes_blank (hc : c = ' ' ∨ c = '\n') (hrest : ∀ d ∈ rest.head?, isBlank d = false) :
    lexemes (c :: rest) = ⟨.blank, [c]⟩ :: lexemes rest := by
  have hall : ([] : List Char).all isBlank = true := rfl
  have htake : rest.takeWhile isBlank = [] := takeWhile_append_of_stop hall hrest
  have hdrop : rest.dropWhile isBlank = rest := dropWhile_append_of_stop hall hrest
  have hfirst : Lexeme.first c rest = (⟨.blank, [c]⟩, rest) := by
    rcases hc with rfl | rfl <;>
      simp [Lexeme.first, htake, hdrop, isDigit, isAsciiDigit, isNameStart, isAsciiLetter, isBlank]
  rw [lexemes_cons, hfirst]

theorem lexemes_mark (hc : isMark c = true) (rest : List Char) :
    lexemes (c :: rest) = ⟨.mark, [c]⟩ :: lexemes rest := by
  simp only [isMark, Bool.not_eq_true', Bool.or_eq_false_iff, beq_eq_false_iff_ne] at hc
  obtain ⟨⟨⟨⟨⟨⟨⟨h1, h2⟩, h3⟩, h4⟩, h5⟩, h6⟩, h7⟩, h8⟩ := hc
  have hfirst : Lexeme.first c rest = (⟨.mark, [c]⟩, rest) := by
    simp [Lexeme.first, h1, h2, h3, h4, h5, h6, h7, h8]
  rw [lexemes_cons, hfirst]

theorem lexemes_doubleColon (rest : List Char) :
    lexemes (':' :: ':' :: rest) = ⟨.mark, [':', ':']⟩ :: lexemes rest := by
  rw [lexemes_cons]
  rfl

theorem lexemes_colon (hrest : rest.head? ≠ some ':') :
    lexemes (':' :: rest) = ⟨.mark, [':']⟩ :: lexemes rest := by
  have hfirst : Lexeme.first ':' rest = (⟨.mark, [':']⟩, rest) := by
    have hcolon : Lexeme.colon rest = (⟨.mark, [':']⟩, rest) := by
      unfold Lexeme.colon
      split
      · simp at hrest
      · rfl
    rw [← hcolon]
    rfl
  rw [lexemes_cons, hfirst]

/-- The lexemes that are cut off in front of a text are the text in front of it. -/
theorem flatMap_text_of_lexemes {ls : List Lexeme} (h : lexemes (cs ++ rest) = ls ++ lexemes rest) :
    ls.flatMap Lexeme.text = cs := by
  have hflat := congrArg (List.flatMap Lexeme.text) h
  rw [List.flatMap_append, lexemes_flatten, lexemes_flatten] at hflat
  exact (List.append_cancel_right hflat).symm

end

/-! ### Places -/

namespace Cursor

variable {c : Cursor} {l : Lexeme} {ls : List Lexeme} {source text rest : List Char}

/-- The place behind some lexemes. -/
def past (c : Cursor) (ls : List Lexeme) : Cursor := ls.foldl pass c

@[simp] theorem past_nil (c : Cursor) : c.past [] = c := rfl

@[simp] theorem past_cons (c : Cursor) (l : Lexeme) (ls : List Lexeme) :
    c.past (l :: ls) = (c.pass l).past ls := rfl

@[simp] theorem past_append (c : Cursor) (a b : List Lexeme) :
    c.past (a ++ b) = (c.past a).past b := List.foldl_append

/-- The token of code, or comment, with a text at a place. -/
def tokenAt (c : Cursor) (kind : Token.Kind) (text : List Char) : Token where
  kind
  text := String.ofList text
  line := c.line
  column := c.column
  start := c.offset
  stop := c.offset + byteLength text
  firstOnLine := c.contentLine != c.line

/-- The tokens of a text that starts at a place. -/
def tokens (c : Cursor) (text : List Char) : List Token := located c (lexemes text)

theorem located_append (c : Cursor) (a b : List Lexeme) :
    located c (a ++ b) = located c a ++ located (c.past a) b := by
  induction a generalizing c with
  | nil => rfl
  | cons l a ih => rw [List.cons_append, located, located, ih, List.append_assoc, past_cons]

/-- The tokens of a text are those of the lexemes that are cut off, and those of the text behind
them. -/
theorem tokens_append (h : lexemes (text ++ rest) = ls ++ lexemes rest) (c : Cursor) :
    c.tokens (text ++ rest) = located c ls ++ (c.past ls).tokens rest := by
  rw [tokens, h, located_append]
  rfl

/-- The place lies in front of `rest`, which is the end of the source. -/
def IsAt (c : Cursor) (source rest : List Char) : Prop :=
  ∃ before, source = before ++ rest ∧ c.offset = byteLength before

theorem isAt_start (source : List Char) : start.IsAt source source := ⟨[], rfl, rfl⟩

theorem offset_past (c : Cursor) (ls : List Lexeme) :
    (c.past ls).offset = c.offset + byteLength (ls.flatMap Lexeme.text) := by
  induction ls generalizing c with
  | nil => rfl
  | cons l ls ih =>
    rw [past_cons, ih, List.flatMap_cons, byteLength_append, ← Nat.add_assoc]
    rfl

theorem IsAt.past (h : c.IsAt source (text ++ rest)) (htext : ls.flatMap Lexeme.text = text) :
    (c.past ls).IsAt source rest := by
  obtain ⟨before, rfl, hoffset⟩ := h
  exact ⟨before ++ text, (List.append_assoc _ _ _).symm, by
    rw [offset_past, htext, hoffset, byteLength_append]⟩

/-- The source between a place and the place behind a text is this text. -/
theorem IsAt.slice_eq (h : c.IsAt source (text ++ rest)) :
    slice c.offset (c.offset + byteLength text) source = text := by
  obtain ⟨before, rfl, hoffset⟩ := h
  rw [hoffset, ← List.append_assoc, slice_append]

/-- Nothing but blanks precedes the place on its line. -/
def IsFresh (c : Cursor) : Prop := c.contentLine < c.line

/-- Something other than blanks precedes the place on its line. -/
def IsBehindCode (c : Cursor) : Prop := c.contentLine = c.line

theorem isFresh_start : start.IsFresh := Nat.zero_lt_one

theorem IsFresh.firstOnLine (h : c.IsFresh) (kind : Token.Kind) (text : List Char) :
    (c.tokenAt kind text).firstOnLine = true := bne_iff_ne.2 (Nat.ne_of_lt h)

theorem IsBehindCode.firstOnLine (h : c.IsBehindCode) (kind : Token.Kind) (text : List Char) :
    (c.tokenAt kind text).firstOnLine = false := bne_eq_false_iff_eq.2 h

theorem isBehindCode_pass (h : l.shape ≠ .blank) : (c.pass l).IsBehindCode := by
  simp [IsBehindCode, pass, h]

theorem IsBehindCode.pass_blank (h : c.IsBehindCode) : (c.pass ⟨.blank, [' ']⟩).IsBehindCode := h

theorem IsBehindCode.pass_newline (h : c.IsBehindCode) : (c.pass ⟨.blank, ['\n']⟩).IsFresh := by
  have hline : c.contentLine = c.line := h
  show c.contentLine < c.line + 1
  omega

end Cursor

end RowMapping
