import Mathlib.Data.List.Infix
import RowMapping.Proofs.Lexing
/-!
# The forms of lexemes

What is cut off a text can be told from its own characters and from the text behind it, without the
order in which the kinds of lexemes are tried.

* `splitFirst?_eq_some_iff`, `splitFirst?_eq_none_iff`: the first occurrence of a text;
* `IsRun`, `Escaped`, `Halts`: runs of characters, and where they end;
* `LiteralTail`, `RawTail`: what stands behind the opening quote of a literal;
* `Lexeme.Fits`: a lexeme has the form of its shape in front of a text.

Main statements: `Lexeme.fits_first`, what is cut off has its form; `Lexeme.Fits.lexemes_append`,
what has its form is cut off; `Lexeme.fits_of_lexemes`, all lexemes of a text have their forms.
-/

namespace RowMapping

namespace Text

/-! ### First occurrences -/

variable {p cs before after : List Char}

theorem not_prefix_of_isPrefixOf? (h : p.isPrefixOf? cs = none) : ¬p <+: cs := by
  rintro ⟨rest, hrest⟩
  rw [isPrefixOf?_eq_some_iff.2 hrest.symm] at h
  cases h

theorem splitFirst?_eq_none_iff (hp : p ≠ []) : splitFirst? p cs = none ↔ ¬p <:+: cs := by
  induction cs with
  | nil => simp [splitFirst?, hp]
  | cons c cs ih =>
    rw [splitFirst?, List.infix_cons_iff, not_or, ← ih]
    cases hprefix : p.isPrefixOf? (c :: cs) with
    | some rest =>
      have hp' : p <+: c :: cs := ⟨rest, (isPrefixOf?_eq_some_iff.1 hprefix).symm⟩
      simp [hp']
    | none =>
      simp [not_prefix_of_isPrefixOf? hprefix]

/-- The text before the first occurrence does not begin an occurrence. -/
theorem splitFirst?_eq_some_iff (hp : p ≠ []) :
    splitFirst? p cs = some (before, after) ↔
      cs = before ++ (p ++ after) ∧ ¬p <:+: before ++ p.dropLast := by
  have hlength : p.dropLast.length + 1 = p.length := by
    rw [List.length_dropLast]
    exact Nat.sub_add_cancel (List.length_pos_iff.2 hp)
  induction cs generalizing before with
  | nil => simp [splitFirst?, hp]
  | cons c cs ih =>
    rw [splitFirst?]
    cases hprefix : p.isPrefixOf? (c :: cs) with
    | some rest =>
      have hrest := isPrefixOf?_eq_some_iff.1 hprefix
      simp only [Option.some.injEq, Prod.mk.injEq]
      constructor
      · rintro ⟨rfl, rfl⟩
        refine ⟨hrest, fun h => ?_⟩
        have hle := h.length_le
        rw [List.nil_append] at hle
        omega
      · rintro ⟨heq, hfirst⟩
        cases before with
        | nil => exact ⟨rfl, List.append_cancel_left (hrest.symm.trans heq)⟩
        | cons d before =>
          -- an occurrence at the front ends before the one that is asked for
          have hfront : p <+: c :: cs := ⟨rest, hrest.symm⟩
          refine absurd (List.IsPrefix.isInfix ?_) hfirst
          refine List.prefix_of_prefix_length_le hfront ?_ ?_
          · rw [heq]
            exact (List.prefix_append_right_inj _).2
              ((List.dropLast_prefix p).trans (List.prefix_append p after))
          · simp only [List.length_append, List.length_cons]
            omega
    | none =>
      have hnot := not_prefix_of_isPrefixOf? hprefix
      simp only [Option.map_eq_some_iff, Prod.exists, Prod.mk.injEq]
      constructor
      · rintro ⟨b, a, hsplit, rfl, rfl⟩
        obtain ⟨rfl, hfirst⟩ := ih.1 hsplit
        refine ⟨rfl, fun h => ?_⟩
        rcases List.infix_cons_iff.1 h with h | h
        · refine hnot (h.trans ?_)
          exact (List.prefix_append_right_inj (c :: b)).2
            ((List.dropLast_prefix p).trans (List.prefix_append p a))
        · exact hfirst h
      · rintro ⟨heq, hfirst⟩
        cases before with
        | nil => exact absurd ⟨after, heq.symm⟩ hnot
        | cons d before =>
          obtain ⟨rfl, rfl⟩ := List.cons.inj heq
          exact ⟨before, after, ih.2 ⟨rfl, fun h => hfirst (List.infix_cons h)⟩, rfl, rfl⟩

end Text

open Text

/-- The quote of the literals of a shape. -/
def Shape.quote? : Shape → Option Char
  | .string => some '"'
  | .character => some '\''
  | _ => none

namespace Lexeme

variable {p stop : Char → Bool} {text rest cs run tail : List Char} {c quote : Char} {l : Lexeme}

/-! ### Runs -/

/-- All characters of a text have a property that the character behind it has not. -/
def IsRun (p : Char → Bool) (text rest : List Char) : Prop :=
  text.all p = true ∧ ∀ d ∈ rest.head?, p d = false

theorem isRun_takeWhile (p : Char → Bool) (cs : List Char) :
    IsRun p (cs.takeWhile p) (cs.dropWhile p) := by
  refine ⟨List.all_takeWhile, fun d hd => ?_⟩
  have hstop := List.head?_dropWhile_not p cs
  rw [Option.mem_def.1 hd] at hstop
  exact hstop

theorem IsRun.takeWhile_append (h : IsRun p text rest) : (text ++ rest).takeWhile p = text :=
  takeWhile_append_of_stop h.1 h.2

theorem IsRun.dropWhile_append (h : IsRun p text rest) : (text ++ rest).dropWhile p = rest :=
  dropWhile_append_of_stop h.1 h.2

/-- Characters that do not satisfy `stop`, and pairs of a backslash with any character. -/
inductive Escaped (stop : Char → Bool) : List Char → Prop
  | nil : Escaped stop []
  | plain {c : Char} {cs : List Char} (hc : c ≠ '\\') (hstop : stop c = false)
      (hcs : Escaped stop cs) : Escaped stop (c :: cs)
  | pair (c : Char) {cs : List Char} (hcs : Escaped stop cs) : Escaped stop ('\\' :: c :: cs)

theorem Escaped.append {a b : List Char} (ha : Escaped stop a) (hb : Escaped stop b) :
    Escaped stop (a ++ b) := by
  induction ha with
  | nil => exact hb
  | plain hc hstop _ ih => exact .plain hc hstop ih
  | pair c _ ih => exact .pair c ih

/-- Such a run cannot go on: nothing follows, or a character that stops it, or a last backslash. -/
def Halts (stop : Char → Bool) (rest : List Char) : Prop :=
  rest = ['\\'] ∨ ∀ d ∈ rest.head?, stop d = true

theorem escaped_escapedRun (stop : Char → Bool) (cs : List Char) :
    Escaped stop (escapedRun stop cs).1 ∧ Halts stop (escapedRun stop cs).2 := by
  fun_induction escapedRun stop cs with
  | case1 => exact ⟨.nil, .inr (by rintro _ ⟨⟩)⟩
  | case2 c h =>
    refine ⟨.nil, ?_⟩
    rcases Bool.or_eq_true_iff.1 h with h | h
    · exact .inr (by rintro _ ⟨⟩; exact h)
    · exact .inl (by rw [beq_iff_eq.1 h])
  | case3 c h =>
    simp only [Bool.or_eq_true, beq_iff_eq, not_or] at h
    exact ⟨.plain h.2 (Bool.eq_false_iff.2 h.1) .nil, .inr (by rintro _ ⟨⟩)⟩
  | case4 d cs run rest hrun ih =>
    rw [hrun] at ih
    exact ⟨.pair d ih.1, ih.2⟩
  | case5 c d cs _ h => exact ⟨.nil, .inr (by rintro _ ⟨⟩; exact h)⟩
  | case6 c d cs hc h run rest hrun ih =>
    rw [hrun] at ih
    exact ⟨.plain hc (Bool.eq_false_iff.2 h) ih.1, ih.2⟩

theorem Escaped.escapedRun_append (h : Escaped stop run) (hstop : stop '\\' = false)
    (hrest : Halts stop rest) : escapedRun stop (run ++ rest) = (run, rest) := by
  induction h with
  | nil =>
    rcases hrest with rfl | hrest
    · simp [escapedRun]
    · rcases rest with _ | ⟨c, _ | ⟨d, rest⟩⟩
      · rfl
      · simp [escapedRun, hrest c rfl]
      · have hc : c ≠ '\\' := fun h => by rw [h] at hrest; simp [hstop] at hrest
        simp [escapedRun, hrest c rfl, hc]
  | @plain c cs hc hplain _ ih =>
    cases hcs : cs ++ rest with
    | nil =>
      obtain ⟨rfl, rfl⟩ := List.append_eq_nil_iff.1 hcs
      simp [escapedRun, hc, hplain]
    | cons d ds =>
      rw [hcs] at ih
      simp [escapedRun, hcs, hc, hplain, ih]
  | pair c _ ih => simp [escapedRun, ih]

/-! ### Literals -/

/-- A literal stops at its quote and at the end of its line. -/
def stopsLiteral (quote c : Char) : Bool := c == quote || c == '\n'

/-- What stands behind the opening quote of a literal: an escaped run that a quote closes, or one
that cannot go on. -/
inductive LiteralTail (quote : Char) : List Char → List Char → Prop
  | closed {run : List Char} (hrun : Escaped (stopsLiteral quote) run) (rest : List Char) :
      LiteralTail quote (run ++ [quote]) rest
  | unclosed {run rest : List Char} (hrun : Escaped (stopsLiteral quote) run)
      (hrest : Halts (· == '\n') rest) : LiteralTail quote run rest

theorem literalTail_eq (quote : Char) (cs : List Char) :
    literalTail quote cs = match (escapedRun (stopsLiteral quote) cs).2 with
      | [] => ((escapedRun (stopsLiteral quote) cs).1, [])
      | c :: rest =>
        if c = quote then ((escapedRun (stopsLiteral quote) cs).1 ++ [c], rest)
        else ((escapedRun (stopsLiteral quote) cs).1, c :: rest) := rfl

theorem literalTail_literalTail (quote : Char) (cs : List Char) :
    LiteralTail quote (literalTail quote cs).1 (literalTail quote cs).2 := by
  obtain ⟨hrun, hrest⟩ := escaped_escapedRun (stopsLiteral quote) cs
  rw [literalTail_eq]
  cases hcs : (escapedRun (stopsLiteral quote) cs).2 with
  | nil => exact .unclosed hrun (.inr (by rintro _ ⟨⟩))
  | cons c rest =>
    simp only
    split
    · next hc =>
      subst hc
      exact .closed hrun rest
    · next hc =>
      refine .unclosed hrun ?_
      rw [hcs] at hrest
      refine hrest.imp id fun hstop => ?_
      rintro _ ⟨⟩
      simpa [stopsLiteral, hc] using hstop c rfl

theorem LiteralTail.literalTail_append (h : LiteralTail quote tail rest)
    (hquote : quote = '"' ∨ quote = '\'') : literalTail quote (tail ++ rest) = (tail, rest) := by
  have hstop : stopsLiteral quote '\\' = false := by rcases hquote with rfl | rfl <;> rfl
  cases h with
  | @closed run hrun =>
    have hhalts : Halts (stopsLiteral quote) (quote :: rest) := by
      refine .inr ?_
      rintro _ ⟨⟩
      simp [stopsLiteral]
    rw [List.append_assoc, List.singleton_append, literalTail_eq,
      hrun.escapedRun_append hstop hhalts]
    simp
  | unclosed hrun hrest =>
    have hhalts : Halts (stopsLiteral quote) rest := by
      refine hrest.imp id fun hnewline d hd => ?_
      have hd' : (d == '\n') = true := hnewline d hd
      rw [stopsLiteral, hd', Bool.or_true]
    rw [literalTail_eq, hrun.escapedRun_append hstop hhalts]
    cases rest with
    | nil => rfl
    | cons c rest =>
      have hc : c ≠ quote := by
        rcases hrest with hslash | hnewline
        · rw [(List.cons.inj hslash).1]
          rcases hquote with rfl | rfl <;> decide
        · rw [beq_iff_eq.1 (hnewline c rfl)]
          rcases hquote with rfl | rfl <;> decide
      simp [hc]

/-! ### Raw strings -/

/-- The text that ends a raw string with a delimiter. -/
def terminator (delimiter : List Char) : List Char := ')' :: (delimiter ++ ['"'])

theorem terminator_ne_nil (delimiter : List Char) : terminator delimiter ≠ [] :=
  List.cons_ne_nil _ _

/-- What stands behind the opening quote of a raw string: nothing, when no parenthesis follows; else
a delimiter, a parenthesis, and the text up to the first terminator or the end of the header. -/
inductive RawTail : List Char → List Char → Prop
  | bare {rest : List Char} (hrest : '(' ∉ rest) : RawTail [] rest
  | closed {delimiter inner : List Char} (hdelimiter : '(' ∉ delimiter)
      (hinner : ¬terminator delimiter <:+: inner ++ (terminator delimiter).dropLast)
      (rest : List Char) : RawTail (delimiter ++ '(' :: (inner ++ terminator delimiter)) rest
  | unclosed {delimiter inner : List Char} (hdelimiter : '(' ∉ delimiter)
      (hinner : ¬terminator delimiter <:+: inner) : RawTail (delimiter ++ '(' :: inner) []

theorem splitFirst?_paren {before after : List Char} :
    splitFirst? ['('] cs = some (before, after) ↔ cs = before ++ '(' :: after ∧ '(' ∉ before := by
  rw [splitFirst?_eq_some_iff (List.cons_ne_nil _ _), List.dropLast_singleton, List.append_nil,
    List.singleton_infix_iff]
  rfl

theorem rawTail_eq (cs : List Char) : rawTail cs = match splitFirst? ['('] cs with
    | none => ([], cs)
    | some (delimiter, body) =>
      match splitFirst? (terminator delimiter) body with
      | none => (cs, [])
      | some (inner, rest) => (delimiter ++ '(' :: inner ++ terminator delimiter, rest) := rfl

theorem rawTail_rawTail (cs : List Char) : RawTail (rawTail cs).1 (rawTail cs).2 := by
  rw [rawTail_eq]
  split
  · next hnone =>
    rw [splitFirst?_eq_none_iff (List.cons_ne_nil _ _), List.singleton_infix_iff] at hnone
    exact .bare hnone
  · next delimiter body hsome =>
    obtain ⟨rfl, hdelimiter⟩ := splitFirst?_paren.1 hsome
    split
    · next hnone =>
      exact .unclosed hdelimiter ((splitFirst?_eq_none_iff (terminator_ne_nil delimiter)).1 hnone)
    · next inner rest hinner =>
      obtain ⟨-, hfirst⟩ := (splitFirst?_eq_some_iff (terminator_ne_nil delimiter)).1 hinner
      rw [List.append_assoc, List.cons_append]
      exact .closed hdelimiter hfirst rest

theorem RawTail.rawTail_append (h : RawTail tail rest) : rawTail (tail ++ rest) = (tail, rest) := by
  cases h with
  | bare hrest =>
    have hnone : splitFirst? ['('] rest = none := by
      rwa [splitFirst?_eq_none_iff (List.cons_ne_nil _ _), List.singleton_infix_iff]
    rw [List.nil_append, rawTail_eq, hnone]
  | @closed delimiter inner hdelimiter hinner =>
    have hparen : splitFirst? ['('] (delimiter ++ '(' :: (inner ++ terminator delimiter) ++ rest) =
        some (delimiter, inner ++ (terminator delimiter ++ rest)) :=
      splitFirst?_paren.2 ⟨by simp, hdelimiter⟩
    have hend : splitFirst? (terminator delimiter) (inner ++ (terminator delimiter ++ rest)) =
        some (inner, rest) :=
      (splitFirst?_eq_some_iff (terminator_ne_nil delimiter)).2 ⟨rfl, hinner⟩
    rw [rawTail_eq, hparen]
    simp only [hend, List.append_assoc, List.cons_append]
  | @unclosed delimiter inner hdelimiter hinner =>
    have hparen : splitFirst? ['('] (delimiter ++ '(' :: inner) = some (delimiter, inner) :=
      splitFirst?_paren.2 ⟨rfl, hdelimiter⟩
    have hend := (splitFirst?_eq_none_iff (terminator_ne_nil delimiter)).2 hinner
    rw [List.append_nil, rawTail_eq, hparen]
    simp only [hend]

/-! ### All shapes -/

/-- A lexeme has the form of its shape in front of a text. -/
inductive Fits : Lexeme → List Char → Prop
  | blank {text rest : List Char} (hne : text ≠ []) (hrun : IsRun isBlank text rest) :
      Fits ⟨.blank, text⟩ rest
  | closedComment {inner : List Char} (hinner : ¬['*', '/'] <:+: inner ++ ['*'])
      (rest : List Char) : Fits ⟨.blockComment, '/' :: '*' :: (inner ++ ['*', '/'])⟩ rest
  | openComment {inner : List Char} (hinner : ¬['*', '/'] <:+: inner) :
      Fits ⟨.blockComment, '/' :: '*' :: inner⟩ []
  | lineComment {body rest : List Char} (hrun : IsRun (· != '\n') body rest) :
      Fits ⟨.lineComment, '/' :: '/' :: body⟩ rest
  | directive {run rest : List Char} (hrun : Escaped (· == '\n') run)
      (hrest : Halts (· == '\n') rest) : Fits ⟨.directive, '#' :: run⟩ rest
  | literal {shape : Shape} {quote : Char} {tail rest : List Char}
      (hquote : shape.quote? = some quote) (htail : LiteralTail quote tail rest) :
      Fits ⟨shape, quote :: tail⟩ rest
  | raw {marker tail rest : List Char} (hmarker : rawMarkers.contains marker = true)
      (htail : RawTail tail rest) : Fits ⟨.string, marker ++ '"' :: tail⟩ rest
  | number {c : Char} {more rest : List Char} (hc : isAsciiDigit c = true)
      (hrun : IsRun isNumberPart more rest) : Fits ⟨.number, c :: more⟩ rest
  | word {c : Char} {more rest : List Char} (hc : isNameStart c = true)
      (hrun : IsRun isNamePart more rest)
      (hraw : rawMarkers.contains (c :: more) = true → rest.head? ≠ some '"') :
      Fits ⟨.word, c :: more⟩ rest
  | foreignNumber {c : Char} {more rest : List Char} (hc : isDigit c = true)
      (hascii : isAsciiDigit c = false) (hrun : IsRun isNumberPart more rest) :
      Fits ⟨.mark, c :: more⟩ rest
  | doubleColon (rest : List Char) : Fits ⟨.mark, [':', ':']⟩ rest
  | colon {rest : List Char} (hrest : rest.head? ≠ some ':') : Fits ⟨.mark, [':']⟩ rest
  | slash {rest : List Char} (hstar : rest.head? ≠ some '*') (hslash : rest.head? ≠ some '/') :
      Fits ⟨.mark, ['/']⟩ rest
  | mark {c : Char} (hc : isMark c = true) (rest : List Char) : Fits ⟨.mark, [c]⟩ rest

theorem fits_slash (cs : List Char) : (slash cs).1.Fits (slash cs).2 := by
  unfold slash
  split
  · next body =>
    split
    · next inner rest h =>
      obtain ⟨-, hinner⟩ := (splitFirst?_eq_some_iff (List.cons_ne_nil _ _)).1 h
      exact .closedComment hinner rest
    · next h => exact .openComment ((splitFirst?_eq_none_iff (List.cons_ne_nil _ _)).1 h)
  · next body => exact .lineComment (isRun_takeWhile _ body)
  · next hstar hslash =>
    refine .slash (fun h => ?_) fun h => ?_
    · obtain ⟨body, rfl⟩ := List.head?_eq_some_iff.1 h
      exact hstar body rfl
    · obtain ⟨body, rfl⟩ := List.head?_eq_some_iff.1 h
      exact hslash body rfl

theorem fits_wordOrRaw (hc : isNameStart c = true) (cs : List Char) :
    (wordOrRaw c cs).1.Fits (wordOrRaw c cs).2 := by
  have hrun := isRun_takeWhile isNamePart cs
  unfold wordOrRaw
  simp only
  split
  · next body hbody =>
    split
    · next hraw => exact .raw hraw (rawTail_rawTail body)
    · next hraw =>
      rw [hbody] at hrun
      exact .word hc hrun fun h => absurd h hraw
  · next hrest =>
    refine .word hc hrun fun _ h => ?_
    obtain ⟨body, hbody⟩ := List.head?_eq_some_iff.1 h
    exact hrest body hbody

theorem fits_colon (cs : List Char) : (colon cs).1.Fits (colon cs).2 := by
  unfold colon
  split
  · next rest => exact .doubleColon rest
  · next hcolon =>
    refine .colon fun h => ?_
    obtain ⟨rest, rfl⟩ := List.head?_eq_some_iff.1 h
    exact hcolon rest rfl

/-- What is cut off a text has the form of its shape. -/
theorem fits_first (c : Char) (cs : List Char) : (first c cs).1.Fits (first c cs).2 := by
  refine first_cases (motive := fun p => p.1.Fits p.2) ?slash ?directive ?string ?character ?digit
    ?name ?colon ?blank ?mark
  case slash => exact fun _ => fits_slash cs
  case directive =>
    rintro rfl
    obtain ⟨hrun, hrest⟩ := escaped_escapedRun (· == '\n') cs
    exact .directive hrun hrest
  case string => rintro rfl; exact .literal rfl (literalTail_literalTail _ cs)
  case character => rintro rfl; exact .literal rfl (literalTail_literalTail _ cs)
  case digit =>
    intro hdigit
    have hrun := isRun_takeWhile isNumberPart cs
    cases hascii : isAsciiDigit c with
    | true => exact .number hascii hrun
    | false => exact .foreignNumber hdigit hascii hrun
  case name => exact fun hname => fits_wordOrRaw hname cs
  case colon => exact fun _ => fits_colon cs
  case blank =>
    intro hblank
    refine .blank (List.cons_ne_nil _ _) ⟨?_, (isRun_takeWhile isBlank cs).2⟩
    rw [List.all_cons, hblank, List.all_takeWhile, Bool.and_self]
  case mark =>
    intro hslash hhash hquote happ hdigit hname hcolon hblank
    exact .mark (by simp [isMark, hslash, hhash, hquote, happ, hdigit, hname, hcolon, hblank]) cs

theorem wordOrRaw_of_word (hrun : IsRun isNamePart cs rest)
    (hraw : rawMarkers.contains (c :: cs) = true → rest.head? ≠ some '"') :
    wordOrRaw c (cs ++ rest) = (⟨.word, c :: cs⟩, rest) := by
  rw [wordOrRaw, hrun.takeWhile_append, hrun.dropWhile_append]
  split
  · next body =>
    rw [if_neg fun h => hraw h rfl]
  · rfl

/-- A marker of raw strings is a word. -/
theorem isName_of_rawMarkers {marker : List Char} (h : rawMarkers.contains marker = true) :
    ∃ c cs, marker = c :: cs ∧ isNameStart c = true ∧ cs.all isNamePart = true := by
  have hmem : marker ∈ rawMarkers := by simpa using h
  simp only [rawMarkers, List.map_cons, List.map_nil, List.mem_cons, List.not_mem_nil,
    or_false] at hmem
  rcases hmem with rfl | rfl | rfl | rfl | rfl <;> exact ⟨_, _, rfl, by decide, by decide⟩

theorem wordOrRaw_of_raw (hcs : cs.all isNamePart = true)
    (hmarker : rawMarkers.contains (c :: cs) = true) (htail : RawTail tail rest) :
    wordOrRaw c (cs ++ '"' :: (tail ++ rest)) = (⟨.string, c :: cs ++ '"' :: tail⟩, rest) := by
  have hrun : IsRun isNamePart cs ('"' :: (tail ++ rest)) := ⟨hcs, by rintro _ ⟨⟩; rfl⟩
  rw [wordOrRaw, hrun.takeWhile_append, hrun.dropWhile_append]
  simp only [hmarker, htail.rawTail_append, if_true]

/-- What a character starts that an identifier can start with. -/
theorem first_of_isNameStart (hc : isNameStart c = true) (cs : List Char) :
    first c cs = wordOrRaw c cs := by
  obtain ⟨h1, h2, h3, h4⟩ := ne_of_isNamePart (isNamePart_of_isNameStart hc)
  simp [first, h1, h2, h3, h4, isDigit_of_isNameStart hc, hc]

theorem ne_of_isDigit (hc : isDigit c = true) : c ≠ '/' ∧ c ≠ '#' ∧ c ≠ '"' ∧ c ≠ '\'' := by
  refine ⟨?_, ?_, ?_, ?_⟩ <;> rintro rfl <;> exact absurd hc (by decide)

/-- What a digit starts. -/
theorem first_of_isDigit (hc : isDigit c = true) (hrun : IsRun isNumberPart cs rest) :
    first c (cs ++ rest) =
      (⟨if isAsciiDigit c then .number else .mark, c :: cs⟩, rest) := by
  obtain ⟨h1, h2, h3, h4⟩ := ne_of_isDigit hc
  simp [first, h1, h2, h3, h4, hc, hrun.takeWhile_append, hrun.dropWhile_append]

theorem isDigit_of_isAsciiDigit (hc : isAsciiDigit c = true) : isDigit c = true := by
  rw [isDigit, hc, Bool.true_or]

/-- The codes of the blanks. -/
def blankCodes : List Nat :=
  List.range' 9 5 ++ [0x20, 0x85, 0xA0, 0x1680] ++ List.range' 0x2000 11 ++
    [0x2028, 0x2029, 0x202F, 0x205F, 0x3000]

theorem mem_blankCodes (hc : isBlank c = true) : c.toNat ∈ blankCodes := by
  simp only [isBlank, Bool.or_eq_true, Bool.and_eq_true, decide_eq_true_eq, beq_iff_eq] at hc
  simp only [blankCodes, List.mem_append, List.mem_range'_1, List.mem_cons, List.not_mem_nil,
    or_false]
  omega

/-- A blank is no digit and starts no identifier. -/
theorem of_isBlank (hc : isBlank c = true) :
    isDigit c = false ∧ isNameStart c = false ∧ c ≠ ':' := by
  have hcodes : ∀ n ∈ blankCodes, (48 ≤ n && n ≤ 57) = false ∧ digitRanges.has n = false ∧
      (65 ≤ n && n ≤ 90) = false ∧ (97 ≤ n && n ≤ 122) = false := by decide
  obtain ⟨hascii, hforeign, hupper, hlower⟩ := hcodes _ (mem_blankCodes hc)
  refine ⟨?_, ?_, ?_⟩
  · rw [isDigit, isAsciiDigit, hascii, hforeign, Bool.and_false, Bool.or_false]
  · have hunderscore : c ≠ '_' := by
      rintro rfl
      exact absurd hc (by decide)
    rw [isNameStart, isAsciiLetter, hupper, hlower, beq_false_of_ne hunderscore]
    rfl
  · rintro rfl
    exact absurd hc (by decide)

theorem ne_of_isBlank (hc : isBlank c = true) : c ≠ '/' ∧ c ≠ '#' ∧ c ≠ '"' ∧ c ≠ '\'' := by
  refine ⟨?_, ?_, ?_, ?_⟩ <;> rintro rfl <;> exact absurd hc (by decide)

/-- What a blank starts. -/
theorem first_of_isBlank (hc : isBlank c = true) (hrun : IsRun isBlank cs rest) :
    first c (cs ++ rest) = (⟨.blank, c :: cs⟩, rest) := by
  obtain ⟨h1, h2, h3, h4⟩ := ne_of_isBlank hc
  obtain ⟨hdigit, hname, hcolon⟩ := of_isBlank hc
  simp [first, h1, h2, h3, h4, hdigit, hname, hcolon, hc, hrun.takeWhile_append,
    hrun.dropWhile_append]

theorem first_slash (cs : List Char) : first '/' cs = slash cs := if_pos rfl

theorem slash_of_closed {inner : List Char} (hinner : ¬['*', '/'] <:+: inner ++ ['*'])
    (rest : List Char) : slash ('*' :: (inner ++ (['*', '/'] ++ rest))) =
      (⟨.blockComment, '/' :: '*' :: (inner ++ ['*', '/'])⟩, rest) := by
  have hsplit : splitFirst? ['*', '/'] (inner ++ (['*', '/'] ++ rest)) = some (inner, rest) :=
    (splitFirst?_eq_some_iff (List.cons_ne_nil _ _)).2 ⟨rfl, hinner⟩
  rw [slash, hsplit]
  rfl

theorem slash_of_open {inner : List Char} (hinner : ¬['*', '/'] <:+: inner) :
    slash ('*' :: inner) = (⟨.blockComment, '/' :: '*' :: inner⟩, []) := by
  rw [slash, (splitFirst?_eq_none_iff (List.cons_ne_nil _ _)).2 hinner]

theorem slash_of_line {body : List Char} (hrun : IsRun (· != '\n') body rest) :
    slash ('/' :: (body ++ rest)) = (⟨.lineComment, '/' :: '/' :: body⟩, rest) := by
  rw [slash, hrun.takeWhile_append, hrun.dropWhile_append]

theorem slash_of_mark (hstar : rest.head? ≠ some '*') (hslash : rest.head? ≠ some '/') :
    slash rest = (⟨.mark, ['/']⟩, rest) := by
  unfold slash
  split
  · exact absurd rfl hstar
  · exact absurd rfl hslash
  · rfl

theorem colon_of_mark (hrest : rest.head? ≠ some ':') : colon rest = (⟨.mark, [':']⟩, rest) := by
  unfold colon
  split
  · exact absurd rfl hrest
  · rfl

theorem first_of_quote {shape : Shape} {quote : Char} (hquote : shape.quote? = some quote)
    (htail : LiteralTail quote tail rest) :
    first quote (tail ++ rest) = (⟨shape, quote :: tail⟩, rest) := by
  cases shape with
  | string =>
    obtain rfl : '"' = quote := Option.some.inj hquote
    rw [first, if_neg (by decide), if_neg (by decide), if_pos rfl,
      htail.literalTail_append (.inl rfl)]
  | character =>
    obtain rfl : '\'' = quote := Option.some.inj hquote
    rw [first, if_neg (by decide), if_neg (by decide), if_neg (by decide), if_pos rfl,
      htail.literalTail_append (.inr rfl)]
  | _ => cases hquote

/-- What has a form is cut off the text that it stands in front of. -/
theorem Fits.exists_first (h : l.Fits rest) :
    ∃ c cs, l.text = c :: cs ∧ first c (cs ++ rest) = (l, rest) := by
  cases h with
  | @blank text _ hne hrun =>
    obtain ⟨c, cs, rfl⟩ := List.exists_cons_of_ne_nil hne
    obtain ⟨hc, hcs⟩ := Bool.and_eq_true_iff.1 hrun.1
    exact ⟨c, cs, rfl, first_of_isBlank hc ⟨hcs, hrun.2⟩⟩
  | closedComment hinner =>
    refine ⟨'/', _, rfl, ?_⟩
    rw [first_slash, List.cons_append, List.append_assoc, slash_of_closed hinner]
  | openComment hinner =>
    refine ⟨'/', _, rfl, ?_⟩
    rw [first_slash, List.append_nil, slash_of_open hinner]
  | lineComment hrun =>
    refine ⟨'/', _, rfl, ?_⟩
    rw [first_slash, List.cons_append, slash_of_line hrun]
  | @directive run _ hrun hrest =>
    refine ⟨'#', run, rfl, ?_⟩
    rw [first, if_neg (by decide), if_pos rfl, hrun.escapedRun_append rfl hrest]
  | @literal shape quote tail _ hquote htail =>
    exact ⟨quote, tail, rfl, first_of_quote hquote htail⟩
  | @raw marker tail _ hmarker htail =>
    obtain ⟨c, cs, rfl, hc, hcs⟩ := isName_of_rawMarkers hmarker
    refine ⟨c, cs ++ '"' :: tail, rfl, ?_⟩
    rw [first_of_isNameStart hc, List.append_assoc, List.cons_append,
      wordOrRaw_of_raw hcs hmarker htail]
  | @number c more _ hc hrun =>
    refine ⟨c, more, rfl, ?_⟩
    rw [first_of_isDigit (isDigit_of_isAsciiDigit hc) hrun, if_pos hc]
  | @word c more _ hc hrun hraw =>
    refine ⟨c, more, rfl, ?_⟩
    rw [first_of_isNameStart hc, wordOrRaw_of_word hrun hraw]
  | @foreignNumber c more _ hc hascii hrun =>
    refine ⟨c, more, rfl, ?_⟩
    rw [first_of_isDigit hc hrun, if_neg (by simp [hascii])]
  | doubleColon => exact ⟨':', [':'], rfl, rfl⟩
  | colon hrest => exact ⟨':', [], rfl, colon_of_mark hrest⟩
  | slash hstar hslash => exact ⟨'/', [], rfl, slash_of_mark hstar hslash⟩
  | @mark c hc =>
    simp only [isMark, Bool.not_eq_true', Bool.or_eq_false_iff, beq_eq_false_iff_ne] at hc
    obtain ⟨⟨⟨⟨⟨⟨⟨h1, h2⟩, h3⟩, h4⟩, h5⟩, h6⟩, h7⟩, h8⟩ := hc
    exact ⟨c, [], rfl, by simp [first, h1, h2, h3, h4, h5, h6, h7, h8]⟩

/-- A lexeme that a text consists of is told by its form. -/
theorem Fits.first_eq (h : l.Fits rest) (htext : c :: cs = l.text ++ rest) :
    first c cs = (l, rest) := by
  obtain ⟨d, ds, hl, hfirst⟩ := h.exists_first
  rw [hl] at htext
  obtain ⟨rfl, rfl⟩ := List.cons.inj htext
  exact hfirst

/-- A lexeme that has its form is the first one of the text that it stands in front of. -/
theorem Fits.lexemes_append (h : l.Fits rest) : lexemes (l.text ++ rest) = l :: lexemes rest := by
  obtain ⟨c, cs, htext, hfirst⟩ := h.exists_first
  rw [htext, List.cons_append, lexemes_cons, hfirst]

/-- A lexeme that is no run of blanks does not start with one. -/
theorem Fits.isBlank_head (h : l.Fits rest) (hshape : l.shape ≠ .blank) :
    ∀ d ∈ l.text.head?, isBlank d = false := by
  obtain ⟨c, cs, htext, hfirst⟩ := h.exists_first
  rw [htext]
  rintro _ ⟨⟩
  by_contra hblank
  have hrun := isRun_takeWhile isBlank (cs ++ rest)
  have hstart := first_of_isBlank (Bool.not_eq_false _ ▸ hblank) hrun
  rw [List.takeWhile_append_dropWhile, hfirst] at hstart
  exact hshape (congrArg (fun r => r.1.shape) hstart)

/-- Every lexeme of a text has its form in front of the lexemes behind it. -/
theorem fits_of_lexemes {front back : List Lexeme} (h : lexemes cs = front ++ l :: back) :
    l.Fits (back.flatMap Lexeme.text) := by
  induction cs using lexemes.induct generalizing front with
  | case1 => simp at h
  | case2 c cs ih =>
    rw [lexemes_cons] at h
    cases front with
    | nil =>
      obtain ⟨rfl, rfl⟩ := List.cons.inj h
      rw [lexemes_flatten]
      exact fits_first c cs
    | cons k front => exact ih (List.cons.inj h).2

end Lexeme

end RowMapping
