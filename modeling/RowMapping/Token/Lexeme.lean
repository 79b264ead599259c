import RowMapping.Text.Blank
import RowMapping.Text.Search
import RowMapping.Text.Word
/-!
# Lexemes of a header

A header text is cut into lexemes, of which some are trivia (blanks, block comments, directives)
and the others are the code, line comments included.  Every text can be cut: a character that
starts nothing else is a lexeme of its own.

* `Shape`, `Lexeme`: what is cut off;
* `Lexeme.first`: the first lexeme of a text that is not empty, and the text after it;
* `lexemes`: all lexemes of a text.

Main statements: `Lexeme.first_append`, a lexeme and the text after it are the text;
`Lexeme.first_ne_nil`, no lexeme is empty; `lexemes_flatten`, the lexemes of a text are the text.
-/

namespace RowMapping

open Text

/-- The kinds of text a header is made of. -/
inductive Shape
  | blank
  | blockComment
  | lineComment
  | directive
  | string
  | character
  | number
  | word
  | mark
  deriving DecidableEq, Repr

/-- A part of a header with its shape. -/
structure Lexeme where
  shape : Shape
  text : List Char
  deriving DecidableEq, Repr

namespace Lexeme

/-- The longest run of pairs of a backslash with any character and of characters that neither are
backslashes nor satisfy `stop`, and the text after it. -/
def escapedRun (stop : Char → Bool) : List Char → List Char × List Char
  | [] => ([], [])
  | [c] => if stop c || c == '\\' then ([], [c]) else ([c], [])
  | c :: d :: cs =>
    if c = '\\' then
      let (run, rest) := escapedRun stop cs
      (c :: d :: run, rest)
    else if stop c then ([], c :: d :: cs)
    else
      let (run, rest) := escapedRun stop (d :: cs)
      (c :: run, rest)

/-- The body of a literal that `close` or the end of the line ends, its closing quote included when
there is one, and the text after it. -/
def literalTail (close : Char) (cs : List Char) : List Char × List Char :=
  let (run, rest) := escapedRun (fun c => c == close || c == '\n') cs
  match rest with
  | [] => (run, [])
  | c :: rest => if c = close then (run ++ [c], rest) else (run, c :: rest)

/-- The words that make the string literal after them a raw one. -/
def rawMarkers : List (List Char) := ["R", "u8R", "uR", "UR", "LR"].map String.toList

/-- The rest of a raw string after its opening quote, and the text after it.  The delimiter stands
before the first parenthesis; a closing parenthesis, the delimiter and a quote end the string. -/
def rawTail (cs : List Char) : List Char × List Char :=
  match splitFirst? ['('] cs with
  | none => ([], cs)
  | some (delimiter, body) =>
    let terminator := ')' :: delimiter ++ ['"']
    match splitFirst? terminator body with
    | none => (cs, [])
    | some (inner, rest) => (delimiter ++ '(' :: inner ++ terminator, rest)

/-- The rest of a word after its first character, as a word or as a raw string literal. -/
def wordOrRaw (c : Char) (cs : List Char) : Lexeme × List Char :=
  let word := c :: cs.takeWhile isNamePart
  match cs.dropWhile isNamePart with
  | '"' :: body =>
    if rawMarkers.contains word then
      let (tail, rest) := rawTail body
      (⟨.string, word ++ '"' :: tail⟩, rest)
    else (⟨.word, word⟩, '"' :: body)
  | rest => (⟨.word, word⟩, rest)

/-- What a slash starts. -/
def slash (cs : List Char) : Lexeme × List Char :=
  match cs with
  | '*' :: body =>
    match splitFirst? ['*', '/'] body with
    | some (inner, rest) => (⟨.blockComment, '/' :: '*' :: inner ++ ['*', '/']⟩, rest)
    | none => (⟨.blockComment, '/' :: '*' :: body⟩, [])
  | '/' :: body =>
    (⟨.lineComment, '/' :: '/' :: body.takeWhile (· != '\n')⟩, body.dropWhile (· != '\n'))
  | cs => (⟨.mark, ['/']⟩, cs)

/-- What a colon starts. -/
def colon (cs : List Char) : Lexeme × List Char :=
  match cs with
  | ':' :: rest => (⟨.mark, [':', ':']⟩, rest)
  | cs => (⟨.mark, [':']⟩, cs)

/-- A character that a number can go on with. -/
def isNumberPart (c : Char) : Bool := isWord c || c == '.' || c == '\''

/-- The first lexeme of the text `c :: cs`, and the text after it. -/
def first (c : Char) (cs : List Char) : Lexeme × List Char :=
  if c = '/' then slash cs
  else if c = '#' then
    let (run, rest) := escapedRun (· == '\n') cs
    (⟨.directive, c :: run⟩, rest)
  else if c = '"' then
    let (tail, rest) := literalTail c cs
    (⟨.string, c :: tail⟩, rest)
  else if c = '\'' then
    let (tail, rest) := literalTail c cs
    (⟨.character, c :: tail⟩, rest)
  else if isDigit c then
    (⟨if isAsciiDigit c then .number else .mark, c :: cs.takeWhile isNumberPart⟩,
      cs.dropWhile isNumberPart)
  else if isNameStart c then wordOrRaw c cs
  else if c = ':' then colon cs
  else if isBlank c then (⟨.blank, c :: cs.takeWhile isBlank⟩, cs.dropWhile isBlank)
  else (⟨.mark, [c]⟩, cs)

/-! ### Nothing is lost -/

theorem escapedRun_append (stop : Char → Bool) (cs : List Char) :
    (escapedRun stop cs).1 ++ (escapedRun stop cs).2 = cs := by
  fun_induction escapedRun stop cs <;> simp_all

theorem literalTail_append (close : Char) (cs : List Char) :
    (literalTail close cs).1 ++ (literalTail close cs).2 = cs := by
  have h := escapedRun_append (fun c => c == close || c == '\n') cs
  simp only [literalTail]
  split
  · simp_all
  · split <;> simp_all

theorem rawTail_append (cs : List Char) : (rawTail cs).1 ++ (rawTail cs).2 = cs := by
  simp only [rawTail]
  split
  · rfl
  · rename_i delimiter body h
    split
    · simp
    · rename_i inner rest h'
      rw [eq_of_splitFirst? h, eq_of_splitFirst? h']
      simp

theorem wordOrRaw_append (c : Char) (cs : List Char) :
    (wordOrRaw c cs).1.text ++ (wordOrRaw c cs).2 = c :: cs := by
  have h : cs.takeWhile isNamePart ++ cs.dropWhile isNamePart = cs := List.takeWhile_append_dropWhile
  simp only [wordOrRaw]
  split
  · rename_i body hbody
    rw [hbody] at h
    split
    · have hraw := rawTail_append body
      simp only [List.append_assoc, List.cons_append, hraw, h]
    · simpa using h
  · simp [h]

theorem slash_append (cs : List Char) : (slash cs).1.text ++ (slash cs).2 = '/' :: cs := by
  unfold slash
  split
  · rename_i body
    split
    · rename_i inner rest h
      rw [eq_of_splitFirst? h]
      simp
    · simp
  · simp [List.takeWhile_append_dropWhile]
  · simp

theorem colon_append (cs : List Char) : (colon cs).1.text ++ (colon cs).2 = ':' :: cs := by
  unfold colon
  split <;> simp

/-- The first lexeme of a text and the text after it, by the character that the text starts with. -/
theorem first_cases {motive : Lexeme × List Char → Prop} {c : Char} {cs : List Char}
    (slash : c = '/' → motive (slash cs))
    (directive : c = '#' → motive
      (⟨.directive, c :: (escapedRun (· == '\n') cs).1⟩, (escapedRun (· == '\n') cs).2))
    (string : c = '"' → motive (⟨.string, c :: (literalTail c cs).1⟩, (literalTail c cs).2))
    (character : c = '\'' → motive (⟨.character, c :: (literalTail c cs).1⟩, (literalTail c cs).2))
    (digit : isDigit c = true → motive
      (⟨if isAsciiDigit c then .number else .mark, c :: cs.takeWhile isNumberPart⟩,
        cs.dropWhile isNumberPart))
    (name : isNameStart c = true → motive (wordOrRaw c cs))
    (colon : c = ':' → motive (colon cs))
    (blank : isBlank c = true → motive (⟨.blank, c :: cs.takeWhile isBlank⟩, cs.dropWhile isBlank))
    (mark : c ≠ '/' → c ≠ '#' → c ≠ '"' → c ≠ '\'' → ¬isDigit c = true → ¬isNameStart c = true →
      c ≠ ':' → ¬isBlank c = true → motive (⟨.mark, [c]⟩, cs)) : motive (first c cs) := by
  unfold first
  refine iteInduction (motive := motive) slash fun hslash => ?_
  refine iteInduction (motive := motive) directive fun hhash => ?_
  refine iteInduction (motive := motive) string fun hquote => ?_
  refine iteInduction (motive := motive) character fun happ => ?_
  refine iteInduction (motive := motive) digit fun hdigit => ?_
  refine iteInduction (motive := motive) name fun hname => ?_
  refine iteInduction (motive := motive) colon fun hcolon => ?_
  exact iteInduction (motive := motive) blank fun hblank =>
    mark hslash hhash hquote happ hdigit hname hcolon hblank

/-- A lexeme and the text after it are the text. -/
theorem first_append (c : Char) (cs : List Char) :
    (first c cs).1.text ++ (first c cs).2 = c :: cs := by
  refine first_cases (motive := fun p => p.1.text ++ p.2 = c :: cs) ?slash ?directive ?string
    ?character ?digit ?name ?colon ?blank ?mark
  case slash => rintro rfl; exact slash_append cs
  case directive => exact fun _ => congrArg (c :: ·) (escapedRun_append _ cs)
  case string => exact fun _ => congrArg (c :: ·) (literalTail_append c cs)
  case character => exact fun _ => congrArg (c :: ·) (literalTail_append c cs)
  case digit => exact fun _ => congrArg (c :: ·) List.takeWhile_append_dropWhile
  case name => exact fun _ => wordOrRaw_append c cs
  case colon => rintro rfl; exact colon_append cs
  case blank => exact fun _ => congrArg (c :: ·) List.takeWhile_append_dropWhile
  case mark => intros; rfl

theorem slash_text_eq_cons (cs : List Char) : ∃ text, (slash cs).1.text = '/' :: text := by
  unfold slash
  split
  · split <;> exact ⟨_, rfl⟩
  · exact ⟨_, rfl⟩
  · exact ⟨_, rfl⟩

theorem wordOrRaw_text_eq_cons (c : Char) (cs : List Char) :
    ∃ text, (wordOrRaw c cs).1.text = c :: text := by
  simp only [wordOrRaw]
  split
  · split <;> exact ⟨_, rfl⟩
  · exact ⟨_, rfl⟩

theorem colon_text_eq_cons (cs : List Char) : ∃ text, (colon cs).1.text = ':' :: text := by
  unfold colon
  split <;> exact ⟨_, rfl⟩

theorem first_text_eq_cons (c : Char) (cs : List Char) :
    ∃ text, (first c cs).1.text = c :: text := by
  refine first_cases (motive := fun p => ∃ text, p.1.text = c :: text) ?slash ?directive ?string
    ?character ?digit ?name ?colon ?blank ?mark
  case slash => rintro rfl; exact slash_text_eq_cons cs
  case name => exact fun _ => wordOrRaw_text_eq_cons c cs
  case colon => rintro rfl; exact colon_text_eq_cons cs
  all_goals intros; exact ⟨_, rfl⟩

/-- No lexeme is empty. -/
theorem first_ne_nil (c : Char) (cs : List Char) : (first c cs).1.text ≠ [] := by
  obtain ⟨text, h⟩ := first_text_eq_cons c cs
  simp [h]

/-- The text after a lexeme is shorter. -/
theorem length_first_lt (c : Char) (cs : List Char) :
    (first c cs).2.length < (c :: cs).length := by
  obtain ⟨text, h⟩ := first_text_eq_cons c cs
  have happend := congrArg List.length (first_append c cs)
  rw [h] at happend
  simp only [List.length_append, List.length_cons] at happend ⊢
  omega

end Lexeme

/-- The lexemes of a text. -/
def lexemes : List Char → List Lexeme
  | [] => []
  | c :: cs => (Lexeme.first c cs).1 :: lexemes (Lexeme.first c cs).2
termination_by cs => cs.length
decreasing_by exact Lexeme.length_first_lt c cs

@[simp] theorem lexemes_nil : lexemes [] = [] := by rw [lexemes]

theorem lexemes_cons (c : Char) (cs : List Char) :
    lexemes (c :: cs) = (Lexeme.first c cs).1 :: lexemes (Lexeme.first c cs).2 := by
  rw [lexemes]

/-- The lexemes of a text are the text. -/
theorem lexemes_flatten (cs : List Char) : (lexemes cs).flatMap Lexeme.text = cs := by
  fun_induction lexemes cs with
  | case1 => rfl
  | case2 c cs ih => rw [List.flatMap_cons, ih, Lexeme.first_append]

end RowMapping
