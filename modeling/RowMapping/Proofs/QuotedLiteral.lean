import RowMapping.Proofs.Layout
import RowMapping.Proofs.LineByLine
import RowMapping.Proofs.Lines
import RowMapping.Proofs.Quoting
import RowMapping.Proofs.UntaggedText
/-!
# Quoted texts as literals

A quoted text is a string of JSON that stands for the text and for no other one, and it is one
literal of the code, whatever is written behind it.

* `jsonEscape?`, `codeUnit?`: what the escapes of JSON stand for;
* `JsonBody`, `IsJsonString`: what a string of JSON stands for;
* `JsonBody.unique`: no string of JSON stands for two texts;
* `isJsonString_quote_iff`: what a quoted text stands for;
* `lexemes_quote`: a quoted text is the first lexeme of what it begins;
* `quote_literal`: a quoted text reads back, and it is one token;
* `stream_sqlStruct`: the constants that hold the statements, each of them with one literal.
-/

namespace RowMapping

namespace Text

/-- The character that a backslash with one letter stands for in JSON. -/
def jsonEscape? (c : Char) : Option Char := if c = '/' then some '/' else shortEscape? c

/-- The digit that a hexadecimal digit of either case stands for. -/
def hexValue? (c : Char) : Option Nat := hexDigit? c.toLower

/-- The number that four hexadecimal digits stand for. -/
def codeUnit? (a b c d : Char) : Option Nat := do
  return (((← hexValue? a) * 16 + (← hexValue? b)) * 16 + (← hexValue? c)) * 16 + (← hexValue? d)

/-- What is written between the quotes of a string of JSON, and the text that it stands for. -/
inductive JsonBody : List Char → List Char → Prop
  | nil : JsonBody [] []
  | plain {c : Char} {body text : List Char} (hquote : c ≠ '"') (hslash : c ≠ '\\')
      (hcontrol : 32 ≤ c.toNat) (h : JsonBody body text) : JsonBody (c :: body) (c :: text)
  | short {letter c : Char} {body text : List Char} (hletter : jsonEscape? letter = some c)
      (h : JsonBody body text) : JsonBody ('\\' :: letter :: body) (c :: text)
  | unit {p q r s c : Char} {body text : List Char} (hunit : codeUnit? p q r s = some c.toNat)
      (h : JsonBody body text) : JsonBody ('\\' :: 'u' :: p :: q :: r :: s :: body) (c :: text)
  /-- A character beyond the first plane is written as its two halves. -/
  | pair {p q r s p' q' r' s' c : Char} {n : Nat} {body text : List Char}
      (hhigh : codeUnit? p q r s = some (0xd800 + n / 0x400))
      (hlow : codeUnit? p' q' r' s' = some (0xdc00 + n % 0x400)) (hc : c.toNat = 0x10000 + n)
      (h : JsonBody body text) :
      JsonBody ('\\' :: 'u' :: p :: q :: r :: s :: '\\' :: 'u' :: p' :: q' :: r' :: s' :: body)
        (c :: text)

/-- A string of JSON and the text that it stands for. -/
def IsJsonString (literal text : String) : Prop :=
  ∃ body, literal.toList = '"' :: body ++ ['"'] ∧ JsonBody body text.toList

/-! ### What a string of JSON stands for -/

section

variable {c d : Char} {n : Nat} {body text text' : List Char}

/-- A half of a pair is no character. -/
theorem toNat_ne_high (hd : d.toNat = 0x10000 + n) : c.toNat ≠ 0xd800 + n / 0x400 := by
  intro hc
  have hvalid : ∀ x : Char, x.toNat < 0xd800 ∨ 0xdfff < x.toNat ∧ x.toNat < 0x110000 :=
    fun x => x.valid
  have hcValid := hvalid c
  have hdValid := hvalid d
  omega

/-- **A string of JSON stands for one text.** -/
theorem JsonBody.unique (h : JsonBody body text) (h' : JsonBody body text') : text = text' := by
  induction h generalizing text' with
  | nil => cases h'; rfl
  | plain _ hslash _ _ ih =>
    cases h' with
    | plain _ _ _ h' => rw [ih h']
    | _ => exact absurd rfl hslash
  | short hletter _ ih =>
    cases h' with
    | plain _ hslash => exact absurd rfl hslash
    | short hletter' h' => rw [ih h', Option.some.inj (hletter.symm.trans hletter')]
    | _ => cases hletter
  | unit hunit _ ih =>
    cases h' with
    | plain _ hslash => exact absurd rfl hslash
    | short hletter => cases hletter
    | unit hunit' h' =>
      rw [ih h', Char.toNat_inj.1 (Option.some.inj (hunit.symm.trans hunit'))]
    | pair hhigh _ hc =>
      exact absurd (Option.some.inj (hunit.symm.trans hhigh)) (toNat_ne_high hc)
  | pair hhigh hlow hc _ ih =>
    cases h' with
    | plain _ hslash => exact absurd rfl hslash
    | short hletter => cases hletter
    | unit hunit => exact absurd (Option.some.inj (hunit.symm.trans hhigh)) (toNat_ne_high hc)
    | pair hhigh' hlow' hc' h' =>
      have hhighs := Option.some.inj (hhigh.symm.trans hhigh')
      have hlows := Option.some.inj (hlow.symm.trans hlow')
      rw [ih h', Char.toNat_inj.1 (hc.trans (Eq.trans (by omega) hc'.symm))]

theorem IsJsonString.unique {literal s t : String} (hs : IsJsonString literal s)
    (ht : IsJsonString literal t) : s = t := by
  obtain ⟨body, hbody, hs⟩ := hs
  obtain ⟨body', hbody', ht⟩ := ht
  obtain rfl : body = body' :=
    List.append_cancel_right (List.cons.inj (hbody.symm.trans hbody')).2
  exact String.toList_inj.1 (hs.unique ht)

/-- A control below the space in the general escape. -/
theorem codeUnit?_control (hc : c.toNat < 32) :
    codeUnit? '0' '0' (Nat.digitChar (c.toNat / 16)) (Nat.digitChar (c.toNat % 16)) =
      some c.toNat := by
  have hdigits : ∀ n < 32, codeUnit? '0' '0' (Nat.digitChar (n / 16)) (Nat.digitChar (n % 16)) =
      some n := by decide
  exact hdigits c.toNat hc

/-- A quoted character stands for the character. -/
theorem JsonBody.quotedChar_append (c : Char) (h : JsonBody body text) :
    JsonBody (quotedChar c ++ body) (c :: text) := by
  unfold quotedChar
  split
  case h_8 hquote hslash _ _ _ _ _ =>
    split
    · next hc =>
      have hescape : controlEscape c ++ body = '\\' :: 'u' :: '0' :: '0' ::
          Nat.digitChar (c.toNat / 16) :: Nat.digitChar (c.toNat % 16) :: body := rfl
      rw [hescape]
      exact .unit (codeUnit?_control hc) h
    · next hc => exact .plain hquote hslash (Nat.le_of_not_lt hc) h
  all_goals exact .short rfl h

theorem jsonBody_quoted (text : List Char) : JsonBody (text.flatMap quotedChar) text := by
  induction text with
  | nil => exact .nil
  | cons c text ih => exact ih.quotedChar_append c

/-- **A quoted text is a string of JSON that stands for the text**, and for no other one. -/
theorem isJsonString_quote_iff (s t : String) : IsJsonString (quote s) t ↔ t = s := by
  have hself : IsJsonString (quote s) s :=
    ⟨s.toList.flatMap quotedChar, String.toList_ofList, jsonBody_quoted s.toList⟩
  refine ⟨fun ht => ht.unique hself, ?_⟩
  rintro rfl
  exact hself

/-- No control below the space is written. -/
theorem le_toNat_of_mem_quotedChar (h : d ∈ quotedChar c) : 32 ≤ d.toNat := by
  have hdigits : ∀ n < 32, ("\\u00".toList ++ [Nat.digitChar (n / 16), Nat.digitChar (n % 16)]).all
      (fun d => decide (32 ≤ d.toNat)) = true := by decide
  unfold quotedChar at h
  split at h
  case h_8 =>
    split at h
    · next hc => exact of_decide_eq_true (List.all_eq_true.1 (hdigits c.toNat hc) d h)
    · next hc =>
      rw [List.mem_singleton.1 h]
      exact Nat.le_of_not_lt hc
  all_goals
    obtain rfl | rfl := List.mem_pair.1 h
    all_goals decide

theorem le_toNat_of_mem_quote {s : String} (h : d ∈ (quote s).toList) : 32 ≤ d.toNat := by
  rw [quote, String.toList_ofList, List.cons_append, List.mem_cons, List.mem_append,
    List.mem_singleton, List.mem_flatMap] at h
  obtain rfl | ⟨c, -, hd⟩ | rfl := h
  · decide
  · exact le_toNat_of_mem_quotedChar hd
  · decide

end

end Text

open Text

/-! ### A quoted text is one token -/

/-- A quoted text is cut off as one literal. -/
theorem lexemes_quote (s : String) (rest : List Char) :
    lexemes ((quote s).toList ++ rest) = ⟨.string, (quote s).toList⟩ :: lexemes rest := by
  have hquote : (quote s).toList = '"' :: (s.toList.flatMap quotedChar ++ ['"']) := by
    simp [quote]
  have hfits : Lexeme.Fits ⟨.string, '"' :: (s.toList.flatMap quotedChar ++ ['"'])⟩ rest :=
    .literal rfl (.closed (Lexeme.escaped_quoted s.toList) rest)
  rw [hquote]
  exact hfits.lexemes_append

/-- **A quoted text is one literal that reads back.**  Read as JSON it stands for the text that was
quoted and for no other one, so no two texts are quoted alike; it holds no control below the space;
and whatever is written behind it, it is the first token, and the tokens behind it are those of what
is written there. -/
theorem quote_literal (s : String) :
    (∀ t, IsJsonString (quote s) t ↔ t = s) ∧
      (∀ t, quote t = quote s → t = s) ∧
      (∀ c ∈ (quote s).toList, 0x20 ≤ c.toNat) ∧
      ∀ rest, (Token.stream ((quote s).toList ++ rest)).map Token.unplaced =
        (.string, quote s) :: (Token.stream rest).map Token.unplaced := by
  refine ⟨isJsonString_quote_iff s, fun t h => quote_injective h,
    fun c hc => le_toNat_of_mem_quote hc, fun rest => ?_⟩
  rw [map_unplaced_stream, map_unplaced_stream, lexemes_quote, code_cons_of_some rfl,
    List.map_cons, String.ofList_toList]
  rfl

/-! ### The statements in the generated code -/

namespace Mapping

/-- The tokens of a constant that holds a text. -/
def constantTokens (name text : String) : List (Token.Kind × String) :=
  ["static", "constexpr", "const", "char"].map (Token.Kind.word, ·) ++
    [(.mark, "*"), (.word, name), (.mark, "="), (.string, quote text), (.mark, ";")]

section

variable {c : Char} {word rest : List Char}

theorem code_word (h : isName word = true) (hc : endsWord c = true) (rest : List Char) :
    code (lexemes (word ++ c :: rest)) = (.word, word) :: code (lexemes (c :: rest)) := by
  rw [lexemes_name h (endsWord_head_mark hc rest), code_cons_of_some rfl]

theorem code_word_space (h : isName word = true) (rest : List Char) :
    code (lexemes (word ++ ' ' :: rest)) = (.word, word) :: code (lexemes rest) := by
  rw [code_word h rfl, code_lexemes_blank rfl]

theorem code_mark (h : isMark c = true) (rest : List Char) :
    code (lexemes (c :: rest)) = (.mark, [c]) :: code (lexemes rest) := by
  rw [lexemes_mark h, code_cons_of_some rfl]

theorem code_blanks (h : word.all isBlank = true) (rest : List Char) :
    code (lexemes (word ++ rest)) = code (lexemes rest) := by
  induction word with
  | nil => rfl
  | cons c word ih =>
    rw [List.all_cons, Bool.and_eq_true] at h
    rw [List.cons_append, code_lexemes_blank h.1, ih h.2]

/-- The code of a constant, and of what is written behind it. -/
theorem code_sqlConstant {name : String} (hname : isName name.toList = true) (text : String)
    (rest : List Char) :
    code (lexemes (((sqlConstant name text).flatMap fun line => line.toList ++ ['\n']) ++ rest)) =
      (constantTokens name text).map (fun k => (k.1, k.2.toList)) ++ code (lexemes rest) := by
  have htext : ((sqlConstant name text).flatMap fun line => line.toList ++ ['\n']) ++ rest =
      "        ".toList ++ ("static".toList ++ ' ' :: ("constexpr".toList ++ ' ' ::
        ("const".toList ++ ' ' :: ("char".toList ++ '*' :: ' ' :: (name.toList ++ ' ' :: '=' ::
          ("\n            ".toList ++ ((quote text).toList ++ ';' :: '\n' :: rest))))))) := by
    have hlines : sqlConstant name text = ["        static constexpr const char* " ++ name ++ " =",
        "            " ++ quote text ++ ";"] := rfl
    simp [hlines]
  rw [htext, code_blanks (by decide), code_word_space (by decide), code_word_space (by decide),
    code_word_space (by decide), code_word (by decide) rfl, code_mark (by decide),
    code_lexemes_blank rfl, code_word_space hname, code_mark (by decide), code_blanks (by decide),
    lexemes_quote, code_cons_of_some rfl, code_mark (by decide), code_lexemes_blank rfl]
  simp [constantTokens]

theorem code_sqlConstants {texts : List (String × String)}
    (h : ∀ t ∈ texts, isName t.1.toList = true) (rest : List Char) :
    code (lexemes (((texts.flatMap fun t => sqlConstant t.1 t.2).flatMap
        fun line => line.toList ++ ['\n']) ++ rest)) =
      (texts.flatMap fun t => constantTokens t.1 t.2).map (fun k => (k.1, k.2.toList)) ++
        code (lexemes rest) := by
  induction texts with
  | nil => rfl
  | cons t texts ih =>
    rw [List.forall_mem_cons] at h
    rw [List.flatMap_cons, List.flatMap_append, List.append_assoc, code_sqlConstant h.1, ih h.2,
      List.flatMap_cons, List.map_append, List.append_assoc]

end

/-- **The statements are the literals of their constants.**  Whatever the statements of an entity
read, the lines that hold them are one structure with one constant for each of them, and each
constant is the one literal that reads back as the statement. -/
theorem stream_sqlStruct (e : Entity) :
    (Token.stream ("\n".intercalate (sqlStruct e ++ [""])).toList).map Token.unplaced =
      ([(.word, "struct"), (.word, "SQL"), (.mark, "\x7b")] : List (Token.Kind × String)) ++
        ((sqlTexts e).flatMap fun t => constantTokens t.1 t.2) ++
        ([(.mark, "\x7d"), (.mark, ";"), (.finish, "")] : List (Token.Kind × String)) := by
  have hnames : ∀ name ∈ (sqlTexts e).map Prod.fst, isName name.toList = true := by
    rw [map_fst_sqlTexts]
    cases e.statements.update.isSome <;> cases e.statements.deleteWithPartition.isSome <;> decide
  have htext : ("\n".intercalate (sqlStruct e ++ [""])).toList =
      "    ".toList ++ ("struct".toList ++ ' ' :: ("SQL".toList ++ ' ' :: '\x7b' :: '\n' ::
        ((((sqlTexts e).flatMap fun t => sqlConstant t.1 t.2).flatMap
          fun line => line.toList ++ ['\n']) ++ ("    ".toList ++ '\x7d' :: ';' :: ['\n'])))) := by
    rw [toList_lines]
    simp [sqlStruct]
  rw [map_unplaced_stream, htext, code_blanks (by decide), code_word_space (by decide),
    code_word_space (by decide), code_mark (by decide), code_lexemes_blank rfl,
    code_sqlConstants fun t ht => hnames t.1 (List.mem_map_of_mem ht), code_blanks (by decide),
    code_mark (by decide), code_mark (by decide), code_lexemes_blank rfl]
  have hback : ∀ ks : List (Token.Kind × String),
      (ks.map fun k => (k.1, k.2.toList)).map (fun k => (k.1, String.ofList k.2)) = ks :=
    fun ks => by simp [Function.comp_def]
  rw [lexemes_nil]
  simp only [List.map_cons, List.map_append, hback, List.append_assoc, List.cons_append,
    List.nil_append, String.ofList_toList]
  rfl

end Mapping

end RowMapping
