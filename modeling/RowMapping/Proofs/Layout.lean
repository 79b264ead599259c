import RowMapping.Compile
import RowMapping.Proofs.Lexing
/-!
# Headers that are laid out from their classes

A tree of namespaces and annotated classes is laid out as a header: one line for the head of a
namespace, for each annotation, for the head of a class and for each member, and one for every
closing brace.

* `Identifier`, `QualifiedName`, `TypeForm`, `Literal`, `TagWord`: the parts of a line;
* `MemberForm`, `ClassForm`, `Outline`: members, classes and trees, with their `text`;
* `MemberForm.member`, `ClassForm.declared`, `Outline.classes`: what a form describes, without lines;
* `TypeForm.lexemes_text`, `MemberForm.lexemes_text`: the lexemes of a type and of a member.
-/

namespace RowMapping

open Declaration Text

/-- The keywords of access labels. -/
def accessKeywords : List String := ["public", "private", "protected"]

/-- An identifier, keywords included. -/
def isName (text : List Char) : Bool :=
  (text.head?.map isNameStart).getD false && text.all isNamePart

/-- An identifier that is no keyword with which another kind of statement starts. -/
def isPlainName (text : List Char) : Bool :=
  isName text && !(nonMemberKeywords ++ accessKeywords).contains (String.ofList text)

/-- A name that can stand in a declaration. -/
structure Identifier where
  text : List Char
  valid : isPlainName text = true

/-- One or more names with double colons between them. -/
structure QualifiedName where
  first : Identifier
  more : List Identifier

/-- The text of a qualified name. -/
def QualifiedName.text (q : QualifiedName) : List Char :=
  q.first.text ++ q.more.flatMap fun n => ':' :: ':' :: n.text

mutual

/-- A type: words with a blank behind each, a qualified name, and perhaps arguments. -/
inductive TypeForm
  | plain (words : List Identifier) (name : QualifiedName)
  | applied (words : List Identifier) (name : QualifiedName) (arguments : TypeForms)

/-- One or more types with commas between them. -/
inductive TypeForms
  | last (t : TypeForm)
  | cons (t : TypeForm) (ts : TypeForms)

end

/-- The words in front of a qualified name, each with a blank behind it. -/
def wordsText (words : List Identifier) : List Char := words.flatMap fun n => n.text ++ [' ']

mutual

/-- The text of a type. -/
def TypeForm.text : TypeForm → List Char
  | .plain words name => wordsText words ++ name.text
  | .applied words name arguments =>
    wordsText words ++ (name.text ++ '<' :: (arguments.text ++ ['>']))

/-- The text of types with commas between them. -/
def TypeForms.text : TypeForms → List Char
  | .last t => t.text
  | .cons t ts => t.text ++ ',' :: ' ' :: ts.text

end

/-- A character of a decimal number behind its first digit, suffixes and exponents included. -/
def isNumeralPart (c : Char) : Bool := isNamePart c || c == '.' || c == '\''

/-- A digit, and what a decimal number goes on with. -/
structure Numeral where
  digit : Char
  more : List Char
  digit_valid : isAsciiDigit digit = true
  more_valid : more.all isNumeralPart = true

/-- What stands between the quotes of a one-line string literal without backslash. -/
structure QuotedText where
  text : List Char
  valid : text.all (fun c => c != '"' && c != '\n' && c != '\\') = true

/-- A decimal number, which a minus sign may precede, or a string literal. -/
inductive Literal
  | number (negative : Bool) (numeral : Numeral)
  | quoted (body : QuotedText)

/-- The text of a literal. -/
def Literal.text : Literal → List Char
  | number negative numeral => (if negative then ['-'] else []) ++ numeral.digit :: numeral.more
  | quoted body => '"' :: (body.text ++ ['"'])

/-- A word of an annotation: one or more characters that are not blank. -/
structure TagWord where
  text : List Char
  valid : (!text.isEmpty && text.all fun c => !isBlank c) = true

/-- Words, each behind a blank. -/
def TagWord.spread (ws : List TagWord) : List Char := ws.flatMap fun w => ' ' :: w.text

/-- Words with a blank between them. -/
def TagWord.joined (ws : List TagWord) : List Char := [' '].intercalate (ws.map TagWord.text)

/-- A data member, with a literal as its initial value and a comment with tags behind it, if it has
them. -/
structure MemberForm where
  type : TypeForm
  name : Identifier
  initial : Option Literal
  tags : Option (List TagWord)

namespace MemberForm

/-- The initial value of a member, with its equals sign. -/
def initialText : Option Literal → List Char
  | some value => ' ' :: '=' :: ' ' :: value.text
  | none => []

/-- The comment with tags, without slashes. -/
def commentText (ws : List TagWord) : List Char := ' ' :: (marker ++ TagWord.spread ws)

/-- The comment behind a member. -/
def trailingText : Option (List TagWord) → List Char
  | some ws => ' ' :: '/' :: '/' :: commentText ws
  | none => []

/-- The line of a member. -/
def text (m : MemberForm) : List Char :=
  m.type.text ++ ' ' :: (m.name.text ++ (initialText m.initial ++
    ';' :: (trailingText m.tags ++ ['\n'])))

/-- The member that is described, without its line. -/
def member (m : MemberForm) : Member where
  name := String.ofList m.name.text
  type := String.ofList m.type.text
  initial := (m.initial.map fun value => String.ofList value.text).getD ""
  line := 0
  tags := (m.tags.map fun ws =>
    MemberTags.ofText (String.ofList m.name.text) (TagWord.joined ws)).getD {}

end MemberForm

/-- An annotated class: the words of its annotations, of which there is one about the class and
perhaps one about lists, and its members. -/
structure ClassForm where
  tags : List TagWord
  listTags : Option (List TagWord)
  isStruct : Bool
  name : Identifier
  members : List MemberForm

namespace ClassForm

/-- An annotation without slashes. -/
def tagComment (isList : Bool) (ws : List TagWord) : List Char :=
  ' ' :: (marker ++ (if isList then "_list".toList else []) ++ TagWord.spread ws)

/-- The line of an annotation. -/
def tagLineText (isList : Bool) (ws : List TagWord) : List Char :=
  '/' :: '/' :: (tagComment isList ws ++ ['\n'])

/-- The keyword of a class. -/
def keyword (isStruct : Bool) : List Char := if isStruct then "struct".toList else "class".toList

/-- The label behind the head of a class, whose members are not public by themselves. -/
def labelText (isStruct : Bool) : List Char :=
  if isStruct then [] else "public".toList ++ [':', '\n']

/-- The lines of a class. -/
def text (c : ClassForm) : List Char :=
  tagLineText false c.tags ++ ((c.listTags.map (tagLineText true)).getD [] ++
    (keyword c.isStruct ++ ' ' :: (c.name.text ++ ' ' :: '\x7b' :: '\n' ::
      (labelText c.isStruct ++ (c.members.flatMap MemberForm.text ++ ['\x7d', ';', '\n'])))))

/-- The class that is described, in a namespace and without its lines. -/
def declared (c : ClassForm) (scope : String) : DeclaredClass where
  name := String.ofList c.name.text
  scope
  isStruct := c.isStruct
  line := 0
  tags := ClassTag.ofLine false (TagWord.joined c.tags) ++
    (c.listTags.map fun ws => ClassTag.ofLine true (TagWord.joined ws)).getD []
  members := c.members.map MemberForm.member

end ClassForm

/-- A tree of namespaces and annotated classes: nothing, a namespace and what follows it, or a class
and what follows it. -/
inductive Outline
  | done
  | scope (name : QualifiedName) (inner next : Outline)
  | entry (c : ClassForm) (next : Outline)

namespace Outline

/-- The keyword of a namespace. -/
def keyword : List Char := "namespace".toList

/-- The header of a tree. -/
def text : Outline → List Char
  | done => []
  | scope name inner next =>
    keyword ++ ' ' :: (name.text ++ ' ' :: '\x7b' :: '\n' ::
      (inner.text ++ '\x7d' :: '\n' :: next.text))
  | entry c next => c.text ++ next.text

/-- The classes of a tree in order, each with the namespaces around it, of which those in `around`
surround the whole tree. -/
def classes (around : List QualifiedName) : Outline → List DeclaredClass
  | done => []
  | scope name inner next => inner.classes (around ++ [name]) ++ next.classes around
  | entry c next =>
    c.declared ("::".intercalate (around.map fun q => String.ofList q.text)) :: next.classes around

end Outline

/-! ### Lexemes -/

/-- A single blank. -/
def Lexeme.space : Lexeme := ⟨.blank, [' ']⟩

/-- A line end. -/
def Lexeme.newline : Lexeme := ⟨.blank, ['\n']⟩

/-- A mark of one character. -/
def Lexeme.mark (c : Char) : Lexeme := ⟨.mark, [c]⟩

section

variable {rest : List Char}

theorem lexemes_space (hrest : ∀ d ∈ rest.head?, isBlank d = false) :
    lexemes (' ' :: rest) = .space :: lexemes rest := lexemes_blank (.inl rfl) hrest

theorem lexemes_newline (hrest : ∀ d ∈ rest.head?, isBlank d = false) :
    lexemes ('\n' :: rest) = .newline :: lexemes rest := lexemes_blank (.inr rfl) hrest

theorem isBlank_of_isNameStart {c : Char} (h : isNameStart c = true) : isBlank c = false := by
  simp only [isNameStart, isAsciiLetter, Bool.or_eq_true, Bool.and_eq_true, decide_eq_true_eq,
    beq_iff_eq] at h
  rcases h with h | rfl
  · simp [isBlank]
    omega
  · rfl

theorem exists_of_isName {text : List Char} (h : isName text = true) :
    ∃ c cs, text = c :: cs ∧ isNameStart c = true ∧ cs.all isNamePart = true := by
  cases text with
  | nil => cases h
  | cons c cs =>
    simp only [isName, List.head?_cons, Option.map_some, Option.getD_some, List.all_cons,
      Bool.and_eq_true] at h
    exact ⟨c, cs, rfl, h.1, h.2.2⟩

theorem lexemes_name {text : List Char} (h : isName text = true)
    (hrest : ∀ d ∈ rest.head?, endsWord d = true) :
    lexemes (text ++ rest) = ⟨.word, text⟩ :: lexemes rest := by
  obtain ⟨c, cs, rfl, hc, hcs⟩ := exists_of_isName h
  exact lexemes_word hc hcs hrest

theorem isBlank_head_name {text : List Char} (h : isName text = true) (rest : List Char) :
    ∀ d ∈ (text ++ rest).head?, isBlank d = false := by
  obtain ⟨c, cs, rfl, hc, -⟩ := exists_of_isName h
  rintro _ ⟨⟩
  exact isBlank_of_isNameStart hc

theorem Identifier.isName (n : Identifier) : RowMapping.isName n.text = true :=
  (Bool.and_eq_true_iff.1 n.valid).1

/-- The lexeme of a name. -/
def Identifier.lexeme (n : Identifier) : Lexeme := ⟨.word, n.text⟩

namespace QualifiedName

/-- The lexemes of the names behind the first one. -/
def moreLexemes (more : List Identifier) : List Lexeme :=
  more.flatMap fun n => [⟨.mark, [':', ':']⟩, n.lexeme]

/-- The lexemes of a qualified name. -/
def lexemes (q : QualifiedName) : List Lexeme := q.first.lexeme :: moreLexemes q.more

theorem lexemes_more (more : List Identifier) (hrest : ∀ d ∈ rest.head?, endsWord d = true) :
    RowMapping.lexemes (more.flatMap (fun n => ':' :: ':' :: n.text) ++ rest) =
        moreLexemes more ++ RowMapping.lexemes rest ∧
      ∀ d ∈ (more.flatMap (fun n => ':' :: ':' :: n.text) ++ rest).head?, endsWord d = true := by
  induction more with
  | nil => exact ⟨rfl, hrest⟩
  | cons n more ih =>
    refine ⟨?_, fun d hd => ?_⟩
    · rw [List.flatMap_cons, List.cons_append, List.cons_append, List.cons_append, List.cons_append,
        lexemes_doubleColon, List.append_assoc, lexemes_name n.isName ih.2, ih.1]
      rfl
    · cases hd
      rfl

theorem lexemes_text (q : QualifiedName) (hrest : ∀ d ∈ rest.head?, endsWord d = true) :
    RowMapping.lexemes (q.text ++ rest) = q.lexemes ++ RowMapping.lexemes rest := by
  obtain ⟨hmore, hhead⟩ := lexemes_more q.more hrest
  rw [text, List.append_assoc, lexemes_name q.first.isName hhead, hmore]
  rfl

theorem isBlank_head (q : QualifiedName) (rest : List Char) :
    ∀ d ∈ (q.text ++ rest).head?, isBlank d = false := by
  rw [text, List.append_assoc]
  exact isBlank_head_name q.first.isName _

end QualifiedName

/-- The lexemes of words with a blank behind each. -/
def wordsLexemes (words : List Identifier) : List Lexeme := words.flatMap fun n => [n.lexeme, .space]

theorem isBlank_head_words (words : List Identifier)
    (hrest : ∀ d ∈ rest.head?, isBlank d = false) :
    ∀ d ∈ (wordsText words ++ rest).head?, isBlank d = false := by
  cases words with
  | nil => exact hrest
  | cons n words =>
    rw [wordsText, List.flatMap_cons, List.append_assoc, List.append_assoc]
    exact isBlank_head_name n.isName _

theorem lexemes_wordsText (words : List Identifier)
    (hrest : ∀ d ∈ rest.head?, isBlank d = false) :
    lexemes (wordsText words ++ rest) = wordsLexemes words ++ lexemes rest := by
  induction words with
  | nil => rfl
  | cons n words ih =>
    have hspace : lexemes (' ' :: (wordsText words ++ rest)) =
        .space :: lexemes (wordsText words ++ rest) :=
      lexemes_space (isBlank_head_words words hrest)
    have htext : wordsText (n :: words) ++ rest = n.text ++ ' ' :: (wordsText words ++ rest) := by
      simp [wordsText]
    rw [htext, lexemes_name n.isName (by simp [endsWord, isNamePart, isNameStart, isAsciiLetter,
      isAsciiDigit]), hspace, ih]
    rfl

mutual

/-- The lexemes of a type. -/
def TypeForm.lexemes : TypeForm → List Lexeme
  | .plain words name => wordsLexemes words ++ name.lexemes
  | .applied words name arguments =>
    wordsLexemes words ++ (name.lexemes ++ .mark '<' :: (arguments.lexemes ++ [.mark '>']))

/-- The lexemes of types with commas between them. -/
def TypeForms.lexemes : TypeForms → List Lexeme
  | .last t => t.lexemes
  | .cons t ts => t.lexemes ++ .mark ',' :: .space :: ts.lexemes

end

theorem TypeForm.isBlank_head (t : TypeForm) (rest : List Char) :
    ∀ d ∈ (t.text ++ rest).head?, isBlank d = false := by
  cases t with
  | plain words name =>
    rw [TypeForm.text, List.append_assoc]
    exact isBlank_head_words words (name.isBlank_head _)
  | applied words name arguments =>
    rw [TypeForm.text, List.append_assoc, List.append_assoc]
    exact isBlank_head_words words (name.isBlank_head _)

theorem TypeForms.isBlank_head (ts : TypeForms) (rest : List Char) :
    ∀ d ∈ (ts.text ++ rest).head?, isBlank d = false := by
  cases ts with
  | last t => exact t.isBlank_head rest
  | cons t ts =>
    rw [TypeForms.text, List.append_assoc]
    exact t.isBlank_head _

theorem endsWord_head_mark {c : Char} (hc : endsWord c = true) (rest : List Char) :
    ∀ d ∈ (c :: rest).head?, endsWord d = true := by
  rintro _ ⟨⟩
  exact hc

mutual

/-- A type is cut into its lexemes. -/
theorem TypeForm.lexemes_text : (t : TypeForm) → {rest : List Char} →
    (∀ d ∈ rest.head?, endsWord d = true) →
    RowMapping.lexemes (t.text ++ rest) = t.lexemes ++ RowMapping.lexemes rest
  | .plain words name, rest, hrest => by
    rw [TypeForm.text, TypeForm.lexemes, List.append_assoc,
      lexemes_wordsText words (name.isBlank_head rest), name.lexemes_text hrest, List.append_assoc]
  | .applied words name arguments, rest, _ => by
    have hopen := endsWord_head_mark (c := '<') rfl (arguments.text ++ '>' :: rest)
    have hclose := endsWord_head_mark (c := '>') rfl rest
    have htext : (TypeForm.applied words name arguments).text ++ rest =
        wordsText words ++ (name.text ++ '<' :: (arguments.text ++ '>' :: rest)) := by
      simp [TypeForm.text]
    rw [htext, lexemes_wordsText words (name.isBlank_head _), name.lexemes_text hopen,
      lexemes_mark rfl, arguments.lexemes_text hclose, lexemes_mark rfl, TypeForm.lexemes]
    simp [Lexeme.mark]

/-- Types with commas between them are cut into their lexemes. -/
theorem TypeForms.lexemes_text : (ts : TypeForms) → {rest : List Char} →
    (∀ d ∈ rest.head?, endsWord d = true) →
    RowMapping.lexemes (ts.text ++ rest) = ts.lexemes ++ RowMapping.lexemes rest
  | .last t, rest, hrest => t.lexemes_text hrest
  | .cons t ts, rest, hrest => by
    have hcomma := endsWord_head_mark (c := ',') rfl (' ' :: (ts.text ++ rest))
    have htext : (TypeForms.cons t ts).text ++ rest =
        t.text ++ ',' :: ' ' :: (ts.text ++ rest) := by
      simp [TypeForms.text]
    rw [htext, t.lexemes_text hcomma, lexemes_mark rfl, lexemes_space (ts.isBlank_head rest),
      ts.lexemes_text hrest, TypeForms.lexemes]
    simp [Lexeme.mark]

end

end

end RowMapping
