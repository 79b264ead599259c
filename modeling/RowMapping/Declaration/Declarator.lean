import RowMapping.Member
import RowMapping.Tag.Comment
import RowMapping.Tag.MemberTags
import RowMapping.Token.Stream
/-!
# Members from statements

A statement declares a data member when its code reads as a type, a name and, if it has one, an
initial value.

* `withoutAttributes`: code without `[[…]]` groups;
* `declarator?`: code up to its initial value, if there is a single declarator;
* `spelling`: a type from its tokens;
* `Member.ofCode?`: the member that code declares.
-/

namespace RowMapping

open Text

namespace Declaration

/-- The tokens after the bracket that closes `depth` open ones. -/
def afterBrackets : Nat → List Token → List Token
  | _, [] => []
  | depth, t :: ts =>
    if t.reads "]" && depth ≤ 1 then ts
    else
      afterBrackets (if t.reads "[" then depth + 1 else if t.reads "]" then depth - 1 else depth) ts

theorem length_afterBrackets_le (depth : Nat) (ts : List Token) :
    (afterBrackets depth ts).length ≤ ts.length := by
  induction ts generalizing depth with
  | nil => simp [afterBrackets]
  | cons t ts ih =>
    simp only [afterBrackets]
    split
    · simp
    · exact Nat.le_succ_of_le (ih _)

/-- Code without its attribute groups. -/
def withoutAttributes : List Token → List Token
  | [] => []
  | [t] => [t]
  | t :: u :: ts =>
    if t.reads "[" && u.reads "[" then withoutAttributes (afterBrackets 2 ts)
    else t :: withoutAttributes (u :: ts)
termination_by ts => ts.length
decreasing_by
  all_goals
    have := length_afterBrackets_le 2 ts
    simp only [List.length_cons]
    omega

/-- The keywords that start a statement which declares no data member. -/
def nonMemberKeywords : List String :=
  ["using", "typedef", "friend", "static", "static_assert", "template", "enum", "struct", "class",
    "union", "namespace", "virtual", "explicit", "operator"]

/-- Code up to the first equals sign or brace outside of `angles` angle brackets, and the code from
there on.  A comma, colon or bracket before it means several declarators, a bit-field or an array,
which are out of reach. -/
def declarator? : Nat → List Token → Option (List Token × List Token)
  | _, [] => some ([], [])
  | angles, t :: ts =>
    if t.reads "<" then (declarator? (angles + 1) ts).map fun (d, rest) => (t :: d, rest)
    else if t.reads ">" then (declarator? (angles - 1) ts).map fun (d, rest) => (t :: d, rest)
    else if angles = 0 && (t.reads "=" || t.reads "\x7b") then some ([], t :: ts)
    else if angles = 0 && (t.reads "," || t.reads ":" || t.reads "[") then none
    else (declarator? angles ts).map fun (d, rest) => (t :: d, rest)

/-- An initial value is followed by another declarator: there is a comma outside of `depth`
brackets of any kind. -/
def hasTopLevelComma : Nat → List Token → Bool
  | _, [] => false
  | depth, t :: ts =>
    if t.reads "\x7b" || t.reads "[" || t.reads "<" then hasTopLevelComma (depth + 1) ts
    else if t.reads "\x7d" || t.reads "]" || t.reads ">" then hasTopLevelComma (depth - 1) ts
    else (depth = 0 && t.reads ",") || hasTopLevelComma depth ts

/-- A type spelled from its tokens: a blank stands between two words and behind a comma. -/
def spelling : List Token → String
  | [] => ""
  | [t] => t.text
  | t :: u :: ts =>
    t.text ++ (if (t.isWordLike && u.isWordLike) || t.reads "," then " " else "") ++
      spelling (u :: ts)

/-- The source text from the first of some tokens to the last one. -/
def sourceOf (source : List Char) (ts : List Token) : String :=
  match ts.head?, ts.getLast? with
  | some first, some last => String.ofList (trim (slice first.start last.stop source))
  | _, _ => ""

/-- The text of an initial value, whose equals sign is left out. -/
def initialText (source : List Char) : List Token → String
  | [] => ""
  | t :: ts => if t.reads "=" then sourceOf source ts else sourceOf source (t :: ts)

/-- The tag text in the comment behind a statement. -/
def tagText? (trailing : Option Token) : Option (List Char) :=
  trailing.bind fun t => memberText? t.text.toList

end Declaration

open Declaration

/-- The member that code declares, with the tags of the comment behind it. -/
def Member.ofCode? (source : List Char) (code : List Token) (trailing : Option Token) :
    Option Member := do
  let first ← code.head?
  guard !(nonMemberKeywords.contains first.text)
  guard !(code.any fun t => t.reads "(" || t.reads "~")
  let (declarator, initial) ← declarator? 0 code
  let name ← declarator.getLast?
  let type := declarator.dropLast
  guard (name.kind == .word && type.any fun t => t.kind == .word)
  guard !(hasTopLevelComma 0 initial)
  return {
    name := name.text
    type := spelling type
    initial := initialText source initial
    line := name.line
    tags := ((tagText? trailing).map (MemberTags.ofText name.text)).getD {} }

end RowMapping
