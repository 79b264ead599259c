import RowMapping.Tag.ClassTag
import RowMapping.Text.Search
/-!
# Comments that carry tags

* `TagLine.ofComment?`: a comment line that belongs to an annotation block;
* `memberText?`: the tag text in the comment behind a member.
-/

namespace RowMapping

open Text

/-- The word that marks a comment as an annotation. -/
def marker : List Char := "@relais".toList

/-- One line of an annotation block: whether it is about lists, and its text. -/
structure TagLine where
  isList : Bool
  content : List Char
  deriving DecidableEq, Repr

namespace TagLine

/-- What stands behind the marker of a line: nothing, or blanks and a text on one line. -/
def content? (cs : List Char) : Option (List Char) :=
  match cs with
  | [] => some []
  | c :: _ =>
    let content := trimStart cs
    if isBlank c && !content.contains '\n' then some (trim content) else none

/-- The annotation in a comment: two slashes and the marker, which may be the one for lists. -/
def ofComment? (comment : List Char) : Option TagLine :=
  match "//".toList.isPrefixOf? (trim comment) with
  | none => none
  | some body =>
    match marker.isPrefixOf? (trimStart body) with
    | none => none
    | some rest =>
      match "_list".toList.isPrefixOf? rest with
      | some rest => (content? rest).map fun content => ⟨true, content⟩
      | none => (content? rest).map fun content => ⟨false, content⟩

/-- The tags of a line. -/
def tags (a : TagLine) : List ClassTag := ClassTag.ofLine a.isList a.content

/-- What is left out of a line. -/
def notices (a : TagLine) : List Notice := ClassTag.lineNotices a.isList a.content

end TagLine

/-- The text behind the first marker in a comment that is a word of its own. -/
def memberText? : List Char → Option (List Char)
  | [] => none
  | c :: cs =>
    match marker.isPrefixOf? (c :: cs) with
    | some rest =>
      if (rest.head?.map isWord).getD false then memberText? cs else some (trim rest)
    | none => memberText? cs

end RowMapping
