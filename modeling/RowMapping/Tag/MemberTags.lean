import RowMapping.Tag.ClassTag
/-!
# Tags of a member

The comment behind a member holds words that are separated by blanks: enum pairs, a column name,
filters, sort keys and flags.

* `Filter.ofTag`, `SortKey.ofTag`: the meaning of a filter or sort word;
* `MemberTags.add`: one more word;
* `MemberTags.ofText`, `MemberTags.notices`: the tags of a text, and what is left out.
-/

namespace RowMapping

open Text

/-- The filter on `field` that a word gives: a lone second part is an operator if it names one and
else a parameter; a third part is an operator. -/
def Filter.ofTag (field : String) (tag : List Char) : Filter :=
  match (tag.splitOn ':').map String.ofList with
  | _ :: param :: op :: _ => ⟨param, field, (FilterOp.ofName? op).getD .eq⟩
  | [_, second] =>
    match FilterOp.ofName? second with
    | some op => ⟨field, field, op⟩
    | none => ⟨second, field, .eq⟩
  | _ => ⟨field, field, .eq⟩

/-- A third part of a filter word that names no operator. -/
def Filter.tagNotices (field : String) (tag : List Char) : List Notice :=
  match (tag.splitOn ':').map String.ofList with
  | _ :: _ :: op :: _ =>
    if (FilterOp.ofName? op).isNone then [.unknownOperator op field] else []
  | _ => []

/-- The sort key on `field` that a word gives: a lone second part is a direction if it names one
and else a parameter; a third part is a direction. -/
def SortKey.ofTag (field : String) (tag : List Char) : SortKey :=
  match (tag.splitOn ':').map String.ofList with
  | _ :: param :: direction :: _ => ⟨param, field, (Direction.ofName? direction).getD .desc⟩
  | [_, second] =>
    match Direction.ofName? second with
    | some direction => ⟨field, field, direction⟩
    | none => ⟨second, field, .desc⟩
  | _ => ⟨field, field, .desc⟩

namespace MemberTags

/-- What a word behind a member is. -/
inductive Word
  | pairs (text : List Char)
  | column (name : String)
  | filter (tag : List Char)
  | sort (tag : List Char)
  | flag (flag : MemberFlag)
  deriving DecidableEq, Repr

/-- What a word is: a filter or sort word is known by the part before its first colon. -/
def Word.ofText (word : List Char) : Word :=
  let head := word.takeWhile (· != ':')
  if let some text := ClassTag.value? "enum" word then .pairs text
  else if let some name := ClassTag.value? "column" word then .column (String.ofList name)
  else if head = "filterable".toList then .filter word
  else if head = "sortable".toList then .sort word
  else .flag (MemberFlag.ofWord (String.ofList word))

/-- The tags with one more word on the member `field`: the last column counts, a flag counts once,
and all else is collected. -/
def add (field : String) (tags : MemberTags) : Word → MemberTags
  | .pairs text => { tags with pairs := tags.pairs ++ EnumPair.listOf text }
  | .column name => { tags with column := some name }
  | .filter tag => { tags with filters := tags.filters ++ [Filter.ofTag field tag] }
  | .sort tag => { tags with sorts := tags.sorts ++ [SortKey.ofTag field tag] }
  | .flag flag =>
    if tags.has flag then tags else { tags with flags := tags.flags ++ [flag] }

/-- The tags of the text behind the member `field`. -/
def ofText (field : String) (text : List Char) : MemberTags :=
  ((words text).map Word.ofText).foldl (add field) {}

/-- What is left out of one word. -/
def Word.notices (field : String) : Word → List Notice
  | .pairs text => EnumPair.notices text
  | .filter tag => Filter.tagNotices field tag
  | _ => []

/-- What is left out of the text behind the member `field`. -/
def notices (field : String) (text : List Char) : List Notice :=
  (words text).flatMap fun w => (Word.ofText w).notices field

end MemberTags

end RowMapping
