import RowMapping.Tag.Pairs
import RowMapping.Text.Blank
import RowMapping.Text.Word
/-!
# Tags of a class

An annotation block is a run of comment lines.  Each line is about the class itself or about lists
of it, and its words are separated by blanks.

* `ClassTag.ofWord`, `ClassTag.ofListWord`: the meaning of one word;
* `ClassTag.ofLine`, `ClassTag.lineNotices`: the tags of a line, and what is left out.
-/

namespace RowMapping.ClassTag

open Text

/-- The value of a decimal number without a sign, if all characters are ASCII digits. -/
def decimal? (cs : List Char) : Option Nat :=
  if cs.isEmpty || !cs.all isAsciiDigit then none
  else some (cs.foldl (fun n c => 10 * n + (c.toNat - 48)) 0)

/-- The page size that a text between commas gives: a decimal number of 16 bits, which blanks may
surround and a plus sign may precede. -/
def tier? (text : List Char) : Option UInt16 :=
  let digits := match trim text with
    | '+' :: digits => digits
    | digits => digits
  (decimal? digits).bind fun n => if n < UInt16.size then some n.toUInt16 else none

/-- The page sizes of a text. -/
def tiers (text : List Char) : List UInt16 := (text.splitOn ',').filterMap tier?

/-- The fragments of a text that give no page size. -/
def tierNotices (text : List Char) : List Notice :=
  ((text.splitOn ',').filter fun t => (tier? t).isNone).map fun t =>
    .malformedTier (String.ofList t) (String.ofList text)

/-- The value of a word `key=value`. -/
def value? (key : String) (word : List Char) : Option (List Char) :=
  (key ++ "=").toList.isPrefixOf? word

/-- The meaning of a word about the class. -/
def ofWord (word : List Char) : ClassTag :=
  if let some name := value? "table" word then table (String.ofList name)
  else if let some name := value? "model" word then model (String.ofList name)
  else if word = "read_only".toList || word = "read_only=true".toList then readOnly
  else if let some mapping := value? "enum" word then
    enumeration (EnumPair.ofClassTag mapping).1 (EnumPair.ofClassTag mapping).2
  else other (String.ofList word)

/-- The meaning of a word about lists of the class. -/
def ofListWord (word : List Char) : ClassTag :=
  if let some sizes := value? "limits" word then limits (tiers sizes)
  else if let some name := value? "entity" word then entity (String.ofList name)
  else other (String.ofList word)

/-- What is left out of a word about the class. -/
def wordNotices (word : List Char) : List Notice :=
  ((value? "enum" word).map EnumPair.classTagNotices).getD []

/-- What is left out of a word about lists. -/
def listWordNotices (word : List Char) : List Notice :=
  ((value? "limits" word).map tierNotices).getD []

/-- The tags of a line. -/
def ofLine (isList : Bool) (line : List Char) : List ClassTag :=
  (words line).map (if isList then ofListWord else ofWord)

/-- What is left out of a line. -/
def lineNotices (isList : Bool) (line : List Char) : List Notice :=
  (words line).flatMap (if isList then listWordNotices else wordNotices)

end RowMapping.ClassTag
