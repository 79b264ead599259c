import RowMapping.Notice
import RowMapping.Tag.Basic
/-!
# Enum pairs in a tag

A list of pairs is written `external:Enumerator,external:Enumerator`.  A fragment between commas
that has not exactly two parts is left out, and the others keep their order.

* `EnumPair.listOf`, `EnumPair.notices`: the pairs of a text, and what is left out;
* `EnumPair.ofClassTag`: the member and the pairs of a mapping that a block gives.
-/

namespace RowMapping.EnumPair

/-- The pair that a fragment gives, if it has exactly two parts. -/
def ofFragment? (fragment : List Char) : Option EnumPair :=
  match fragment.splitOn ':' with
  | [external, enumerator] => some ⟨String.ofList external, String.ofList enumerator⟩
  | _ => none

/-- The pairs of a text. -/
def listOf (text : List Char) : List EnumPair := (text.splitOn ',').filterMap ofFragment?

/-- The fragments of a text that give no pair. -/
def notices (text : List Char) : List Notice :=
  ((text.splitOn ',').filter fun f => (ofFragment? f).isNone).map fun f =>
    .malformedPair (String.ofList f)

/-- The member that a mapping in a block is for. -/
def fieldOfClassTag (text : List Char) : List Char := text.takeWhile (· != ':')

/-- The text of the pairs of a mapping in a block, which the first colon starts. -/
def pairsOfClassTag? (text : List Char) : Option (List Char) :=
  match text.dropWhile (· != ':') with
  | [] => none
  | _ :: pairs => some pairs

/-- The member and the pairs of a mapping that a block gives. -/
def ofClassTag (text : List Char) : String × List EnumPair :=
  (String.ofList (fieldOfClassTag text), ((pairsOfClassTag? text).map listOf).getD [])

/-- What is left out of a mapping that a block gives. -/
def classTagNotices (text : List Char) : List Notice :=
  ((pairsOfClassTag? text).map notices).getD []

end RowMapping.EnumPair
