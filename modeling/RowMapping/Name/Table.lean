import RowMapping.Text.Cluster
import RowMapping.Text.LetterCase
import RowMapping.Text.Word
/-!
# Table names derived from class names

A class without a table of its own is stored in the table whose name spells the words of the class
name in lower case, joined by underscores.  Which boundaries end a word is chosen for table names.
How a text is split at boundaries is the rule of the library for letter cases: it goes by clusters,
at each place the first boundary of the list counts, and words that are empty are kept, so no
underscore of a name is lost.

* `Boundary`, `Boundary.isAt`, `Boundary.takesOut`: the boundaries, where they are, and what they
  take out;
* `splitWords`: a text that is split at some boundaries;
* `tableNameBoundaries`: the boundaries of table names;
* `tableName`: the derived name.
-/

namespace RowMapping.Name

open Text

/-- A cluster that reads as a capital. -/
def isCapital (g : List Char) : Bool := !g.any hasUpper && g.any hasLower

/-- A cluster that reads as a small letter. -/
def isSmall (g : List Char) : Bool := !g.any hasLower && g.any hasUpper

/-- A cluster that is an ASCII digit. -/
def isNumeral (g : List Char) : Bool := g.all isAsciiDigit

/-! ### Splitting at boundaries -/

/-- What a text can be split at. -/
inductive Boundary
  /-- An underscore. -/
  | underscore
  /-- A small letter and a capital. -/
  | lowerUpper
  /-- A digit and a capital. -/
  | digitUpper
  /-- Two capitals and a small letter. -/
  | acronym
  deriving DecidableEq, Repr

/-- The boundary is at the start of the clusters. -/
def Boundary.isAt : Boundary → List (List Char) → Bool
  | underscore, g :: _ => g = ['_']
  | lowerUpper, g :: h :: _ => isSmall g && isCapital h
  | digitUpper, g :: h :: _ => isNumeral g && isCapital h
  | acronym, g :: h :: i :: _ => isCapital g && isCapital h && isSmall i
  | _, _ => false

/-- The first cluster of a boundary stands between two words and belongs to none.  Otherwise it is
the last one of its word. -/
def Boundary.takesOut : Boundary → Bool
  | underscore => true
  | lowerUpper | digitUpper | acronym => false

/-- The words of a text that is given by its clusters; at each place the first boundary counts, and
a word may be empty. -/
def splitWords (boundaries : List Boundary) : List (List Char) → List (List Char)
  | [] => [[]]
  | g :: rest =>
    match boundaries.find? fun b => b.isAt (g :: rest) with
    | some b => (if b.takesOut then [] else g) :: splitWords boundaries rest
    | none =>
      match splitWords boundaries rest with
      | [] => [g]
      | w :: ws => (g ++ w) :: ws

/-! ### Table names -/

/-- The boundaries of table names.  A digit stays with the letters before it, and a capital behind a
digit starts a word. -/
def tableNameBoundaries : List Boundary := [.underscore, .lowerUpper, .digitUpper, .acronym]

/-- The table name derived from a class name. -/
def tableName (name : String) : String :=
  let words := splitWords tableNameBoundaries (clusters name.toList)
  "_".intercalate (words.map fun w => String.ofList (lowerCase w))

end RowMapping.Name
