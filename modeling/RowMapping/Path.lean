import RowMapping.Text.Search
/-!
# Paths as they are written

A path is a text, which slashes divide into steps.  A step that is empty or a dot stays where it is.

* `Path.steps`, `Path.names`: all steps, and those that lead somewhere;
* `Path.fileName?`, `Path.extension?`: the name that a path ends in, and what stands behind its dot;
* `Path.join`, `Path.lineage`: going down one name, and the directories above;
* `Path.isCandidate`: the path of a header that was not generated.
-/

namespace RowMapping

/-- A path as it is written. -/
structure Path where
  text : String
  deriving DecidableEq, Repr

namespace Path

/-! ### Steps -/

/-- The path starts at the root. -/
def isAbsolute (p : Path) : Bool := p.text.toList.head? == some '/'

/-- The parts between the slashes. -/
def steps (p : Path) : List String := (p.text.toList.splitOn '/').map String.ofList

/-- A step that stays where it is. -/
def stays (step : String) : Bool := step == "" || step == "."

/-- The steps that lead somewhere. -/
def names (p : Path) : List String := p.steps.filter fun step => !stays step

/-- The path along some names, from the root or not. -/
def ofNames (absolute : Bool) (names : List String) : Path :=
  ⟨(if absolute then "/" else "") ++ "/".intercalate names⟩

/-- The path of a name in the directory of a path. -/
def join (p : Path) (name : String) : Path :=
  match p.text.toList.getLast? with
  | none | some '/' => ⟨p.text ++ name⟩
  | some _ => ⟨p.text ++ "/" ++ name⟩

/-- The path and the paths of the directories above it that have a name, from the inside out. -/
def lineage (p : Path) : List Path :=
  match p.names with
  | [] => []
  | _ :: names =>
    p :: ((List.range names.length).reverse.map fun n => ofNames p.isAbsolute (p.names.take (n + 1)))

/-! ### File names -/

/-- The name that a path ends in, unless it ends by going up. -/
def fileName? (p : Path) : Option String := p.names.getLast?.filter fun name => name != ".."

/-- What stands behind the last dot of a name that does not start with this dot. -/
def extensionOf? (name : String) : Option String :=
  let reversed := name.toList.reverse
  match reversed.dropWhile (· != '.') with
  | _ :: _ :: _ => some (String.ofList (reversed.takeWhile (· != '.')).reverse)
  | _ => none

/-- The extension of the file name. -/
def extension? (p : Path) : Option String := p.fileName?.bind extensionOf?

/-! ### Headers to read -/

/-- The extensions of headers. -/
def headerExtensions : List String := ["h", "hpp", "hh"]

/-- The path is one that generated headers are written to. -/
def isGenerated (p : Path) : Bool :=
  Text.occursIn "generated".toList p.text.toList ||
    (p.fileName?.map fun name => Text.occursIn "Wrapper".toList name.toList).getD false

/-- The path of a header that was not generated. -/
def isCandidate (p : Path) : Bool :=
  (p.extension?.map headerExtensions.contains).getD false && !p.isGenerated

@[simp] theorem stays_empty : stays "" = true := rfl

@[simp] theorem stays_dot : stays "." = true := rfl

/-- A generated path is no candidate. -/
theorem isCandidate_eq_false_of_isGenerated {p : Path} (h : p.isGenerated = true) :
    p.isCandidate = false := by
  simp [isCandidate, h]

end Path

end RowMapping
