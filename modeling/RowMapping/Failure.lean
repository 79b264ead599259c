import RowMapping.Entity.Resolve
import RowMapping.FileTree.Basic
/-!
# Failures

Why a header cannot be compiled, or a run cannot go on.

* `Failure`: the causes;
* `Failure.message`: their texts.
-/

namespace RowMapping

/-- Why a header cannot be compiled, or a run cannot go on. -/
inductive Failure
  /-- An enum member has no pairs. -/
  | unresolved (e : UnresolvedEnum)
  /-- A path to read headers from leads to no file and to no directory. -/
  | noSource (path : Path)
  /-- A path cannot be used. -/
  | file (e : FileError)
  deriving DecidableEq, Repr

/-- The text of the failure. -/
def Failure.message : Failure → String
  | unresolved e => e.message
  | noSource path => path.text ++ ": not a file or directory"
  | file e => "I/O error: " ++ e.message

end RowMapping
