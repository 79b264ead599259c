import RowMapping.FileTree.Basic
/-!
# Include paths

A generated header includes the annotated one by the way from the directory of the generated header.

* `relativeNames`: the way from one location to another;
* `FileTree.includePath`: the way between what two paths lead to.
-/

namespace RowMapping

/-- The way from the location `base` to the location `target`: up as often as needed, then down. -/
def relativeNames : (base target : Location) → List String
  | b :: base, t :: target =>
    if b = t then relativeNames base target
    else List.replicate (base.length + 1) ".." ++ t :: target
  | [], target => target
  | base, [] => List.replicate base.length ".."

/-- The way between what two paths lead to. -/
def FileTree.includePath (t : FileTree) (target base : Path) : Except FileError String := do
  let target ← t.locate target
  let base ← t.locate base
  return "/".intercalate (relativeNames base target)

end RowMapping
