import RowMapping.Failure
/-!
# Finding the headers to read

A path to a file stands for this file.  A path to a directory stands for the headers below it,
directory by directory in the order of the names; a directory that generated headers are written to
is left out with all that is below it, and links below the directory are not followed.

* `Directory.candidates`: the headers below a directory;
* `FileTree.collect`: the headers that some paths stand for.
-/

namespace RowMapping

/-- The headers below a directory that lies at the names `above` below the start of the walk, each
with the names that lead to it from there. -/
def Directory.candidates (above : List String) : Directory → List (List String)
  | empty => []
  | leaf _ (.link _) rest => rest.candidates above
  | leaf n (.file _) rest =>
    let here := above ++ [n]
    if (Path.ofNames false here).isCandidate then here :: rest.candidates above
    else rest.candidates above
  | inner n inside rest =>
    let here := above ++ [n]
    if (Path.ofNames false here).isGenerated then rest.candidates above
    else inside.candidates here ++ rest.candidates above

namespace FileTree

/-- The headers that a path stands for. -/
def sourcesAt (t : FileTree) (p : Path) : Except Failure (List Path) :=
  if t.isFile p then .ok [p]
  else
    match t.directory? p with
    | some inside => .ok ((inside.candidates []).map fun names => names.foldl Path.join p)
    | none => .error (.noSource p)

/-- The headers that some paths stand for, in order. -/
def collect (t : FileTree) (paths : List Path) : Except Failure (List Path) :=
  (paths.mapM t.sourcesAt).map List.flatten

end FileTree

end RowMapping
