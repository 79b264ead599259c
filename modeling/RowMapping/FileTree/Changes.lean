import RowMapping.FileTree.Basic
/-!
# What changed in a file tree

* `Change`: one entry that is new or holds other bytes;
* `FileTree.changesSince`: what a tree holds that another one does not, the outer entries first.
-/

namespace RowMapping

/-- An entry that is new or holds other bytes. -/
inductive Change
  | directory (here : Location)
  | file (here : Location) (content : List UInt8)
  deriving DecidableEq

namespace FileTree

/-- What a directory at the location `above` holds that the tree `old` does not.  No command makes
links, so that they count as no change. -/
def changesIn (old : FileTree) (above : Location) : Directory → List Change
  | .empty => []
  | .leaf _ (.link _) rest => old.changesIn above rest
  | .leaf n (.file content) rest =>
    let here := above ++ [n]
    if old.root.at? here = some (.leaf (.file content)) then old.changesIn above rest
    else .file here content :: old.changesIn above rest
  | .inner n inside rest =>
    let here := above ++ [n]
    let below := old.changesIn here inside ++ old.changesIn above rest
    match old.root.at? here with
    | some (.directory _) => below
    | _ => .directory here :: below

/-- What a tree holds that another one does not. -/
def changesSince (old t : FileTree) : List Change := old.changesIn [] t.root

end FileTree

end RowMapping
