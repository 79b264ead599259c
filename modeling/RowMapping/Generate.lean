import RowMapping.Compile
import RowMapping.FileTree.Include
import RowMapping.FileTree.Sources
/-!
# Generating headers in a file tree

A run reads every header that some paths stand for and writes what is generated for it into one
directory.  A header that cannot be compiled is reported, and the run goes on with the others; a file
that cannot be written ends the run.

* `FileTree.compileFile`: what is generated for one header;
* `Report`: what a run wrote, and which headers failed;
* `FileTree.generate`: a run.
-/

namespace RowMapping

/-- What a run wrote, and the headers that cannot be compiled. -/
structure Report where
  written : List Path := []
  failed : List (Path × Failure) := []
  deriving DecidableEq, Repr

namespace FileTree

/-- What is generated for the header at a path, to be written to a directory that is there. -/
def compileFile (t : FileTree) (source output : Path) : Except Failure (List GeneratedHeader) := do
  let text ← (t.read source).mapError .file
  let includePath ← (t.includePath source output).mapError .file
  (compile text.toList source.text ⟨includePath, source.fileName?.getD ""⟩).mapError .unresolved

/-- Writes headers to a directory, and gives their paths. -/
def writeHeaders (output : Path) :
    List GeneratedHeader → FileTree → Except FileError (List Path) × FileTree
  | [], t => (.ok [], t)
  | header :: headers, t =>
    let path := output.join header.fileName
    match t.write path (Text.encode header.text) with
    | .error e => (.error e, t)
    | .ok t =>
      let (paths, t) := writeHeaders output headers t
      (paths.map (path :: ·), t)

/-- Compiles headers one after the other and writes what is generated for them. -/
def compileFiles (output : Path) : List Path → FileTree → Except Failure Report × FileTree
  | [], t => (.ok {}, t)
  | source :: sources, t =>
    match t.compileFile source output with
    | .error e =>
      let (report, t) := compileFiles output sources t
      (report.map fun r => { r with failed := (source, e) :: r.failed }, t)
    | .ok headers =>
      match writeHeaders output headers t with
      | (.error e, t) => (.error (.file e), t)
      | (.ok paths, t) =>
        let (report, t) := compileFiles output sources t
        (report.map fun r => { r with written := paths ++ r.written }, t)

/-- Generates headers into a directory, which is made first, for the headers that some paths stand
for.  The tree is the one that the run leaves, also when it fails. -/
def generate (t : FileTree) (sources : List Path) (output : Path) :
    Except Failure Report × FileTree :=
  match t.makeDirectories output with
  | (.error e, t) => (.error (.file e), t)
  | (.ok (), t) =>
    match t.collect sources with
    | .error e => (.error e, t)
    | .ok sources => compileFiles output sources t

end FileTree

end RowMapping
