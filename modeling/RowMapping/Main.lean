import RowMapping.Command.Perform
import RowMapping.FileTree.Changes
/-!
# The program

The program notes the part of the disk that its command can reach as a file tree, performs the
command there, and writes what changed.
-/

namespace RowMapping.Program

/-- The path of a location on the disk. -/
def diskPath (here : Location) : String := (Path.ofNames true here).text

/-- The names that lead to a place on the disk. -/
def locationOf (text : String) : Location := Path.names ⟨text⟩

/-- Notes an entry, unless something is noted there already. -/
def note (t : FileTree) (here : Location) (e : Entry) : FileTree :=
  if (t.root.at? here).isSome then t else t.put here e

/-- Where a location lies on the disk when all links are followed, if something is there. -/
def realLocation? (here : Location) : IO (Option Location) := do
  try
    return some (locationOf (← IO.FS.realPath (diskPath here)).toString)
  catch _ => return none

/-- Notes what is at a location that no link leads to; the bytes of a file only when asked for. -/
def noteEntry (t : FileTree) (here : Location) (withContent : Bool) : IO FileTree := do
  let place ← IO.FS.realPath (diskPath here)
  if ← place.isDir then return note t here (.directory .empty)
  if withContent then
    let bytes ← IO.FS.readBinFile place
    return t.put here (.leaf (.file bytes.data.toList))
  return note t here (.leaf (.file []))

/-- Notes the directory at a location, and with `deep` all that is below it; the bytes only of headers
that may be read. -/
partial def noteBelow (t : FileTree) (here : Location) (deep : Bool) : IO FileTree := do
  let place ← IO.FS.realPath (diskPath here)
  unless ← place.isDir do return t
  let mut t := t
  for entry in ← place.readDir do
    let inside := here ++ [entry.fileName]
    match ← realLocation? inside with
    | none => pure ()
    | some real =>
      if real = inside then
        t ← noteEntry t inside (deep && Path.isCandidate ⟨entry.fileName⟩)
        if deep then t ← noteBelow t inside deep
      else t := note t inside (.leaf (.link (Path.ofNames true real)))
  return t

/-- Notes what the steps of a path lead through, and what is below its end. -/
partial def noteAlong (t : FileTree) (deep : Bool) (here : Location) : List String → IO FileTree
  | [] => noteBelow t here deep
  | step :: rest => do
    if Path.stays step then noteAlong t deep here rest
    else if step = ".." then noteAlong t deep here.dropLast rest
    else
      let inside := here ++ [step]
      match ← realLocation? inside with
      | none => return t
      | some real =>
        if real = inside then noteAlong (← noteEntry t inside rest.isEmpty) deep inside rest
        else
          let t := note t inside (.leaf (.link (Path.ofNames true real)))
          noteAlong t deep [] (real ++ rest)

/-- Notes what a path can reach. -/
def notePath (deep : Bool) (t : FileTree) (p : Path) : IO FileTree :=
  noteAlong t deep (FileTree.start t.home p) p.steps

/-- Notes what a command can reach. -/
def noteCommand (t : FileTree) : Command → IO FileTree
  | .generate sources output => do
    notePath false (← sources.foldlM (notePath true) t) output
  | .inspect input | .print input => notePath false t input

/-- Writes a change to the disk. -/
def writeChange : Change → IO Unit
  | .directory here => IO.FS.createDir (diskPath here)
  | .file here content => IO.FS.writeBinFile (diskPath here) ⟨content.toArray⟩

/-- The place of a change. -/
def changedPlace : Change → String
  | .directory here | .file here _ => diskPath here

/-- Shows an outcome. -/
def display (o : Outcome) : IO UInt32 := do
  IO.print o.output
  o.failures.forM fun message => IO.eprintln message
  return o.code

/-- Performs a command on the disk. -/
def performOnDisk (verbose : Bool) (command : Command) : IO UInt32 := do
  let home := locationOf (← IO.FS.realPath (← IO.currentDir)).toString
  let t ← noteCommand (.atHome home) command
  let (outcome, left) := command.perform t
  for change in t.changesSince left do
    writeChange change
    if verbose then IO.eprintln (changedPlace change)
  display outcome

end RowMapping.Program

/-- Performs the command of the command line. -/
def main (args : List String) : IO UInt32 :=
  match RowMapping.Command.ofArguments args with
  | .ok (verbose, command) => RowMapping.Program.performOnDisk verbose command
  | .error stop => RowMapping.Program.display (.ofStop stop)
