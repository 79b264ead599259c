import RowMapping.Command.Arguments
import RowMapping.Entity.Report
import RowMapping.Generate
/-!
# Performing commands

A command reads from a file tree and leaves one.

* `Outcome`: what a command shows;
* `Command.perform`: a command in a file tree;
* `performArguments`: a command line in a file tree.
-/

namespace RowMapping

/-- What a command shows: the exit code, the text for the standard output, and the failures. -/
structure Outcome where
  code : UInt32
  output : String := ""
  failures : List String := []
  deriving DecidableEq, Repr

namespace Outcome

/-- The outcome of a command that fails. -/
def ofFailure (e : Failure) : Outcome := { code := 1, failures := [e.message] }

/-- The outcome of a command that shows a text, or fails. -/
def ofText : Except Failure String → Outcome
  | .ok output => { code := 0, output }
  | .error e => ofFailure e

/-- The outcome of a command line that gives no command. -/
def ofStop : Stop → Outcome
  | .help => { code := 0 }
  | .misuse => { code := 2, failures := ["the command line cannot be used"] }

/-- The outcome of a run that generates headers. -/
def ofReport (output : Path) (r : Report) : Outcome where
  code := if r.failed.isEmpty then 0 else 1
  output := "Generated " ++ toString r.written.length ++ " wrapper(s) in " ++ output.text ++ "\n"
  failures := r.failed.map fun (path, e) => path.text ++ ": " ++ e.message

end Outcome

namespace FileTree

/-- The entities of the header at a path, as they are reported. -/
def inspect (t : FileTree) (input : Path) : Except Failure String := do
  let text ← (t.read input).mapError .file
  let es ← (allEntities text.toList input.text).mapError .unresolved
  return (Json.array (es.map Entity.toJson)).render ++ "\n"

/-- One generated header below its name. -/
def showHeader (header : GeneratedHeader) : String :=
  "// ---- " ++ header.fileName ++ " ----\n" ++ header.text ++ "\n"

/-- What is generated for the header at a path. -/
def print (t : FileTree) (input : Path) : Except Failure String := do
  let text ← (t.read input).mapError .file
  let names : SourceNames := ⟨input.text, input.fileName?.getD ""⟩
  let headers ← (compile text.toList input.text names).mapError .unresolved
  return String.join (headers.map showHeader)

end FileTree

/-- What a command shows, and the tree that it leaves. -/
def Command.perform (t : FileTree) : Command → Outcome × FileTree
  | generate sources output =>
    match t.generate sources output with
    | (.ok report, t) => (.ofReport output report, t)
    | (.error e, t) => (.ofFailure e, t)
  | inspect input => (.ofText (t.inspect input), t)
  | print input => (.ofText (t.print input), t)

/-- What a command line shows, and the tree that it leaves. -/
def performArguments (t : FileTree) (args : List String) : Outcome × FileTree :=
  match Command.ofArguments args with
  | .ok (_, command) => command.perform t
  | .error stop => (.ofStop stop, t)

end RowMapping
