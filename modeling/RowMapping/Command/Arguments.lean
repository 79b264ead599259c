import RowMapping.Path
/-!
# Command lines

A command line is a command word with its arguments, and options around it:

    [-v] generate -s PATH... -o PATH
    [-v] inspect PATH
    [-v] print PATH
    help [WORD]

An option has a long and a short form, the value of a short form may follow it without a blank, and
short forms may be written together.  Arguments are read from the left, and the first one that asks
for help or cannot be used ends the reading.

* `Command`: what can be asked for;
* `Mark.ofArgument`: the options in one argument;
* `Draft`: the arguments of a command that are read so far;
* `Command.ofArguments`: the command of a command line.
-/

namespace RowMapping

/-- What can be asked for. -/
inductive Command
  /-- Generate headers into a directory for those that some paths stand for. -/
  | generate (sources : List Path) (output : Path)
  /-- Show the entities of a header. -/
  | inspect (input : Path)
  /-- Show what is generated for a header. -/
  | print (input : Path)
  deriving DecidableEq, Repr

/-- Why a command line gives no command. -/
inductive Stop
  /-- It asks for help. -/
  | help
  /-- It cannot be used. -/
  | misuse
  deriving DecidableEq, Repr

/-! ### Options -/

/-- One option, with the value that is written in the same argument. -/
inductive Mark
  | verbose
  | help
  | sources (value : Option String)
  | output (value : Option String)
  | unknown
  deriving DecidableEq, Repr

/-- An argument. -/
inductive Argument
  | options (marks : List Mark)
  /-- The sign that no option follows. -/
  | separator
  | plain (text : String)
  deriving DecidableEq, Repr

namespace Mark

/-- The value behind a short option: nothing, or what follows it or the equals sign. -/
def shortValue? : List Char → Option String
  | [] => none
  | '=' :: value => some (String.ofList value)
  | value => some (String.ofList value)

/-- The options of short forms written together. -/
def ofShort : List Char → List Mark
  | [] => []
  | 'v' :: cs => verbose :: ofShort cs
  | 'h' :: cs => help :: ofShort cs
  | 's' :: cs => [sources (shortValue? cs)]
  | 'o' :: cs => [output (shortValue? cs)]
  | _ => [unknown]

/-- The value behind a long option. -/
def longValue? (cs : List Char) : Option String :=
  match cs.dropWhile (· != '=') with
  | [] => none
  | _ :: value => some (String.ofList value)

/-- The option of a long form. -/
def ofLong (cs : List Char) : Mark :=
  match String.ofList (cs.takeWhile (· != '=')), longValue? cs with
  | "verbose", none => verbose
  | "help", none => help
  | "sources", value => sources value
  | "output-dir", value => output value
  | _, _ => unknown

end Mark

/-- How an argument is read. -/
def Argument.ofText (text : String) : Argument :=
  match text.toList with
  | ['-', '-'] => separator
  | '-' :: '-' :: cs => options [Mark.ofLong cs]
  | '-' :: c :: cs => options (Mark.ofShort (c :: cs))
  | _ => plain text

/-! ### Arguments of a command -/

/-- The word of a command. -/
inductive Verb
  | generate
  | inspect
  | print
  deriving DecidableEq, Repr

/-- The command of a word. -/
def Verb.ofWord? : String → Option Verb
  | "generate" => some .generate
  | "inspect" => some .inspect
  | "print" => some .print
  | _ => none

/-- The option whose values are being read. -/
inductive Pending
  | nothing
  /-- Paths to read headers from, of which some may have been given. -/
  | sources (given : Bool)
  | output
  deriving DecidableEq, Repr

/-- The arguments of a command that are read so far. -/
structure Draft where
  verb : Verb
  verbose : Bool := false
  sources : List Path := []
  output : Option Path := none
  input : Option Path := none
  pending : Pending := .nothing
  deriving DecidableEq, Repr

namespace Draft

/-- The draft when an option ends, which must have got a value. -/
def settle (d : Draft) : Except Stop Draft :=
  match d.pending with
  | .nothing | .sources true => .ok { d with pending := .nothing }
  | .sources false | .output => .error .misuse

/-- The draft with one more path to read headers from. -/
def addSource (d : Draft) (text : String) : Except Stop Draft :=
  if text.isEmpty then .error .misuse else .ok { d with sources := d.sources ++ [⟨text⟩] }

/-- The draft with the directory to write to, which is given once. -/
def setOutput (d : Draft) (text : String) : Except Stop Draft :=
  if text.isEmpty ∨ d.output.isSome then .error .misuse
  else .ok { d with output := some ⟨text⟩, pending := .nothing }

/-- The draft with the header to show, which is given once. -/
def setInput (d : Draft) (text : String) : Except Stop Draft :=
  if text.isEmpty ∨ d.input.isSome ∨ d.verb = .generate then .error .misuse
  else .ok { d with input := some ⟨text⟩ }

/-- The draft after an option. -/
def addMark (d : Draft) (mark : Mark) : Except Stop Draft := do
  let d ← d.settle
  match mark with
  | .help => .error .help
  | .verbose => if d.verbose then .error .misuse else .ok { d with verbose := true }
  | .sources value =>
    if d.verb ≠ .generate then .error .misuse
    else
      match value with
      | some text => d.addSource text
      | none => .ok { d with pending := .sources false }
  | .output value =>
    if d.verb ≠ .generate ∨ d.output.isSome then .error .misuse
    else
      match value with
      | some text => d.setOutput text
      | none => .ok { d with pending := .output }
  | .unknown => .error .misuse

/-- The draft after an argument that is no option. -/
def addPlain (d : Draft) (text : String) : Except Stop Draft :=
  match d.pending with
  | .nothing => d.setInput text
  | .sources _ => { d with pending := .sources true }.addSource text
  | .output => d.setOutput text

/-- The draft after the arguments of a command. -/
def addArguments (d : Draft) : List String → Except Stop Draft
  | [] => d.settle
  | text :: rest =>
    match Argument.ofText text with
    | .separator => do rest.foldlM setInput (← d.settle)
    | .options marks => do (← marks.foldlM addMark d).addArguments rest
    | .plain text => do (← d.addPlain text).addArguments rest

/-- The command that a draft describes, if nothing is missing. -/
def command? (d : Draft) : Option Command :=
  match d.verb with
  | .generate =>
    if d.sources.isEmpty then none else d.output.map (Command.generate d.sources)
  | .inspect => d.input.map Command.inspect
  | .print => d.input.map Command.print

end Draft

/-! ### Command lines -/

namespace Command

/-- Asking for help on one command, or in general. -/
def helpOn : List String → Stop
  | [] => .help
  | [word] => if word = "help" ∨ (Verb.ofWord? word).isSome then .help else .misuse
  | _ => .misuse

/-- Whether details are asked for after an option in front of the command word. -/
def addMark (verbose : Bool) : Mark → Except Stop Bool
  | .help => .error .help
  | .verbose => if verbose then .error .misuse else .ok true
  | _ => .error .misuse

/-- The command of a command line, and whether details are asked for.  An option counts on either
side of the command word. -/
def ofArgumentsAfter (verbose : Bool) : List String → Except Stop (Bool × Command)
  | [] => .error .misuse
  | text :: rest =>
    match Argument.ofText text with
    | .separator => .error .misuse
    | .options marks => do ofArgumentsAfter (← marks.foldlM addMark verbose) rest
    | .plain word =>
      match Verb.ofWord? word with
      | none => .error (if word = "help" then helpOn rest else .misuse)
      | some verb => do
        let d ← Draft.addArguments { verb } rest
        match d.command? with
        | some command => .ok (verbose || d.verbose, command)
        | none => .error .misuse

/-- The command of a command line, and whether details are asked for. -/
def ofArguments (args : List String) : Except Stop (Bool × Command) := ofArgumentsAfter false args

end Command

end RowMapping
