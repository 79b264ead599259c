import RowMapping.FileTree.Directory
import RowMapping.Text.Encoded
/-!
# File trees

A file tree is the directory at the root, with the location that relative paths start from.

* `FileError`: why a path cannot be used;
* `FileTree.walk`: following a path through directories and links;
* `FileTree.locate`, `FileTree.read`: the location and the text of what is there;
* `FileTree.write`, `FileTree.makeDirectories`: changing the tree;
* `FileTree.install`, `FileTree.listing`: setting a tree up, and showing it.
-/

namespace RowMapping

/-- Why a path cannot be used. -/
inductive FileError
  | notFound
  | alreadyExists
  | notADirectory
  | isADirectory
  | tooManyLinks
  /-- The bytes of the file are no text. -/
  | notText
  deriving DecidableEq, Repr

/-- The text of the failure, with the number that the system gives it. -/
def FileError.message : FileError → String
  | notFound => "No such file or directory (os error 2)"
  | alreadyExists => "File exists (os error 17)"
  | notADirectory => "Not a directory (os error 20)"
  | isADirectory => "Is a directory (os error 21)"
  | tooManyLinks => "Too many levels of symbolic links (os error 40)"
  | notText => "stream did not contain valid UTF-8"

/-- Directories and files, and where relative paths start. -/
structure FileTree where
  root : Directory
  home : Location
  deriving DecidableEq

namespace FileTree

/-! ### Following a path -/

/-- The number of links that one walk may follow. -/
def linkLimit : Nat := 40

/-- Where a path starts, as seen from a location. -/
def start (here : Location) (p : Path) : Location := if p.isAbsolute then [] else here

/-- The location that steps lead to from `here`, through at most `links` links.  When something is
to be written there, the last name may be free, and no slash may follow it. -/
def walk (root : Directory) (toWrite : Bool) :
    (links : Nat) → (here : Location) → (steps : List String) → Except FileError Location
  | _, here, [] => .ok here
  | links, here, step :: rest =>
    match root.at? here with
    | none => .error .notFound
    | some (.leaf _) => .error .notADirectory
    | some (.directory inside) =>
      if Path.stays step then walk root toWrite links here rest
      else if step = ".." then walk root toWrite links here.dropLast rest
      else if toWrite && !rest.isEmpty && rest.all String.isEmpty then .error .isADirectory
      else
        match inside.get? step with
        | none => if toWrite && rest.isEmpty then .ok (here ++ [step]) else .error .notFound
        | some (.leaf (.link target)) =>
          match links with
          | 0 => .error .tooManyLinks
          | links + 1 => walk root toWrite links (start here target) (target.steps ++ rest)
        | some _ => walk root toWrite links (here ++ [step]) rest
termination_by links _ steps => (links, steps.length)

/-- The location that a path leads to. -/
def follow (t : FileTree) (toWrite : Bool) (p : Path) : Except FileError Location :=
  if p.text.isEmpty then .error .notFound
  else walk t.root toWrite linkLimit (start t.home p) p.steps

/-- The location of what a path leads to. -/
def locate (t : FileTree) (p : Path) : Except FileError Location := t.follow false p

/-- What a path leads to. -/
def entry? (t : FileTree) (p : Path) : Option Entry :=
  (t.locate p).toOption.bind t.root.at?

/-- The path leads to a file. -/
def isFile (t : FileTree) (p : Path) : Bool :=
  match t.entry? p with
  | some (.leaf (.file _)) => true
  | _ => false

/-- The directory that a path leads to. -/
def directory? (t : FileTree) (p : Path) : Option Directory :=
  match t.entry? p with
  | some (.directory inside) => some inside
  | _ => none

/-- The path leads to a directory. -/
def isDirectory (t : FileTree) (p : Path) : Bool := (t.directory? p).isSome

/-- The text of a file. -/
def read (t : FileTree) (p : Path) : Except FileError String := do
  match t.root.at? (← t.locate p) with
  | some (.leaf (.file content)) =>
    match Text.decode? content with
    | some text => .ok text
    | none => .error .notText
  | some (.directory _) => .error .isADirectory
  | _ => .error .notFound

/-! ### Changing the tree -/

/-- The tree with an entry at a location. -/
def put (t : FileTree) (here : Location) (e : Entry) : FileTree :=
  { t with root := t.root.put here e }

/-- The tree with other bytes in a file, which is made when its name is free. -/
def write (t : FileTree) (p : Path) (content : List UInt8) : Except FileError FileTree := do
  let here ← t.follow true p
  match t.root.at? here with
  | some (.directory _) => .error .isADirectory
  | _ => .ok (t.put here (.leaf (.file content)))

/-- The tree with an entry under a free name.  A slash may follow the name of a directory only. -/
def create (t : FileTree) (p : Path) (e : Entry) : Except FileError FileTree :=
  match p.steps.reverse.dropWhile String.isEmpty with
  | [] => .error (if p.text.isEmpty then .notFound else .alreadyExists)
  | name :: above => do
    let here ← walk t.root false linkLimit (start t.home p) above.reverse
    match t.root.at? here with
    | some (.directory inside) =>
      if name = "." ∨ name = ".." ∨ (inside.get? name).isSome then .error .alreadyExists
      else
        match e, p.steps.getLast? with
        | .leaf _, some "" => .error .notFound
        | _, _ => .ok (t.put (here ++ [name]) e)
    | _ => .error .notADirectory

/-- The tree with a directory at a path, which may be there already. -/
def makeDirectory (t : FileTree) (p : Path) : Except FileError FileTree :=
  match t.create p (.directory .empty) with
  | .error .alreadyExists => if t.isDirectory p then .ok t else .error .alreadyExists
  | result => result

/-- The outcome of a change, with the tree that it leaves. -/
def attempt (t : FileTree) : Except FileError FileTree → Except FileError Unit × FileTree
  | .ok changed => (.ok (), changed)
  | .error e => (.error e, t)

/-- Makes a directory; when there is nothing to put it into, makes the ones above first.  What was
made stays also when a later step fails. -/
def makeLineage (t : FileTree) : List Path → Except FileError Unit × FileTree
  | [] => (.ok (), t)
  | p :: above =>
    match t.makeDirectory p with
    | .error .notFound =>
      match t.makeLineage above with
      | (.ok (), t) => t.attempt (t.makeDirectory p)
      | failed => failed
    | result => t.attempt result

/-- Makes a directory and the ones above it that are missing. -/
def makeDirectories (t : FileTree) (p : Path) : Except FileError Unit × FileTree :=
  t.makeLineage p.lineage

/-! ### Setting up and showing -/

/-- A tree with nothing but the way to its home. -/
def atHome (home : Location) : FileTree := ⟨.chain home, home⟩

/-- Puts an entry at a path.  A file may be there already and gets other bytes, a directory may be
there already and stays as it is, and any other entry needs a free name.  A link has to lead
somewhere. -/
def place (t : FileTree) (p : Path) : Entry → Except FileError Unit × FileTree
  | .leaf (.file content) => t.attempt (t.write p content)
  | .directory .empty => t.makeDirectories p
  | .leaf (.link ⟨""⟩) => (.error .notFound, t)
  | e => t.attempt (t.create p e)

/-- Puts an entry at a path after making the directories above it that are missing.  What was made
stays also when the entry cannot be put there. -/
def install (t : FileTree) (p : Path) (e : Entry) : Except FileError Unit × FileTree :=
  match t.makeLineage p.lineage.tail with
  | (.ok (), t) => t.place p e
  | failed => failed

/-- Everything below the home, in the order of the shown text. -/
def listing (t : FileTree) : List String :=
  match t.root.at? t.home with
  | some (.directory inside) => (inside.lines "").mergeSort fun a b => !(b < a)
  | _ => []

end FileTree

end RowMapping
