import RowMapping.Path
/-!
# Directories

A directory holds entries under names, in the order of the names.  An entry is a file, a symbolic
link, or a directory again; the directories below and the entries behind are the two branches of
the type.

* `Directory.get?`, `Directory.insert`: the entry under a name;
* `Directory.at?`, `Directory.put`: the entry at a location, which is a list of names;
* `Directory.lines`: everything below a directory.

Main statements: `get?_insert`, an entry is found where it was put, and no other entry changes;
`at?_put_self`, the same for an entry at a location that lies in a directory.
-/

namespace RowMapping

/-- An entry without entries below it. -/
inductive Leaf
  | file (content : List UInt8)
  | link (target : Path)
  deriving DecidableEq

/-- The entries of a directory. -/
inductive Directory
  | empty
  | leaf (name : String) (leaf : Leaf) (rest : Directory)
  | inner (name : String) (inside rest : Directory)
  deriving DecidableEq

/-- What a name stands for. -/
inductive Entry
  | leaf (leaf : Leaf)
  | directory (inside : Directory)
  deriving DecidableEq

/-- A place below a directory: the names that lead there. -/
abbrev Location := List String

namespace Directory

/-! ### Names -/

/-- The directory with an entry in front. -/
def cons (name : String) : Entry → Directory → Directory
  | .leaf l, rest => leaf name l rest
  | .directory inside, rest => inner name inside rest

/-- The entry under a name. -/
def get? (name : String) : Directory → Option Entry
  | empty => none
  | leaf n l rest => if n = name then some (.leaf l) else rest.get? name
  | inner n inside rest => if n = name then some (.directory inside) else rest.get? name

/-- The directory with an entry under a name, in place of the one that was there. -/
def insert (name : String) (e : Entry) : Directory → Directory
  | empty => cons name e empty
  | leaf n l rest =>
    if n = name then cons name e rest
    else if name < n then cons name e (leaf n l rest)
    else leaf n l (rest.insert name e)
  | inner n inside rest =>
    if n = name then cons name e rest
    else if name < n then cons name e (inner n inside rest)
    else inner n inside (rest.insert name e)

@[simp] theorem get?_cons (k name : String) (e : Entry) (d : Directory) :
    (cons name e d).get? k = if name = k then some e else d.get? k := by
  cases e <;> rfl

/-- An entry is found where it was put, and putting it changes no other. -/
@[simp] theorem get?_insert (d : Directory) (name : String) (e : Entry) (k : String) :
    (d.insert name e).get? k = if name = k then some e else d.get? k := by
  induction d with
  | empty => simp [insert, get?]
  | leaf n l rest ih | inner n inside rest _ ih => grind [insert, get?, get?_cons]

/-! ### Locations -/

/-- The entry at a location. -/
def at? : Directory → Location → Option Entry
  | d, [] => some (.directory d)
  | d, name :: names =>
    match d.get? name with
    | some (.directory inside) => inside.at? names
    | some (.leaf l) => if names.isEmpty then some (.leaf l) else none
    | none => none

/-- The directory with an entry at a location, if the location lies in a directory. -/
def put : Directory → Location → Entry → Directory
  | d, [], _ => d
  | d, [name], e => d.insert name e
  | d, name :: names, e =>
    match d.get? name with
    | some (.directory inside) => d.insert name (.directory (inside.put names e))
    | _ => d

/-- A directory with nothing but the directories that lead to a location. -/
def chain : Location → Directory
  | [] => empty
  | name :: names => inner name (chain names) empty

@[simp] theorem at?_nil (d : Directory) : d.at? [] = some (.directory d) := rfl

@[simp] theorem at?_singleton (d : Directory) (name : String) : d.at? [name] = d.get? name := by
  simp only [at?]
  split <;> simp_all

theorem at?_cons_of_directory {d inside : Directory} {name : String} (names : Location)
    (h : d.get? name = some (.directory inside)) : d.at? (name :: names) = inside.at? names := by
  simp [at?, h]

/-- The entry at a location below another one is looked up from there. -/
theorem at?_append {d inside : Directory} {here : Location}
    (h : d.at? here = some (.directory inside)) (names : Location) :
    d.at? (here ++ names) = inside.at? names := by
  induction here generalizing d with
  | nil =>
    simp only [at?_nil, Option.some.injEq, Entry.directory.injEq] at h
    simp [h]
  | cons name here ih =>
    simp only [at?] at h
    split at h
    · rename_i below hbelow
      rw [List.cons_append, at?_cons_of_directory _ hbelow, ih h]
    · split at h <;> simp at h
    · simp at h

/-- An entry that is put into a directory is found at its location. -/
theorem at?_put_self {d inside : Directory} {here : Location} (name : String) (e : Entry)
    (h : d.at? here = some (.directory inside)) :
    (d.put (here ++ [name]) e).at? (here ++ [name]) = some e := by
  induction here generalizing d with
  | nil => simp [put]
  | cons n here ih =>
    simp only [at?] at h
    split at h
    · rename_i below hbelow
      obtain ⟨m, names, hnames⟩ :=
        List.exists_cons_of_ne_nil (List.append_ne_nil_of_right_ne_nil here (List.cons_ne_nil name []))
      have hput : d.put (n :: here ++ [name]) e =
          d.insert n (.directory (below.put (here ++ [name]) e)) := by
        rw [List.cons_append, hnames, put, hbelow]
        simp
      rw [hput, List.cons_append,
        at?_cons_of_directory _ (by rw [get?_insert, if_pos rfl]), ih h]
    · split at h <;> simp at h
    · simp at h

/-! ### Everything below -/

/-- Everything below a directory, with the text `above` in front and a slash behind directories. -/
def lines (above : String) : Directory → List String
  | empty => []
  | leaf n _ rest => (above ++ n) :: rest.lines above
  | inner n inside rest =>
    (above ++ n ++ "/") :: inside.lines (above ++ n ++ "/") ++ rest.lines above

end Directory

end RowMapping
