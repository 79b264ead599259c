import RowMapping.FileTree.Basic
/-!
# File trees without links

Where no entry is a link, a path leads along the names of directories only.  A directory then stays
where it is when a file is written, and a path that goes down one more name leads to the entry under
that name.

* `Directory.hasLink`, `FileTree.IsLinkless`: a tree has a link, or none;
* `Directory.at?_put_above`, `Directory.at?_put_of_directory`: what putting an entry changes;
* `FileTree.landing`: where the steps of a path lead;
* `FileTree.write_join_iff`, `FileTree.locate_join`: writing to a name in a directory, and
  finding it.
-/

namespace RowMapping

namespace Directory

/-! ### Links -/

/-- Some entry of a directory or below it is a link. -/
def hasLink : Directory → Bool
  | empty => false
  | leaf _ (.link _) _ => true
  | leaf _ (.file _) rest => rest.hasLink
  | inner _ inside rest => inside.hasLink || rest.hasLink

end Directory

/-- The entry is a link, or one is below it. -/
def Entry.hasLink : Entry → Bool
  | .leaf (.link _) => true
  | .leaf (.file _) => false
  | .directory inside => inside.hasLink

namespace Directory

variable {d inside : Directory} {e : Entry} {name : String} {here there : Location}

@[simp] theorem hasLink_cons (name : String) (e : Entry) (d : Directory) :
    (cons name e d).hasLink = (e.hasLink || d.hasLink) := by
  cases e with
  | leaf l => cases l <;> rfl
  | directory inside => rfl

theorem hasLink_leaf (name : String) (l : Leaf) (d : Directory) :
    (leaf name l d).hasLink = ((Entry.leaf l).hasLink || d.hasLink) :=
  hasLink_cons name (.leaf l) d

theorem hasLink_inner (name : String) (inside d : Directory) :
    (inner name inside d).hasLink = (inside.hasLink || d.hasLink) := rfl

theorem hasLink_of_get? (hd : d.hasLink = false) (h : d.get? name = some e) :
    e.hasLink = false := by
  induction d with
  | empty => cases h
  | leaf n l rest ih | inner n below rest _ ih =>
    simp only [hasLink_leaf, hasLink_inner, Bool.or_eq_false_iff] at hd
    rw [get?] at h
    split at h
    · cases h
      exact hd.1
    · exact ih hd.2 h

theorem hasLink_insert (hd : d.hasLink = false) (he : e.hasLink = false) :
    (d.insert name e).hasLink = false := by
  induction d with
  | empty => simp [insert, he, hd]
  | leaf n l rest ih | inner n below rest _ ih =>
    simp only [hasLink_leaf, hasLink_inner, Bool.or_eq_false_iff] at hd
    rw [insert]
    split
    · simp [he, hd.2]
    split
    · simp [hasLink_leaf, hasLink_inner, he, hd.1, hd.2]
    · simp [hasLink_leaf, hasLink_inner, hd.1, ih hd.2]

theorem hasLink_put (hd : d.hasLink = false) (he : e.hasLink = false) (here : Location) :
    (d.put here e).hasLink = false := by
  induction here generalizing d with
  | nil => exact hd
  | cons n names ih =>
    cases names with
    | nil => exact hasLink_insert hd he
    | cons m names =>
      rw [put]
      · split
        · next below hbelow =>
          exact hasLink_insert hd (ih (hasLink_of_get? hd hbelow))
        · exact hd
      · exact List.cons_ne_nil m names

theorem hasLink_of_at? (hd : d.hasLink = false) (h : d.at? here = some e) :
    e.hasLink = false := by
  induction here generalizing d with
  | nil =>
    cases h
    exact hd
  | cons n names ih =>
    rw [at?] at h
    split at h
    · next below hbelow => exact ih (hasLink_of_get? hd hbelow) h
    · next l hl =>
      split at h
      · cases h
        exact hasLink_of_get? hd hl
      · cases h
    · cases h

/-! ### What putting an entry changes -/

/-- The entry one name below a directory. -/
theorem at?_concat (h : d.at? here = some (.directory inside)) (name : String) :
    d.at? (here ++ [name]) = inside.get? name := by
  rw [at?_append h, at?_singleton]

theorem put_cons_of_directory {below : Directory} (names : Location)
    (h : d.get? name = some (.directory below)) (hnames : names ≠ []) (e : Entry) :
    d.put (name :: names) e = d.insert name (.directory (below.put names e)) := by
  obtain ⟨m, names, rfl⟩ := List.exists_cons_of_ne_nil hnames
  rw [put, h]
  exact List.cons_ne_nil m names

/-- The directory that an entry is put into has it under its name. -/
theorem at?_put_above (h : d.at? here = some (.directory inside)) (name : String) (e : Entry) :
    (d.put (here ++ [name]) e).at? here = some (.directory (inside.insert name e)) := by
  induction here generalizing d with
  | nil =>
    cases h
    rfl
  | cons n names ih =>
    rw [at?] at h
    split at h
    · next below hbelow =>
      have hput := put_cons_of_directory (names ++ [name]) hbelow (by simp) e
      rw [List.cons_append, hput, at?_cons_of_directory _ (by rw [get?_insert, if_pos rfl])]
      exact ih h
    · split at h <;> cases h
    · cases h

/-- A directory stays one when an entry is put in no directory's place. -/
theorem at?_put_of_directory (h : d.at? here = some (.directory inside))
    (hfree : ∀ below, inside.get? name ≠ some (.directory below)) {below : Directory}
    (hthere : d.at? there = some (.directory below)) :
    ∃ below, (d.put (here ++ [name]) e).at? there = some (.directory below) := by
  induction here generalizing d there with
  | nil =>
    cases h
    cases there with
    | nil => exact ⟨_, rfl⟩
    | cons m there =>
      rw [List.nil_append, put, at?, get?_insert]
      have hne : name ≠ m := by
        rintro rfl
        rw [at?] at hthere
        split at hthere
        · next i hi => exact hfree i hi
        · split at hthere <;> cases hthere
        · cases hthere
      rw [if_neg hne]
      exact ⟨below, hthere⟩
  | cons n names ih =>
    rw [at?] at h
    split at h
    · next inner hinner =>
      rw [List.cons_append, put_cons_of_directory (names ++ [name]) hinner (by simp)]
      cases there with
      | nil => exact ⟨_, rfl⟩
      | cons m there =>
        by_cases hnm : n = m
        · subst hnm
          rw [at?_cons_of_directory _ hinner] at hthere
          rw [at?_cons_of_directory _ (by rw [get?_insert, if_pos rfl])]
          exact ih h hthere
        · rw [at?, get?_insert, if_neg hnm]
          exact ⟨below, hthere⟩
    · split at h <;> cases h
    · cases h

end Directory

namespace FileTree

variable {t t' : FileTree} {root root' inside : Directory} {here there : Location}
  {links : Nat} {toWrite : Bool} {steps : List String} {name : String} {p : Path}

/-- No entry of the tree is a link. -/
def IsLinkless (t : FileTree) : Prop := t.root.hasLink = false

instance (t : FileTree) : Decidable t.IsLinkless :=
  inferInstanceAs (Decidable (t.root.hasLink = false))

/-- A name that stands for an entry of a directory. -/
def IsEntryName (name : String) : Prop :=
  name ≠ "" ∧ name ≠ "." ∧ name ≠ ".." ∧ '/' ∉ name.toList

instance : DecidablePred IsEntryName := fun name =>
  inferInstanceAs (Decidable (name ≠ "" ∧ name ≠ "." ∧ name ≠ ".." ∧ '/' ∉ name.toList))

/-! ### Following steps -/

/-- One step of a walk that meets no link. -/
theorem walk_cons (hroot : root.hasLink = false) (step : String) (rest : List String) :
    walk root toWrite links here (step :: rest) =
      match root.at? here with
      | none => .error .notFound
      | some (.leaf _) => .error .notADirectory
      | some (.directory inside) =>
        if Path.stays step then walk root toWrite links here rest
        else if step = ".." then walk root toWrite links here.dropLast rest
        else if toWrite && !rest.isEmpty && rest.all String.isEmpty then .error .isADirectory
        else if (inside.get? step).isSome then walk root toWrite links (here ++ [step]) rest
        else if toWrite && rest.isEmpty then .ok (here ++ [step]) else .error .notFound := by
  rw [walk]
  cases hhere : root.at? here with
  | none => rfl
  | some e =>
    cases e with
    | leaf l => rfl
    | directory inside =>
      dsimp only
      cases hstep : inside.get? step with
      | none => rfl
      | some e =>
        have he := Directory.hasLink_of_get? (Directory.hasLink_of_at? hroot hhere) hstep
        cases e with
        | directory below => rfl
        | leaf l =>
          cases l with
          | file content => rfl
          | link target => cases he

/-- A walk that ends at a directory starts at one. -/
theorem exists_directory_of_walk (hroot : root.hasLink = false)
    (h : walk root false links here steps = .ok there)
    (hthere : root.at? there = some (.directory inside)) :
    ∃ inside, root.at? here = some (.directory inside) := by
  cases steps with
  | nil =>
    rw [walk] at h
    cases h
    exact ⟨inside, hthere⟩
  | cons step rest =>
    rw [walk_cons hroot] at h
    split at h
    · cases h
    · cases h
    · next below hbelow => exact ⟨below, hbelow⟩

/-- A walk that ends at a directory has met directories only, so it leads there in every tree that
has them too. -/
theorem walk_of_directories (hroot : root.hasLink = false) (hroot' : root'.hasLink = false)
    (hdirs : ∀ here inside, root.at? here = some (.directory inside) →
      ∃ inside, root'.at? here = some (.directory inside))
    (h : walk root false links here steps = .ok there)
    (hthere : root.at? there = some (.directory inside)) :
    walk root' false links here steps = .ok there := by
  induction steps generalizing here with
  | nil => rwa [walk] at h ⊢
  | cons step rest ih =>
    rw [walk_cons hroot] at h
    rw [walk_cons hroot']
    split at h
    · cases h
    · cases h
    · next below hbelow =>
      obtain ⟨below', hbelow'⟩ := hdirs here below hbelow
      simp only [hbelow', Bool.false_and, Bool.false_eq_true, if_false] at h ⊢
      split at h
      · next hstays => rw [if_pos hstays]; exact ih h
      next hstays =>
      rw [if_neg hstays]
      split at h
      · next hup => rw [if_pos hup]; exact ih h
      next hup =>
      rw [if_neg hup]
      split at h
      · -- the name stands for a directory, since the walk goes on from there
        obtain ⟨next, hnext⟩ := exists_directory_of_walk hroot h hthere
        obtain ⟨next', hnext'⟩ := hdirs _ next hnext
        rw [Directory.at?_concat hbelow'] at hnext'
        rw [hnext', Option.isSome_some, if_pos rfl]
        exact ih h
      · cases h

/-- A name at the end of a walk is looked for where the steps before it lead. -/
theorem walk_append (hroot : root.hasLink = false) (hname : toWrite = true → name ≠ "")
    (steps : List String) :
    walk root toWrite links here (steps ++ [name]) =
      (walk root false links here steps).bind fun there =>
        walk root toWrite links there [name] := by
  induction steps generalizing here with
  | nil =>
    rw [walk]
    rfl
  | cons step rest ih =>
    -- the name is behind every step, so a step is never the last one of a path to write to
    have hlast : (toWrite && !(rest ++ [name]).isEmpty && (rest ++ [name]).all String.isEmpty) =
        false := by
      cases toWrite with
      | false => rfl
      | true => simp [hname rfl]
    rw [List.cons_append, walk_cons hroot, walk_cons hroot]
    cases root.at? here with
    | none => rfl
    | some e =>
      cases e with
      | leaf l => rfl
      | directory inside =>
        simp only [hlast, Bool.false_and, Bool.false_eq_true, if_false, ih]
        split
        · rfl
        split
        · rfl
        split
        · rfl
        · simp; rfl

/-! ### Names in a directory -/

/-- Where the steps of a path lead.  The empty path leads to where paths start. -/
def landing (t : FileTree) (p : Path) : Except FileError Location :=
  walk t.root false linkLimit (start t.home p) p.steps

theorem splitOn_append_name {cs name : List Char} (h : '/' ∉ name) :
    (cs ++ '/' :: name).splitOn '/' = cs.splitOn '/' ++ [name] := by
  rw [List.splitOn_append_cons_self, List.splitOn_eq_singleton h]

/-- The steps to a name in the directory of a path are those of the path, but for an empty last
one. -/
theorem exists_steps_join (p : Path) (h : '/' ∉ name.toList) :
    ∃ front, (p.join name).steps = front ++ [name] ∧
      (p.steps = front ++ [""] ∨ p.steps = front) := by
  unfold Path.join
  split
  · next hlast =>
    have htext : p.text.toList = [] := List.getLast?_eq_none_iff.1 hlast
    refine ⟨[], ?_, .inl ?_⟩
    · simp [Path.steps, htext, List.splitOn_eq_singleton h]
    · simp [Path.steps, htext]
  · next hlast =>
    obtain ⟨front, hfront⟩ := List.getLast?_eq_some_iff.1 hlast
    refine ⟨(front.splitOn '/').map String.ofList, ?_, .inl ?_⟩
    · simp [Path.steps, hfront, splitOn_append_name h]
    · have hsplit : (front ++ '/' :: []).splitOn '/' = front.splitOn '/' ++ [[]] :=
        splitOn_append_name List.not_mem_nil
      simp [Path.steps, hfront, hsplit]
  · refine ⟨p.steps, ?_, .inr rfl⟩
    simp [Path.steps, splitOn_append_name h]

theorem start_join (here : Location) (p : Path) (h : '/' ∉ name.toList) :
    start here (p.join name) = start here p := by
  have habsolute : (p.join name).isAbsolute = p.isAbsolute := by
    unfold Path.join Path.isAbsolute
    cases htext : p.text.toList with
    | nil => 
      cases hname : name.toList with
      | nil => simp [htext, hname]
      | cons c cs =>
        have : c ≠ '/' := by rintro rfl; simp [hname] at h
        simp [htext, hname, this]
    | cons c cs => split <;> simp [htext]
  rw [start, start, habsolute]

theorem text_join_ne_empty (p : Path) (h : name ≠ "") : (p.join name).text.isEmpty = false := by
  unfold Path.join
  split <;> simp [h]

/-- A name that is looked for in a directory; one that is free may be written to. -/
theorem walk_name (hroot : root.hasLink = false) (hdir : root.at? here = some (.directory inside))
    (hname : IsEntryName name) :
    walk root toWrite links here [name] =
      if (inside.get? name).isSome || toWrite then .ok (here ++ [name]) else .error .notFound := by
  obtain ⟨hempty, hdot, hup, -⟩ := hname
  have hstays : Path.stays name = false := by simp [Path.stays, hempty, hdot]
  rw [walk_cons hroot, hdir]
  cases hin : inside.get? name <;> cases toWrite <;> simp [hstays, hup, hin, walk]

/-- A path to a name leads to where the path of the directory leads, and then to the name. -/
theorem walk_join (ht : t.IsLinkless) (hname : IsEntryName name) (p : Path) :
    walk t.root toWrite linkLimit (start t.home (p.join name)) (p.join name).steps =
      (t.landing p).bind fun there => walk t.root toWrite linkLimit there [name] := by
  obtain ⟨front, hjoin, hp⟩ := exists_steps_join p hname.2.2.2
  rw [landing, hjoin, start_join _ p hname.2.2.2, walk_append ht fun _ => hname.1]
  rcases hp with hp | hp
  · -- an empty step stays in a directory and fails elsewhere, as the name does
    rw [hp, walk_append ht Bool.noConfusion]
    cases walk t.root false linkLimit (start t.home p) front with
    | error e => rfl
    | ok there =>
      simp only [Except.bind]
      cases hthere : t.root.at? there with
      | none => rw [walk_cons ht, walk_cons ht, hthere]
      | some e =>
        cases e with
        | leaf l => rw [walk_cons ht, walk_cons ht, hthere]
        | directory inside =>
          have hstay : walk t.root false linkLimit there [""] = .ok there := by
            simp [walk_cons ht, hthere, walk]
          rw [hstay]
  · rw [hp]

/-- Writing to a name in the directory of a path puts a file there, unless a directory has the
name. -/
theorem write_join_iff (ht : t.IsLinkless) (hname : IsEntryName name) {content : List UInt8} :
    t.write (p.join name) content = .ok t' ↔
      ∃ here inside, t.landing p = .ok here ∧ t.root.at? here = some (.directory inside) ∧
        (∀ below, inside.get? name ≠ some (.directory below)) ∧
        t' = t.put (here ++ [name]) (.leaf (.file content)) := by
  rw [write, follow, text_join_ne_empty p hname.1, walk_join ht hname]
  simp only [Bool.false_eq_true, if_false, bind]
  cases hp : t.landing p with
  | error e => exact ⟨nofun, fun ⟨_, _, h, _⟩ => nomatch h⟩
  | ok here =>
    simp only [Except.bind]
    constructor
    · intro h
      cases hhere : t.root.at? here with
      | none => rw [walk_cons ht, hhere] at h; cases h
      | some e =>
        cases e with
        | leaf l => rw [walk_cons ht, hhere] at h; cases h
        | directory inside =>
          rw [walk_name ht hhere hname, Bool.or_true, if_pos rfl] at h
          simp only [Directory.at?_concat hhere] at h
          refine ⟨here, inside, rfl, hhere, ?_⟩
          split at h
          · cases h
          · next hfree =>
            cases h
            exact ⟨hfree, rfl⟩
    · rintro ⟨here', inside, hp', hhere, hfree, rfl⟩
      cases hp'
      simp only [walk_name ht hhere hname, Bool.or_true, if_pos, Directory.at?_concat hhere]

/-- An entry under a name in the directory of a path is found. -/
theorem locate_join (ht : t.IsLinkless) (hname : IsEntryName name) (hp : t.landing p = .ok here)
    (hdir : t.root.at? here = some (.directory inside)) (hin : (inside.get? name).isSome) :
    t.locate (p.join name) = .ok (here ++ [name]) := by
  rw [locate, follow, text_join_ne_empty p hname.1, walk_join ht hname, hp]
  simp only [Bool.false_eq_true, if_false, Except.bind]
  rw [walk_name ht hdir hname, hin, Bool.true_or, if_pos rfl]

/-- A text where a path leads is read. -/
theorem read_of_locate {text : String} (hlocate : t.locate p = .ok here)
    (hat : t.root.at? here = some (.leaf (.file (Text.encode text)))) : t.read p = .ok text := by
  simp only [read, hlocate, bind, Except.bind, hat, Text.decode?_encode]

/-- A text under a name in the directory of a path is read. -/
theorem read_join (ht : t.IsLinkless) (hname : IsEntryName name) (hp : t.landing p = .ok here)
    (hdir : t.root.at? here = some (.directory inside)) {text : String}
    (hin : inside.get? name = some (.leaf (.file (Text.encode text)))) :
    t.read (p.join name) = .ok text :=
  read_of_locate (locate_join ht hname hp hdir (hin ▸ rfl)) (by rw [Directory.at?_concat hdir, hin])

/-! ### Making directories -/

theorem isLinkless_put (ht : t.IsLinkless) {e : Entry} (he : e.hasLink = false) (here : Location) :
    (t.put here e).IsLinkless :=
  Directory.hasLink_put ht he here

theorem isLinkless_create (ht : t.IsLinkless) {e : Entry} (he : e.hasLink = false)
    (h : t.create p e = .ok t') : t'.IsLinkless := by
  unfold create at h
  split at h
  · cases h
  · next name above _ =>
    cases hwalk : walk t.root false linkLimit (start t.home p) above.reverse with
    | error err => rw [hwalk] at h; cases h
    | ok here =>
      rw [hwalk] at h
      simp only [bind, Except.bind] at h
      split at h
      · split at h
        · cases h
        · split at h
          · cases h
          · cases h
            exact isLinkless_put ht he _
      · cases h

theorem isLinkless_makeDirectory (ht : t.IsLinkless) (h : t.makeDirectory p = .ok t') :
    t'.IsLinkless := by
  unfold makeDirectory at h
  split at h
  · split at h
    · cases h
      exact ht
    · cases h
  · exact isLinkless_create ht rfl h

theorem isLinkless_attempt (ht : t.IsLinkless) {result : Except FileError FileTree}
    (h : ∀ t', result = .ok t' → t'.IsLinkless) : (t.attempt result).2.IsLinkless := by
  cases result with
  | ok t' => exact h t' rfl
  | error e => exact ht

theorem isLinkless_makeLineage (ht : t.IsLinkless) (above : List Path) :
    (t.makeLineage above).2.IsLinkless := by
  induction above generalizing t with
  | nil => exact ht
  | cons p above ih =>
    rw [makeLineage]
    split
    · split
      · next t' hlineage =>
        have ht' : t'.IsLinkless := by
          have := ih ht
          rwa [hlineage] at this
        exact isLinkless_attempt ht' fun _ h => isLinkless_makeDirectory ht' h
      · next failed _ => exact ih ht
    · exact isLinkless_attempt ht fun _ h => isLinkless_makeDirectory ht h

/-- Making directories makes no links. -/
theorem isLinkless_makeDirectories (ht : t.IsLinkless) (p : Path) :
    (t.makeDirectories p).2.IsLinkless :=
  isLinkless_makeLineage ht p.lineage

end FileTree

end RowMapping
