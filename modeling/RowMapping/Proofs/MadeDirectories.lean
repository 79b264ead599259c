import RowMapping.Proofs.TagPairs
import RowMapping.Proofs.TreeContents
/-!
# Making directories again

A directory and those above it are made from the inside out: where there is nothing to put one into,
the one above comes first.  What was made stays, so that a second attempt finds it and changes
nothing, also when the first one failed on its way.

* `FileTree.Made`: a tree with a directory more;
* `made_of_makeDirectory`, `makeDirectory_of_isDirectory`: a directory is there once it is made, and
  is not made again;
* `isDirectory_parent`: there is a directory to put it into;
* `FileTree.Grown`, `grown_makeLineage`: all that making directories changes;
* `makeDirectories_of_ok`, `exists_error_of_makeDirectories`: the second attempt.
-/

namespace RowMapping

namespace FileTree

variable {t s t' : FileTree} {root : Directory} {here there : Location} {links : Nat}
  {steps : List String} {p q : Path} {e : Entry} {name : String}

/-! ### Steps that lead somewhere -/

/-- A walk that ends at a directory needs only the steps that lead somewhere. -/
theorem walk_filter_iff (hroot : root.hasLink = false) (hthere : root.surface there = some none) :
    walk root false links here (steps.filter fun step => !Path.stays step) = .ok there ↔
      walk root false links here steps = .ok there := by
  obtain ⟨last, hlast⟩ := Directory.surface_eq_directory_iff.1 hthere
  induction steps generalizing here with
  | nil => rfl
  | cons step rest ih =>
    cases hstays : Path.stays step with
    | true =>
      rw [List.filter_cons_of_neg (by simp [hstays]), ih, walk_cons hroot]
      constructor
      · intro h
        obtain ⟨inside, hinside⟩ := exists_directory_of_walk hroot h hlast
        rw [hinside]
        simpa [hstays] using h
      · intro h
        split at h
        · cases h
        · cases h
        · simpa [hstays] using h
    | false =>
      rw [List.filter_cons_of_pos (by simp [hstays]), walk_cons hroot, walk_cons hroot]
      cases root.at? here with
      | none => rfl
      | some e =>
        cases e with
        | leaf l => rfl
        | directory inside =>
          simp only [hstays, Bool.false_and, Bool.false_eq_true, if_false]
          split
          · exact ih
          split
          · exact ih
          · rfl

theorem slash_not_mem_of_mem_steps (h : name ∈ p.steps) : '/' ∉ name.toList := by
  obtain ⟨cs, hcs, rfl⟩ := List.mem_map.1 h
  rw [String.toList_ofList]
  exact fun hmem => absurd (of_mem_splitOnP hcs _ hmem).2 (by decide)

/-- More steps go on from where the first ones lead. -/
theorem walk_append_steps (hroot : root.hasLink = false) (front back : List String) :
    walk root false links here (front ++ back) =
      (walk root false links here front).bind fun there => walk root false links there back := by
  induction front generalizing here with
  | nil =>
    rw [walk]
    rfl
  | cons step rest ih =>
    rw [List.cons_append, walk_cons hroot, walk_cons hroot]
    cases root.at? here with
    | none => rfl
    | some e =>
      cases e with
      | leaf l => rfl
      | directory inside =>
        simp only [Bool.false_and, Bool.false_eq_true, if_false, ih]
        split
        · rfl
        split
        · rfl
        split
        · rfl
        · rfl

theorem walk_append_of_ok (hroot : root.hasLink = false) {front : List String}
    (h : walk root false links here front = .ok there) (back : List String) :
    walk root false links here (front ++ back) = walk root false links there back := by
  rw [walk_append_steps hroot, h]
  rfl

theorem exists_of_walk_append (hroot : root.hasLink = false) {front back : List String}
    (h : walk root false links here (front ++ back) = .ok there) :
    ∃ mid, walk root false links here front = .ok mid ∧
      walk root false links mid back = .ok there := by
  rw [walk_append_steps hroot] at h
  cases hfront : walk root false links here front with
  | error e => rw [hfront] at h; cases h
  | ok mid =>
    rw [hfront] at h
    exact ⟨mid, rfl, h⟩

/-! ### One directory -/

/-- The last step that is not empty, with the steps around it. -/
theorem exists_of_dropWhile {above : List String}
    (h : steps.reverse.dropWhile String.isEmpty = name :: above) :
    ∃ back, steps = above.reverse ++ name :: back ∧ name ≠ "" ∧ ∀ step ∈ back, step = "" := by
  refine ⟨(steps.reverse.takeWhile String.isEmpty).reverse, ?_, ?_, fun step hstep => ?_⟩
  · have hall := List.takeWhile_append_dropWhile (p := String.isEmpty) (l := steps.reverse)
    rw [h] at hall
    simpa using (congrArg List.reverse hall).symm
  · rintro rfl
    have hhead := List.head?_dropWhile_not String.isEmpty steps.reverse
    simp [h] at hhead
  · have hempty := List.all_eq_true.1 List.all_takeWhile step (List.mem_reverse.1 hstep)
    exact String.isEmpty_iff.1 hempty

/-- What creating an entry has found: a directory at the front steps, with a free name. -/
theorem exists_of_create (h : t.create p e = .ok t') :
    ∃ front name back inside, p.steps = front ++ name :: back ∧ (∀ step ∈ back, step = "") ∧
      IsEntryName name ∧ ∃ here, walk t.root false linkLimit (start t.home p) front = .ok here ∧
        t.root.at? here = some (.directory inside) ∧ inside.get? name = none ∧
        t' = t.put (here ++ [name]) e := by
  unfold create at h
  split at h
  · cases h
  next name above hsteps =>
  obtain ⟨back, hall, hempty, hback⟩ := exists_of_dropWhile hsteps
  cases hwalk : walk t.root false linkLimit (start t.home p) above.reverse with
  | error err => rw [hwalk] at h; cases h
  | ok here =>
    rw [hwalk] at h
    simp only [bind, Except.bind] at h
    split at h
    · next inside hinside =>
      split at h
      · cases h
      next hname =>
      simp only [not_or, Bool.not_eq_true, Option.isSome_eq_false_iff, Option.isNone_iff_eq_none]
        at hname
      have hput : t' = t.put (here ++ [name]) e := by
        split at h
        · cases h
        · cases h
          rfl
      have hslash : '/' ∉ name.toList := slash_not_mem_of_mem_steps (p := p) (by simp [hall])
      exact ⟨above.reverse, name, back, inside, hall, hback,
        ⟨hempty, hname.1, hname.2.1, hslash⟩, here, hwalk, hinside, hname.2.2, hput⟩
    · cases h

/-- A tree with a directory more, to which a path leads. -/
structure Made (p : Path) (here : Location) (t s : FileTree) : Prop where
  home : s.home = t.home
  linkless : t.IsLinkless → s.IsLinkless
  orderly : t.IsOrderly → s.IsOrderly
  free : t.surface here = none
  surface : ∀ there, s.surface there = if there = here then some none else t.surface there
  locate : t.IsLinkless → s.locate p = .ok here

/-- Steps that are empty lead nowhere from a directory. -/
theorem walk_empties (hroot : root.hasLink = false) (hdir : root.surface here = some none)
    (hempty : ∀ step ∈ steps, step = "") : walk root false links here steps = .ok here := by
  obtain ⟨inside, hinside⟩ := Directory.surface_eq_directory_iff.1 hdir
  induction steps with
  | nil => rw [walk]
  | cons step rest ih =>
    obtain rfl := hempty step List.mem_cons_self
    rw [walk_cons hroot, hinside]
    exact ih fun step hstep => hempty step (List.mem_cons_of_mem _ hstep)

/-- A path to a name in a directory leads to the directory of this name, also when slashes
follow. -/
theorem locate_of_steps (ht : t.IsLinkless) {front back : List String}
    (hsteps : p.steps = front ++ name :: back) (hback : ∀ step ∈ back, step = "")
    (hname : IsEntryName name)
    (hwalk : walk t.root false linkLimit (start t.home p) front = .ok here)
    (hhere : t.surface here = some none) (hthere : t.surface (here ++ [name]) = some none) :
    t.locate p = .ok (here ++ [name]) := by
  obtain ⟨inside, hinside⟩ := Directory.surface_eq_directory_iff.1 hhere
  have hin : (inside.get? name).isSome := by
    rw [surface, Directory.surface_concat hinside] at hthere
    rw [← Option.isSome_map (f := Entry.surface), hthere]
    rfl
  have hlast : walk t.root false linkLimit here [name] = .ok (here ++ [name]) := by
    rw [walk_name ht hinside hname, hin, Bool.true_or, if_pos rfl]
  rw [locate_eq_ok_iff]
  constructor
  · rw [Bool.eq_false_iff]
    intro hempty
    have htext : p.steps = [""] := by simp [Path.steps, String.isEmpty_iff.1 hempty]
    have hmem : name ∈ [""] := htext ▸ hsteps ▸ by simp
    exact hname.1 (List.mem_singleton.1 hmem)
  · rw [landing, hsteps, walk_append_of_ok ht hwalk, show name :: back = [name] ++ back from rfl,
      walk_append_of_ok ht hlast]
    exact walk_empties ht hthere hback

theorem made_of_create (h : t.create p (.directory .empty) = .ok t') :
    ∃ here, Made p here t t' := by
  obtain ⟨front, name, back, inside, hsteps, hback, hname, here, hwalk, hdir, hfree, rfl⟩ :=
    exists_of_create h
  have hhere : t.surface here = some none := Directory.surface_eq_directory_iff.2 ⟨inside, hdir⟩
  have hnone : t.surface (here ++ [name]) = none := by
    rw [surface, Directory.surface_concat hdir, hfree]
    rfl
  have hsurface : ∀ there, (t.put (here ++ [name]) (.directory .empty)).surface there =
      if there = here ++ [name] then some none else t.surface there :=
    Directory.surface_put hdir (by simp [hfree]) (by rintro below ⟨⟩; rfl)
  refine ⟨here ++ [name], rfl, fun ht => isLinkless_put ht rfl _, fun ht => ?_, hnone, hsurface,
    fun ht => ?_⟩
  · refine Directory.IsOrderly.put ht trivial ?_
    simpa using hname
  · -- the way to the directory is still there
    have ht' : (t.put (here ++ [name]) (.directory .empty)).IsLinkless := isLinkless_put ht rfl _
    have hagree : Agree (· = here ++ [name]) t (t.put (here ++ [name]) (.directory .empty)) :=
      ⟨ht, ht', rfl, fun there hthere => by rw [hsurface, if_neg hthere],
        fun there hthere => by simp [hthere, hnone]⟩
    have hhere' := hagree.directory hhere
    exact locate_of_steps ht' hsteps hback hname (hagree.walk hwalk (by rw [hhere']; rfl)) hhere'
      (by rw [hsurface, if_pos rfl])

/-- A directory that is made is there already, or it is new. -/
theorem made_of_makeDirectory (h : t.makeDirectory p = .ok t') :
    t' = t ∧ t.isDirectory p = true ∨ ∃ here, Made p here t t' := by
  unfold makeDirectory at h
  split at h
  · split at h
    · next hdir =>
      cases h
      exact .inl ⟨rfl, hdir⟩
    · cases h
  · exact .inr (made_of_create h)

/-- A path to a directory is not made again. -/
theorem makeDirectory_of_isDirectory (ht : t.IsLinkless) (h : t.isDirectory p = true) :
    t.makeDirectory p = .ok t := by
  obtain ⟨there, hp, hthere⟩ := isDirectory_iff.1 h
  obtain ⟨htext, hwalk⟩ := locate_eq_ok_iff.1 hp
  suffices hcreate : t.create p (.directory .empty) = .error .alreadyExists by
    rw [makeDirectory, hcreate]
    exact if_pos h
  unfold create
  split
  · rw [htext]
    rfl
  · next name above hsteps =>
    obtain ⟨back, hall, hempty, hback⟩ := exists_of_dropWhile hsteps
    rw [landing, hall] at hwalk
    obtain ⟨here, hfront, hname⟩ := exists_of_walk_append ht hwalk
    rw [hfront]
    rw [walk_cons ht] at hname
    split at hname
    · cases hname
    · cases hname
    · next inside hinside =>
      simp only [bind, Except.bind, hinside]
      rw [if_pos]
      split at hname
      · next hstays => exact .inl (by simpa [Path.stays, hempty] using hstays)
      split at hname
      · next hup => exact .inr (.inl hup)
      split at hname
      · next hfalse => simp at hfalse
      split at hname
      · next hin => exact .inr (.inr hin)
      · cases hname

theorem isDirectory_of_makeDirectory (ht : t.IsLinkless) (h : t.makeDirectory p = .ok t') :
    t'.isDirectory p = true := by
  rcases made_of_makeDirectory h with ⟨rfl, hdir⟩ | ⟨here, hmade⟩
  · exact hdir
  · exact isDirectory_iff.2 ⟨here, hmade.locate ht, by rw [hmade.surface, if_pos rfl]⟩

/-! ### The directory above -/

end FileTree

namespace Path

variable {p q : Path} {l : List String} {abs : Bool}

/-- The path `q` is that of the directory above the path `p`, and this directory has a name. -/
def IsAbove (p q : Path) : Prop :=
  q.isAbsolute = p.isAbsolute ∧ q.names ≠ [] ∧ ∃ name, p.names = q.names ++ [name]

/-- A step that leads somewhere, without a slash. -/
def IsStep (name : String) : Prop := stays name = false ∧ '/' ∉ name.toList

theorem isStep_of_mem_names {name : String} (h : name ∈ p.names) : IsStep name := by
  obtain ⟨hmem, hstays⟩ := List.mem_filter.1 h
  exact ⟨by simpa using hstays, FileTree.slash_not_mem_of_mem_steps hmem⟩

theorem toList_ofNames (abs : Bool) (l : List String) : (ofNames abs l).text.toList =
    (if abs then ['/'] else []) ++ ['/'].intercalate (l.map String.toList) := by
  cases abs <;> simp [ofNames, String.toList_intercalate]

theorem names_ofNames (abs : Bool) (hne : l ≠ []) (hl : ∀ name ∈ l, IsStep name) :
    (ofNames abs l).names = l := by
  have hsplit : (['/'].intercalate (l.map String.toList)).splitOn '/' = l.map String.toList :=
    List.splitOn_intercalate _ (by simpa using fun name hname => (hl name hname).2) (by simpa)
  have hmap : (l.map String.toList).map String.ofList = l := by simp [Function.comp_def]
  have hfilter : (l.filter fun step => !stays step) = l :=
    List.filter_eq_self.2 fun name hname => by simp [(hl name hname).1]
  rw [names, steps, toList_ofNames]
  cases abs with
  | false => rw [if_neg Bool.false_ne_true, List.nil_append, hsplit, hmap, hfilter]
  | true =>
    have hslash : ('/' :: ['/'].intercalate (l.map String.toList)).splitOn '/' =
        [] :: (['/'].intercalate (l.map String.toList)).splitOn '/' :=
      List.splitOn_append_cons_self [] _
    rw [if_pos rfl, List.singleton_append, hslash, hsplit, List.map_cons, hmap,
      List.filter_cons_of_neg (by decide), hfilter]

theorem isAbsolute_ofNames (abs : Bool) (hne : l ≠ []) (hl : ∀ name ∈ l, IsStep name) :
    (ofNames abs l).isAbsolute = abs := by
  rw [isAbsolute, toList_ofNames]
  cases abs with
  | true => rfl
  | false =>
    obtain ⟨name, l, rfl⟩ := List.exists_cons_of_ne_nil hne
    obtain ⟨hstays, hslash⟩ := hl name List.mem_cons_self
    cases hname : name.toList with
    | nil =>
      rw [String.toList_eq_nil_iff] at hname
      rw [hname] at hstays
      cases hstays
    | cons c cs =>
      have hc : c ≠ '/' := by
        rintro rfl
        exact hslash (hname ▸ List.mem_cons_self)
      cases l <;> simp [hname, hc, List.intercalate_cons_cons]

/-- Some of the names of a path, from the front, give the path above that of one more. -/
theorem isAbove_ofNames {names : List String} (hl : ∀ name ∈ names, IsStep name) {n : Nat}
    (hn : n + 1 < names.length) (hp : p.isAbsolute = abs) (hnames : p.names = names.take (n + 2)) :
    IsAbove p (ofNames abs (names.take (n + 1))) := by
  have hne : names.take (n + 1) ≠ [] := by
    rw [ne_eq, List.take_eq_nil_iff]
    rintro (h | rfl)
    · cases h
    · cases hn
  have hsteps : ∀ name ∈ names.take (n + 1), IsStep name := fun name hname =>
    hl name (List.mem_of_mem_take hname)
  refine ⟨(isAbsolute_ofNames abs hne hsteps).trans hp.symm, ?_, names[n + 1], ?_⟩
  · rwa [names_ofNames abs hne hsteps]
  · rw [hnames, names_ofNames abs hne hsteps, List.take_append_getElem]

theorem isChain_lineage (p : Path) : p.lineage.IsChain IsAbove := by
  have hl : ∀ name ∈ p.names, IsStep name := fun name hname => isStep_of_mem_names hname
  unfold lineage
  split
  · exact .nil
  next name names hnames =>
  have hlength : p.names.length = names.length + 1 := by rw [hnames]; rfl
  -- the path of the first names, behind one with a name more
  have hbelow : ∀ n, n ≤ names.length → ∀ q : Path, q.isAbsolute = p.isAbsolute →
      q.names = p.names.take (n + 1) → (q :: (List.range n).reverse.map fun n =>
        ofNames p.isAbsolute (p.names.take (n + 1))).IsChain IsAbove := by
    intro n
    induction n with
    | zero => exact fun _ q _ _ => .singleton q
    | succ n ih =>
      intro hn q hq hqnames
      rw [List.range_succ, List.reverse_concat, List.map_cons, List.isChain_cons_cons]
      have habove := isAbove_ofNames hl (by omega) hq hqnames
      have hne : p.names.take (n + 1) ≠ [] := by simp [hnames]
      have hsteps : ∀ name ∈ p.names.take (n + 1), IsStep name := fun name hname =>
        hl name (List.mem_of_mem_take hname)
      exact ⟨habove, ih (by omega) _ (isAbsolute_ofNames _ hne hsteps)
        (names_ofNames _ hne hsteps)⟩
  exact hbelow names.length le_rfl p rfl (by rw [← hlength, List.take_length])

end Path

namespace FileTree

variable {t s t' : FileTree} {root : Directory} {here there : Location} {links : Nat}
  {steps : List String} {p q : Path} {l : List Path} {e : FileError} {name : String}

theorem isDirectory_of_walk_names (ht : t.IsLinkless) (hq : q.names ≠ [])
    (hwalk : walk t.root false linkLimit (start t.home q) q.names = .ok here)
    (hhere : t.surface here = some none) : t.isDirectory q = true := by
  refine isDirectory_iff.2
    ⟨here, locate_eq_ok_iff.2 ⟨?_, (walk_filter_iff ht hhere).1 hwalk⟩, hhere⟩
  rw [Bool.eq_false_iff]
  intro hempty
  exact hq (by simp [Path.names, Path.steps, String.isEmpty_iff.1 hempty])

/-- What is made is put into a directory. -/
theorem isDirectory_above (ht : t.IsLinkless) (hpq : p.IsAbove q)
    (h : t.makeDirectory p = .ok t') : t.isDirectory q = true := by
  obtain ⟨habsolute, hq, name, hnames⟩ := hpq
  have hstart : start t.home q = start t.home p := by rw [start, start, habsolute]
  unfold makeDirectory at h
  split at h
  · -- the path leads to a directory already, so the walk has met the one above
    split at h
    · next hdir =>
      obtain ⟨there, hp, hthere⟩ := isDirectory_iff.1 hdir
      have hwalk := (walk_filter_iff ht hthere).2 (locate_eq_ok_iff.1 hp).2
      change walk t.root false linkLimit (start t.home p) p.names = .ok there at hwalk
      rw [hnames] at hwalk
      obtain ⟨mid, hmid, hlast⟩ := exists_of_walk_append ht hwalk
      obtain ⟨last, hlast'⟩ := Directory.surface_eq_directory_iff.1 hthere
      obtain ⟨inside, hinside⟩ := exists_directory_of_walk ht hlast hlast'
      exact isDirectory_of_walk_names ht hq (hstart ▸ hmid)
        (Directory.surface_eq_directory_iff.2 ⟨inside, hinside⟩)
    · cases h
  · obtain ⟨front, last, back, inside, hsteps, hback, hlast, here, hwalk, hdir, -, -⟩ :=
      exists_of_create h
    have hhere : t.surface here = some none := Directory.surface_eq_directory_iff.2 ⟨inside, hdir⟩
    have hfront : front.filter (fun step => !Path.stays step) = q.names := by
      have hnone : back.filter (fun step => !Path.stays step) = [] :=
        List.filter_eq_nil_iff.2 fun step hstep => by simp [hback step hstep]
      have hstays : Path.stays last = false := by simp [Path.stays, hlast.1, hlast.2.1]
      rw [Path.names, hsteps, List.filter_append, List.filter_cons_of_pos (by simp [hstays]),
        hnone] at hnames
      exact (List.append_inj' hnames rfl).1
    refine isDirectory_of_walk_names ht hq ?_ hhere
    rw [← hfront, hstart]
    exact (walk_filter_iff ht hhere).2 hwalk

/-! ### All directories above -/

theorem isDirectory_of_makeLineage (ht : t.IsLinkless) (h : t.makeLineage (p :: l) = (.ok (), s)) :
    s.isDirectory p = true := by
  rw [makeLineage] at h
  split at h
  · split at h
    · next s' hl =>
      have hs' : s'.IsLinkless := by
        have hlineage := isLinkless_makeLineage ht l
        rwa [hl] at hlineage
      cases hmake : s'.makeDirectory p with
      | error e => rw [hmake] at h; cases h
      | ok s'' =>
        rw [hmake] at h
        cases h
        exact isDirectory_of_makeDirectory hs' hmake
    · next hfailed => exact absurd h (hfailed s)
  · cases hmake : t.makeDirectory p with
    | error e => rw [hmake] at h; cases h
    | ok s' =>
      rw [hmake] at h
      cases h
      exact isDirectory_of_makeDirectory ht hmake

/-- Directories that are there are not made again. -/
theorem makeLineage_of_ok (ht : t.IsLinkless) (h : t.makeLineage l = (.ok (), s)) :
    s.makeLineage l = (.ok (), s) := by
  cases l with
  | nil => rfl
  | cons p l =>
    have hs : s.IsLinkless := by
      have hlineage := isLinkless_makeLineage ht (p :: l)
      rwa [h] at hlineage
    rw [makeLineage, makeDirectory_of_isDirectory hs (isDirectory_of_makeLineage ht h)]
    rfl

theorem makeLineage_of_isDirectory (ht : t.IsLinkless) (h : t.isDirectory p = true) :
    t.makeLineage (p :: l) = (.ok (), t) := by
  rw [makeLineage, makeDirectory_of_isDirectory ht h]
  rfl

/-- A first directory that cannot be made, with those above it that can be made or not. -/
theorem makeLineage_of_error (e' : FileError) (hp : t.makeDirectory p = .error e)
    (hl : t.makeLineage l = (.ok (), t) ∨ t.makeLineage l = (.error e', t)) :
    ∃ e', t.makeLineage (p :: l) = (.error e', t) := by
  rw [makeLineage, hp]
  split
  · rcases hl with hl | hl
    · rw [hl]
      dsimp only
      exact ⟨e, by rw [hp]; rfl⟩
    · rw [hl]
      exact ⟨e', rfl⟩
  · exact ⟨e, rfl⟩

/-- Directories that cannot all be made cannot be made from where the first attempt has ended. -/
theorem exists_error_of_makeLineage (ht : t.IsLinkless) (hl : l.IsChain Path.IsAbove)
    (h : t.makeLineage l = (.error e, s)) : ∃ e', s.makeLineage l = (.error e', s) := by
  induction l generalizing t e with
  | nil => cases h
  | cons p l ih =>
    have hlineage := isLinkless_makeLineage ht l
    rw [makeLineage] at h
    split at h
    · split at h
      · -- those above have been made, and are found the next time
        next s' hl' =>
        rw [hl'] at hlineage
        cases hmake : s'.makeDirectory p with
        | ok s'' => rw [hmake] at h; cases h
        | error e' =>
          rw [hmake] at h
          cases h
          exact makeLineage_of_error e hmake (.inl (makeLineage_of_ok ht hl'))
      · -- one of those above cannot be made, so there is still nothing to put this one into
        rw [h] at hlineage
        have htail : l.IsChain Path.IsAbove := by
          cases hl with
          | singleton => exact .nil
          | cons_cons _ htail => exact htail
        obtain ⟨e', he'⟩ := ih ht htail h
        cases hmake : s.makeDirectory p with
        | error e'' => exact makeLineage_of_error _ hmake (.inr he')
        | ok s' =>
          cases l with
          | nil => cases he'
          | cons q l =>
            have hq := isDirectory_above hlineage (List.isChain_cons_cons.1 hl).1 hmake
            rw [makeLineage_of_isDirectory hlineage hq] at he'
            cases he'
    · cases hmake : t.makeDirectory p with
      | ok s' => rw [hmake] at h; cases h
      | error e' =>
        next hother =>
        rw [hmake] at h
        cases h
        refine ⟨e, ?_⟩
        rw [makeLineage, hmake]
        split
        · next heq =>
          cases heq
          exact absurd hmake hother
        · rfl

/-! ### What changes -/

/-- A tree with more directories, to each of which one of the paths leads. -/
structure Grown (l : List Path) (t s : FileTree) : Prop where
  home : s.home = t.home
  linkless : s.IsLinkless
  orderly : t.IsOrderly → s.IsOrderly
  surface : ∀ here, s.surface here = t.surface here ∨
    t.surface here = none ∧ s.surface here = some none ∧ ∃ p ∈ l, s.locate p = .ok here

theorem Grown.refl (ht : t.IsLinkless) (l : List Path) : Grown l t t :=
  ⟨rfl, ht, id, fun _ => .inl rfl⟩

theorem Grown.isSome_surface (h : Grown l t s) (hhere : (t.surface here).isSome) :
    s.surface here = t.surface here := by
  rcases h.surface here with hsame | ⟨hnone, -⟩
  · exact hsame
  · rw [hnone] at hhere
    cases hhere

/-- More directories lead no path away. -/
theorem Grown.agree (ht : t.IsLinkless) (h : Grown l t s) :
    Agree (fun here => t.surface here = none) t s where
  linkless := ht
  linkless' := h.linkless
  home := h.home
  surface := fun here hhere => h.isSome_surface (Option.isSome_iff_ne_none.2 hhere)
  free := fun here hhere => by rw [hhere]; exact nofun

theorem Grown.locate (ht : t.IsLinkless) (h : Grown l t s) (hp : t.locate p = .ok here) :
    s.locate p = .ok here :=
  (h.agree ht).locate_of_not hp (Option.isSome_iff_ne_none.1 (isSome_surface_of_locate ht hp))

theorem Grown.trans (hs : s.IsLinkless) (h : Grown l t s) (h' : Grown l s t') : Grown l t t' where
  home := h'.home.trans h.home
  linkless := h'.linkless
  orderly := fun ht => h'.orderly (h.orderly ht)
  surface := fun here => by
    rcases h'.surface here with hsame | ⟨hnone, hnew, hp⟩
    · rcases h.surface here with hsame' | ⟨hnone, hnew, p, hp, hlocate⟩
      · exact .inl (hsame.trans hsame')
      · exact .inr ⟨hnone, hsame.trans hnew, p, hp, h'.locate hs hlocate⟩
    · rcases h.surface here with hsame' | ⟨-, hnew', -⟩
      · exact .inr ⟨hsame' ▸ hnone, hnew, hp⟩
      · rw [hnone] at hnew'
        cases hnew'

theorem Grown.mono {l' : List Path} (h : Grown l t s) (hl : l ⊆ l') : Grown l' t s :=
  { h with surface := fun here => (h.surface here).imp_right fun ⟨hnone, hnew, p, hp, hlocate⟩ =>
      ⟨hnone, hnew, p, hl hp, hlocate⟩ }

theorem grown_makeDirectory (ht : t.IsLinkless) (h : t.makeDirectory p = .ok t') :
    Grown [p] t t' := by
  rcases made_of_makeDirectory h with ⟨rfl, -⟩ | ⟨here, hmade⟩
  · exact .refl ht _
  · refine ⟨hmade.home, hmade.linkless ht, hmade.orderly, fun there => ?_⟩
    rw [hmade.surface]
    split
    · next heq =>
      subst heq
      exact .inr ⟨hmade.free, rfl, p, List.mem_singleton_self p, hmade.locate ht⟩
    · exact .inl rfl

theorem grown_attempt (ht : t.IsLinkless) : Grown [p] t (t.attempt (t.makeDirectory p)).2 := by
  cases hmake : t.makeDirectory p with
  | ok s => exact grown_makeDirectory ht hmake
  | error e => exact .refl ht _

/-- Making directories makes nothing but directories to which the paths lead. -/
theorem grown_makeLineage (ht : t.IsLinkless) (l : List Path) : Grown l t (t.makeLineage l).2 := by
  induction l generalizing t with
  | nil => exact .refl ht _
  | cons p l ih =>
    have hhead : [p] ⊆ p :: l := List.cons_subset_cons p (List.nil_subset l)
    rw [makeLineage]
    split
    · split
      · next s hl =>
        have hgrown := ih ht
        rw [hl] at hgrown
        exact (hgrown.mono (List.subset_cons_self p l)).trans hgrown.linkless
          ((grown_attempt hgrown.linkless).mono hhead)
      · exact (ih ht).mono (List.subset_cons_self p l)
    · exact (grown_attempt ht).mono hhead

theorem grown_makeDirectories (ht : t.IsLinkless) (p : Path) :
    Grown p.lineage t (t.makeDirectories p).2 :=
  grown_makeLineage ht p.lineage

/-- A directory that has been made with those above it is found by a second attempt. -/
theorem makeDirectories_of_ok (ht : t.IsLinkless) (h : t.makeDirectories p = (.ok (), s)) :
    s.makeDirectories p = (.ok (), s) :=
  makeLineage_of_ok ht h

/-- Where a first attempt fails, a second one fails and leaves what the first one has left. -/
theorem exists_error_of_makeDirectories (ht : t.IsLinkless)
    (h : t.makeDirectories p = (.error e, s)) : ∃ e', s.makeDirectories p = (.error e', s) :=
  exists_error_of_makeLineage ht p.isChain_lineage h

end FileTree

end RowMapping
