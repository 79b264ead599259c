import RowMapping.Proofs.EnumSpecialization
import RowMapping.Proofs.RunOutcome
/-!
# The sources that are found

Paths stand for headers to read: for themselves, or for those below a directory.  Generated headers
may lie among them, and are told by their names.

* `IsWrapperName`, `Directory.withoutWrappers`: names of generated headers, and a directory without
  the files of such names;
* `Directory.candidates_eq`: such files change nothing about the headers to read;
* `Directory.exists_of_mem_candidates`, `FileTree.exists_of_mem_collect`: where sources are;
* `FileTree.IsPlainSource`: a path that stands for no generated header;
* `FileTree.Agree.collect`: the sources are found again when generated headers are written.
-/

namespace RowMapping

/-! ### Names of generated headers -/

/-- A name that marks a file as a generated header. -/
def IsWrapperName (name : String) : Prop := Text.occursIn "Wrapper".toList name.toList = true

instance : DecidablePred IsWrapperName := fun name =>
  inferInstanceAs (Decidable (Text.occursIn "Wrapper".toList name.toList = true))

theorem isWrapperName_headerFile (className : String) : IsWrapperName (headerFile className) := by
  have htext : (headerFile className).toList =
      className.toList ++ ("Wrapper".toList ++ ".h".toList) := by
    simp [headerFile]
  rw [IsWrapperName, htext, occursIn_append]

namespace Path

variable {names : List String} {name : String} {abs : Bool}

theorem isStep_of_isEntryName (h : FileTree.IsEntryName name) : IsStep name :=
  ⟨by simp [stays, h.1, h.2.1], h.2.2.2⟩

theorem fileName?_ofNames (h : ∀ n ∈ names ++ [name], FileTree.IsEntryName n) :
    (ofNames abs (names ++ [name])).fileName? = some name := by
  have hup : name ≠ ".." := (h name (by simp)).2.2.1
  rw [fileName?, names_ofNames abs (by simp) fun n hn => isStep_of_isEntryName (h n hn)]
  simp [hup]

theorem isGenerated_ofNames (abs : Bool) (h : ∀ n ∈ names ++ [name], FileTree.IsEntryName n)
    (hname : IsWrapperName name) : (ofNames abs (names ++ [name])).isGenerated = true := by
  rw [isGenerated, fileName?_ofNames h, Option.map_some, Option.getD_some]
  rw [IsWrapperName] at hname
  rw [hname, Bool.or_true]

theorem not_isWrapperName_of_isCandidate (h : ∀ n ∈ names ++ [name], FileTree.IsEntryName n)
    (hcandidate : (ofNames abs (names ++ [name])).isCandidate = true) : ¬IsWrapperName name := by
  intro hname
  rw [isCandidate_eq_false_of_isGenerated (isGenerated_ofNames abs h hname)] at hcandidate
  cases hcandidate

end Path

/-! ### The headers below a directory -/

namespace Directory

variable {d d' inside : Directory} {above rel : List String} {name : String} {here : Location}

/-- The directory without files that have names of generated headers, here and below. -/
def withoutWrappers : Directory → Directory
  | empty => empty
  | leaf n l rest =>
    if IsWrapperName n then rest.withoutWrappers else leaf n l rest.withoutWrappers
  | inner n inside rest => inner n inside.withoutWrappers rest.withoutWrappers

theorem names_withoutWrappers_subset (d : Directory) : d.withoutWrappers.names ⊆ d.names := by
  induction d with
  | empty => exact List.Subset.refl _
  | leaf n l rest ih =>
    rw [withoutWrappers]
    split
    · exact List.subset_cons_of_subset _ ih
    · exact List.cons_subset_cons _ ih
  | inner n inside rest _ ih => exact List.cons_subset_cons _ ih

theorem IsOrderly.withoutWrappers (hd : d.IsOrderly) : d.withoutWrappers.IsOrderly := by
  induction d with
  | empty => trivial
  | leaf n l rest ih =>
    rw [Directory.withoutWrappers]
    split
    · exact ih hd.2.2
    · exact ⟨hd.1, fun m hm => hd.2.1 m (names_withoutWrappers_subset rest hm), ih hd.2.2⟩
  | inner n inside rest ihinside ih =>
    exact ⟨hd.1, fun m hm => hd.2.1 m (names_withoutWrappers_subset rest hm), ihinside hd.2.2.1,
      ih hd.2.2.2⟩

/-- A file with a name of a generated header is no header to read. -/
theorem candidates_withoutWrappers (hd : d.IsOrderly)
    (habove : ∀ n ∈ above, FileTree.IsEntryName n) :
    d.withoutWrappers.candidates above = d.candidates above := by
  have hnames : ∀ {n : String}, FileTree.IsEntryName n → ∀ {above : List String},
      (∀ m ∈ above, FileTree.IsEntryName m) → ∀ m ∈ above ++ [n], FileTree.IsEntryName m := by
    intro n hn above habove m hm
    rcases List.mem_append.1 hm with hm | hm
    · exact habove m hm
    · rw [List.mem_singleton.1 hm]
      exact hn
  induction d generalizing above with
  | empty => rfl
  | leaf n l rest ih =>
    have hrest := ih hd.2.2 habove
    rw [withoutWrappers]
    split
    · next hwrapper =>
      cases l with
      | link target => exact hrest
      | file content =>
        have hnot := Path.isCandidate_eq_false_of_isGenerated
          (Path.isGenerated_ofNames false (hnames hd.1 habove) hwrapper)
        rw [hrest, candidates]
        simp [hnot]
    · cases l <;> simp only [candidates, hrest]
  | inner n inside rest ihinside ih =>
    simp only [withoutWrappers, candidates, ih hd.2.2.2 habove,
      ihinside hd.2.2.1 (hnames hd.1 habove)]

/-- What is left of an entry under a name. -/
def kept (name : String) : Entry → Option Entry
  | .leaf l => if IsWrapperName name then none else some (.leaf l)
  | .directory inside => some (.directory inside.withoutWrappers)

theorem get?_withoutWrappers (hd : d.IsOrderly) (m : String) :
    d.withoutWrappers.get? m = (d.get? m).bind (kept m) := by
  have hfirst : ∀ {n : String} {e : Entry} {rest : Directory}, (cons n e rest).IsOrderly →
      rest.withoutWrappers.get? n = none := by
    intro n e rest hcons
    rw [← Option.not_isSome_iff_eq_none, ← mem_names_iff]
    exact fun hmem => lt_irrefl n ((isOrderly_cons_iff.1 hcons).2.1 n
      (names_withoutWrappers_subset rest hmem))
  induction d with
  | empty => rfl
  | leaf n l rest ih =>
    have hcons : (cons n (.leaf l) rest).IsOrderly :=
      isOrderly_cons_iff.2 ⟨hd.1, hd.2.1, trivial, hd.2.2⟩
    rw [withoutWrappers, Directory.get?]
    by_cases hm : n = m
    · subst hm
      rw [if_pos rfl, Option.bind_some, kept]
      split
      · exact hfirst hcons
      · rw [Directory.get?, if_pos rfl]
    · rw [if_neg hm, ← ih hd.2.2]
      split
      · rfl
      · rw [Directory.get?, if_neg hm]
  | inner n inside rest _ ih =>
    rw [withoutWrappers, Directory.get?, Directory.get?]
    by_cases hm : n = m
    · subst hm
      rw [if_pos rfl, if_pos rfl]
      rfl
    · rw [if_neg hm, if_neg hm, ih hd.2.2.2]

/-- A file with a name of a generated header is left out, and all else stays. -/
theorem surface_withoutWrappers (hd : d.IsOrderly) (here : Location) :
    d.withoutWrappers.surface here =
      if d.surface here ≠ some none ∧ ∃ name ∈ here.getLast?, IsWrapperName name then none
      else d.surface here := by
  induction here generalizing d with
  | nil => simp
  | cons n names ih =>
    rw [surface_cons, surface_cons, get?_withoutWrappers hd]
    cases hn : d.get? n with
    | none => simp
    | some e =>
      cases e with
      | leaf l =>
        by_cases hwrapper : IsWrapperName n <;> cases names <;> simp [kept, hwrapper]
      | directory inside =>
        rw [Option.bind_some, kept]
        dsimp only
        rw [ih (hd.get? hn).2]
        cases names with
        | nil => simp
        | cons m names => rw [List.getLast?_cons_cons]

/-- The location is that of a generated header, as its name tells, or may become one. -/
def IsWrapperPlace (d : Directory) (here : Location) : Prop :=
  d.surface here ≠ some none ∧ ∃ name ∈ here.getLast?, IsWrapperName name

/-- Files with names of generated headers change nothing about the headers to read. -/
theorem candidates_eq (hd : d.IsOrderly) (hd' : d'.IsOrderly)
    (h : ∀ here, d.surface here = d'.surface here ∨
      d.IsWrapperPlace here ∧ d'.IsWrapperPlace here) :
    d.candidates [] = d'.candidates [] := by
  have hsame : d.withoutWrappers = d'.withoutWrappers := by
    refine ext hd.withoutWrappers hd'.withoutWrappers fun here => ?_
    rw [surface_withoutWrappers hd, surface_withoutWrappers hd']
    rcases h here with heq | ⟨hplace, hplace'⟩
    · rw [heq]
    · exact (if_pos hplace).trans (if_pos hplace').symm
  rw [← candidates_withoutWrappers hd (List.forall_mem_nil _), hsame,
    candidates_withoutWrappers hd' (List.forall_mem_nil _)]

/-- What is behind a first entry is found under other names. -/
theorem surface_cons_of_isSome {e : Entry} (hcons : (cons name e d).IsOrderly) (hne : here ≠ [])
    (h : (d.surface here).isSome) : (cons name e d).surface here = d.surface here := by
  obtain ⟨m, names, rfl⟩ := List.exists_cons_of_ne_nil hne
  refine surface_cons_of_ne ?_ names
  rintro rfl
  have hnot : name ∉ d.names := fun hmem =>
    lt_irrefl name ((isOrderly_cons_iff.1 hcons).2.1 name hmem)
  rw [surface_of_not_mem hnot] at h
  cases h

/-- A header to read is a file below the directory, under names of entries of which the last one is
none of a generated header. -/
theorem exists_of_mem_candidates (hd : d.IsOrderly)
    (habove : ∀ n ∈ above, FileTree.IsEntryName n) {found : List String}
    (h : found ∈ d.candidates above) : ∃ rel last content, found = above ++ (rel ++ [last]) ∧
      (∀ n ∈ rel ++ [last], FileTree.IsEntryName n) ∧ ¬IsWrapperName last ∧
      d.surface (rel ++ [last]) = some (some (.file content)) := by
  have hrest : ∀ {n : String} {e : Entry} {rest : Directory} {above : List String},
      (cons n e rest).IsOrderly →
      (∃ rel last content, found = above ++ (rel ++ [last]) ∧
        (∀ n ∈ rel ++ [last], FileTree.IsEntryName n) ∧ ¬IsWrapperName last ∧
        rest.surface (rel ++ [last]) = some (some (.file content))) →
      ∃ rel last content, found = above ++ (rel ++ [last]) ∧
        (∀ n ∈ rel ++ [last], FileTree.IsEntryName n) ∧ ¬IsWrapperName last ∧
        (cons n e rest).surface (rel ++ [last]) = some (some (.file content)) := by
    rintro n e rest above hcons ⟨rel, last, content, hfound, hnames, hlast, hsurface⟩
    refine ⟨rel, last, content, hfound, hnames, hlast, ?_⟩
    rw [surface_cons_of_isSome hcons (by simp) (by rw [hsurface]; rfl), hsurface]
  induction d generalizing above with
  | empty => cases h
  | leaf n l rest ih =>
    have hcons : (cons n (.leaf l) rest).IsOrderly :=
      isOrderly_cons_iff.2 ⟨hd.1, hd.2.1, trivial, hd.2.2⟩
    cases l with
    | link target =>
      rw [candidates] at h
      exact hrest hcons (ih hd.2.2 habove h)
    | file content =>
      rw [candidates] at h
      split at h
      · next hcandidate =>
        rcases List.mem_cons.1 h with rfl | h
        · have hnames : ∀ m ∈ above ++ [n], FileTree.IsEntryName m := by
            simpa [or_imp, forall_and, hd.1] using habove
          exact ⟨[], n, content, rfl, by simpa using hd.1,
            Path.not_isWrapperName_of_isCandidate hnames hcandidate,
            surface_cons_self n (.leaf (.file content)) rest⟩
        · exact hrest hcons (ih hd.2.2 habove h)
      · exact hrest hcons (ih hd.2.2 habove h)
  | inner n inside rest ihinside ih =>
    rw [candidates] at h
    split at h
    · exact hrest (e := .directory inside) hd (ih hd.2.2.2 habove h)
    · rcases List.mem_append.1 h with h | h
      · have hnames : ∀ m ∈ above ++ [n], FileTree.IsEntryName m := by
          simpa [or_imp, forall_and, hd.1] using habove
        obtain ⟨rel, last, content, hfound, hrel, hlast, hsurface⟩ := ihinside hd.2.2.1 hnames h
        refine ⟨n :: rel, last, content, by simp [hfound], ?_, hlast, ?_⟩
        · rw [List.cons_append, List.forall_mem_cons]
          exact ⟨hd.1, hrel⟩
        · exact (surface_cons_directory n inside rest _).trans hsurface
      · exact hrest (e := .directory inside) hd (ih hd.2.2.2 habove h)

end Directory

/-! ### Sources -/

namespace FileTree

variable {t s t' : FileTree} {p output : Path} {sources found : List Path} {here base : Location}
  {inside : Directory} {name : String} {rel : List String}

/-- A path to a file ends in the name of the file. -/
theorem exists_of_locate_leaf (ht : t.IsLinkless) (h : t.locate p = .ok here) {l : Leaf}
    (hhere : t.surface here = some (some l)) :
    ∃ above name, here = above ++ [name] ∧ p.fileName? = some name := by
  obtain ⟨front, last, hsteps⟩ := List.eq_nil_or_concat' p.steps |>.resolve_left (steps_ne_nil p)
  have hwalk := (locate_eq_ok_iff.1 h).2
  rw [landing, hsteps] at hwalk
  obtain ⟨mid, -, hlast⟩ := exists_of_walk_append ht hwalk
  have hleaf : t.surface here ≠ some none := by simp [hhere]
  rw [walk_cons ht] at hlast
  split at hlast
  · cases hlast
  · cases hlast
  · next inside hinside =>
    have hmid : t.surface mid = some none := Directory.surface_eq_directory_iff.2 ⟨inside, hinside⟩
    simp only [walk] at hlast
    split at hlast
    · cases hlast
      exact absurd hmid hleaf
    next hstays =>
    split at hlast
    · -- a step up leads to a directory
      cases hlast
      cases mid with
      | nil => exact absurd hmid hleaf
      | cons n names =>
        exact absurd (Directory.surface_dropLast (by rw [surface] at hmid; rw [hmid]; rfl)
          (List.cons_ne_nil _ _)) hleaf
    next hup =>
    simp only [Bool.false_and, Bool.false_eq_true, if_false] at hlast
    split at hlast
    · cases hlast
      refine ⟨mid, last, rfl, ?_⟩
      rw [Path.fileName?, Path.names, hsteps, List.filter_append,
        List.filter_cons_of_pos (by simpa using hstays)]
      simp [hup]
    · cases hlast

/-- Names below a directory are found along them. -/
theorem locate_foldl_join (ht : t.IsLinkless) (hp : t.locate p = .ok here)
    (hinside : t.root.at? here = some (.directory inside))
    (hnames : ∀ n ∈ rel, IsEntryName n) (hrel : (inside.surface rel).isSome) :
    t.locate (rel.foldl Path.join p) = .ok (here ++ rel) := by
  induction rel generalizing p here inside with
  | nil => rw [List.append_nil]; exact hp
  | cons n rel ih =>
    have hn := hnames n List.mem_cons_self
    rw [Directory.surface_cons] at hrel
    have hin : (inside.get? n).isSome := by
      cases hget : inside.get? n with
      | none => rw [hget] at hrel; cases hrel
      | some e => rfl
    have hjoin := locate_join ht hn (locate_eq_ok_iff.1 hp).2 hinside hin
    split at hrel
    · next below hbelow =>
      have hat : t.root.at? (here ++ [n]) = some (.directory below) := by
        rw [Directory.at?_concat hinside, hbelow]
      have hrest := ih hjoin hat (fun m hm => hnames m (List.mem_cons_of_mem n hm)) hrel
      rw [List.foldl_cons, hrest, List.append_assoc, List.singleton_append]
    · split at hrel
      · next hnil =>
        rw [List.isEmpty_iff.1 hnil]
        exact hjoin
      · cases hrel
    · cases hrel

theorem directory?_eq_some_iff : t.directory? p = some inside ↔
    ∃ here, t.locate p = .ok here ∧ t.root.at? here = some (.directory inside) := by
  unfold directory? entry?
  cases hp : t.locate p with
  | error e => simp [Except.toOption]
  | ok here =>
    simp only [Except.toOption, Option.bind_some, Except.ok.injEq, exists_eq_left']
    cases t.root.at? here with
    | none => simp
    | some e => cases e <;> simp

theorem isFile_of_directory (hp : t.locate p = .ok here) (hhere : t.surface here = some none) :
    t.isFile p = false := by
  rw [Bool.eq_false_iff]
  intro hfile
  obtain ⟨there, content, hp', hthere⟩ := isFile_iff.1 hfile
  cases hp.symm.trans hp'
  rw [hhere] at hthere
  cases hthere

/-- The path leads to a directory, or it does not end in a name of a generated header. -/
def IsPlainSource (t : FileTree) (p : Path) : Prop :=
  t.isDirectory p = true ∨ ∀ name ∈ p.fileName?, ¬IsWrapperName name

instance (t : FileTree) : DecidablePred t.IsPlainSource := fun _ =>
  inferInstanceAs (Decidable (_ ∨ _))

/-- A source is a file, with a name that no generated header has if the path is a plain one. -/
theorem exists_of_mem_sourcesAt (ht : t.IsLinkless) (horderly : t.IsOrderly)
    (h : t.sourcesAt p = .ok found) {source : Path} (hsource : source ∈ found) :
    ∃ above last content, t.locate source = .ok (above ++ [last]) ∧
      t.surface (above ++ [last]) = some (some (.file content)) ∧
      (t.IsPlainSource p → ¬IsWrapperName last) := by
  unfold sourcesAt at h
  split at h
  · next hfile =>
    cases h
    rw [List.mem_singleton] at hsource
    subst hsource
    obtain ⟨here, content, hp, hhere⟩ := isFile_iff.1 hfile
    obtain ⟨above, last, rfl, hlast⟩ := exists_of_locate_leaf ht hp hhere
    refine ⟨above, last, content, hp, hhere, fun hplain => ?_⟩
    rcases hplain with hdir | hname
    · obtain ⟨there, hp', hthere⟩ := isDirectory_iff.1 hdir
      cases hp.symm.trans hp'
      rw [hhere] at hthere
      cases hthere
    · exact hname last hlast
  · split at h
    · next inside hdir =>
      cases h
      obtain ⟨here, hp, hinside⟩ := directory?_eq_some_iff.1 hdir
      obtain ⟨names, hnames, rfl⟩ := List.mem_map.1 hsource
      obtain ⟨rel, last, content, rfl, hentry, hlast, hsurface⟩ :=
        Directory.exists_of_mem_candidates (horderly.at? hinside) (List.forall_mem_nil _) hnames
      refine ⟨here ++ rel, last, content, ?_, ?_, fun _ => hlast⟩
      · rw [List.append_assoc]
        exact locate_foldl_join ht hp hinside hentry (by rw [List.nil_append, hsurface]; rfl)
      · rw [List.append_assoc, surface, Directory.surface_append hinside, hsurface]
    · cases h

theorem not_isTarget_of_not_isWrapperName {above : Location} (hname : ¬IsWrapperName name) :
    ¬IsTarget IsWrapperName base t (above ++ [name]) := by
  rintro ⟨⟨other, hother, hsame⟩, -⟩
  obtain ⟨-, hlast⟩ := List.append_inj' hsame rfl
  exact hname ((List.cons.inj hlast).1 ▸ hother)

/-- A path stands for the same sources when generated headers are written. -/
theorem Agree.sourcesAt (h : Agree (IsTarget IsWrapperName base t) t s)
    (hdirs : ∀ here, s.surface here = some none → t.surface here = some none)
    (ht : t.IsOrderly) (hs : s.IsOrderly) (hplain : t.IsPlainSource p)
    (hp : t.sourcesAt p = .ok found) : s.sourcesAt p = .ok found := by
  unfold FileTree.sourcesAt at hp
  split at hp
  · next hfile =>
    cases hp
    obtain ⟨above, last, content, hlocate, -, hlast⟩ := exists_of_mem_sourcesAt h.linkless ht
      (if_pos hfile) (List.mem_singleton_self p)
    rw [FileTree.sourcesAt, h.isFile hlocate (not_isTarget_of_not_isWrapperName (hlast hplain)),
      hfile]
    rfl
  · split at hp
    · next inside hdir =>
      cases hp
      obtain ⟨here, hlocate, hinside⟩ := directory?_eq_some_iff.1 hdir
      have hhere : t.surface here = some none := Directory.surface_eq_directory_iff.2 ⟨_, hinside⟩
      have hlocate' := h.locate_of_not hlocate (not_isTarget_of_directory hhere)
      obtain ⟨inside', hinside'⟩ := Directory.surface_eq_directory_iff.1 (h.directory hhere)
      have hcandidates : inside'.candidates [] = inside.candidates [] := by
        refine Directory.candidates_eq (hs.at? hinside') (ht.at? hinside) fun rel => ?_
        rw [← Directory.surface_append hinside', ← Directory.surface_append hinside]
        by_cases htarget : IsTarget IsWrapperName base t (here ++ rel)
        · right
          obtain ⟨⟨name, hname, hrel⟩, hnot⟩ := htarget
          have hne : rel ≠ [] := by
            rintro rfl
            rw [List.append_nil] at hnot
            exact hnot hhere
          have hlast : rel.getLast? = some name := by
            rw [← List.getLast?_append_of_ne_nil here hne, hrel, List.getLast?_concat]
          rw [FileTree.surface, Directory.surface_append hinside] at hnot
          refine ⟨⟨fun hdir' => ?_, name, hlast, hname⟩, hnot, name, hlast, hname⟩
          rw [← Directory.surface_append hinside'] at hdir'
          have hback := hdirs _ hdir'
          rw [FileTree.surface, Directory.surface_append hinside] at hback
          exact hnot hback
        · exact .inl (h.surface _ htarget)
      rw [FileTree.sourcesAt, isFile_of_directory hlocate' (h.directory hhere),
        if_neg Bool.false_ne_true, directory?_eq_some_iff.2 ⟨here, hlocate', hinside'⟩]
      dsimp only
      rw [hcandidates]
    · cases hp

theorem collect_eq_ok_iff : t.collect sources = .ok found ↔
    ∃ parts, List.Forall₂ (fun p part => t.sourcesAt p = .ok part) sources parts ∧
      found = parts.flatten := by
  unfold collect
  constructor
  · intro h
    cases hparts : sources.mapM t.sourcesAt with
    | error e => rw [hparts] at h; cases h
    | ok parts =>
      rw [hparts] at h
      cases h
      exact ⟨parts, mapM_eq_ok_iff.1 hparts, rfl⟩
  · rintro ⟨parts, hparts, rfl⟩
    rw [mapM_eq_ok_iff.2 hparts]
    rfl

theorem exists_of_mem_collect (ht : t.IsLinkless) (horderly : t.IsOrderly)
    (h : t.collect sources = .ok found) {source : Path} (hsource : source ∈ found) :
    ∃ above last content, t.locate source = .ok (above ++ [last]) ∧
      t.surface (above ++ [last]) = some (some (.file content)) ∧
      ((∀ p ∈ sources, t.IsPlainSource p) → ¬IsWrapperName last) := by
  obtain ⟨parts, hparts, rfl⟩ := collect_eq_ok_iff.1 h
  obtain ⟨part, hpart, hmem⟩ := List.mem_flatten.1 hsource
  obtain ⟨p, hp, hat⟩ := exists_of_mem_forall₂ hparts.flip hpart
  obtain ⟨above, last, content, hlocate, hsurface, hlast⟩ :=
    exists_of_mem_sourcesAt ht horderly hat hmem
  exact ⟨above, last, content, hlocate, hsurface, fun hplain => hlast (hplain p hp)⟩

/-- The sources are the same when generated headers are written. -/
theorem Agree.collect (h : Agree (IsTarget IsWrapperName base t) t s)
    (hdirs : ∀ here, s.surface here = some none → t.surface here = some none)
    (ht : t.IsOrderly) (hs : s.IsOrderly) (hplain : ∀ p ∈ sources, t.IsPlainSource p)
    (hfound : t.collect sources = .ok found) : s.collect sources = .ok found := by
  obtain ⟨parts, hparts, rfl⟩ := collect_eq_ok_iff.1 hfound
  refine collect_eq_ok_iff.2 ⟨parts, ?_, rfl⟩
  induction hparts with
  | nil => exact .nil
  | cons hp _ ih =>
    exact .cons (h.sourcesAt hdirs ht hs (hplain _ List.mem_cons_self) hp)
      (ih (fun p hp => hplain p (List.mem_cons_of_mem _ hp))
        (collect_eq_ok_iff.2 ⟨_, ‹_›, rfl⟩))

end FileTree

end RowMapping
