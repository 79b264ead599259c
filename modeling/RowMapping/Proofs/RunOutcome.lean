import RowMapping.Proofs.MadeDirectories
import RowMapping.Proofs.WrittenHeaders
/-!
# The outcome of a run

A run compiles one source after the other, and writes what it gets before it goes on.  When no source
is a file that the run writes, all sources can be compiled first: what is written for one changes
nothing for another.  So the outcome is that of writing all headers in one go, and writing them once
more finds everything as it is.

* `FileTree.headersOf`, `FileTree.failuresOf`: what is compiled from sources, all in one tree;
* `FileTree.Wrote`: a tree into which headers have been written;
* `FileTree.writeHeaders_cases`, `FileTree.writeHeaders_again`: how far headers are written, and
  writing them again;
* `FileTree.IsTarget`, `FileTree.Agree.compileFile`: compiling while headers are written;
* `FileTree.compileFiles_eq`: the outcome of a run.
-/

namespace RowMapping

namespace FileTree

variable {t s r : FileTree} {output source : Path} {sources : List Path} {base here : Location}
  {headers front back : List GeneratedHeader} {u : GeneratedHeader} {X : Location → Prop}
  {N : String → Prop}

/-! ### What is compiled -/

/-- The headers that are compiled from sources, all of them in one tree. -/
def headersOf (t : FileTree) (output : Path) (sources : List Path) : List GeneratedHeader :=
  sources.flatMap fun source => (t.compileFile source output).toOption.getD []

/-- The sources that cannot be compiled, each with its failure. -/
def failuresOf (t : FileTree) (output : Path) (sources : List Path) : List (Path × Failure) :=
  sources.filterMap fun source =>
    match t.compileFile source output with
    | .error e => some (source, e)
    | .ok _ => none

/-! ### Writing headers -/

/-- The last header for a location in the directory `base`. -/
def lastAt (base : Location) (headers : List GeneratedHeader) (here : Location) :
    Option GeneratedHeader :=
  headers.reverse.find? fun u => here = base ++ [u.fileName]

/-- The tree `s` is `t` after headers have been written into the directory `base`. -/
structure Wrote (base : Location) (headers : List GeneratedHeader) (t s : FileTree) : Prop where
  home : s.home = t.home
  linkless : s.IsLinkless
  orderly : t.IsOrderly → s.IsOrderly
  surface : ∀ here, s.surface here =
    match lastAt base headers here with
    | some u => some (some (.file (Text.encode u.text)))
    | none => t.surface here
  free : ∀ u ∈ headers, t.surface (base ++ [u.fileName]) ≠ some none

theorem Wrote.nil (ht : t.IsLinkless) (base : Location) : Wrote base [] t t :=
  ⟨rfl, ht, id, fun _ => rfl, nofun⟩

theorem lastAt_cons (base : Location) (u : GeneratedHeader) (headers : List GeneratedHeader)
    (here : Location) : lastAt base (u :: headers) here =
      (lastAt base headers here).or (if here = base ++ [u.fileName] then some u else none) := by
  unfold lastAt
  rw [List.reverse_cons, List.find?_append]
  by_cases h : here = base ++ [u.fileName] <;> simp [h]

theorem of_lastAt_eq_some (h : lastAt base headers here = some u) :
    u ∈ headers ∧ here = base ++ [u.fileName] := by
  have hlast := List.find?_some h
  exact ⟨List.mem_reverse.1 (List.mem_of_find?_eq_some h), by simpa using hlast⟩

theorem isSome_lastAt (base : Location) (h : u ∈ headers) :
    (lastAt base headers (base ++ [u.fileName])).isSome := by
  rw [lastAt, List.find?_isSome]
  exact ⟨u, List.mem_reverse.2 h, by simp⟩

/-- What is shown after headers have been written: the last of them, or what was there before. -/
theorem Wrote.surface_eq (h : Wrote base headers t s) (here : Location) :
    s.surface here = t.surface here ∨
      ∃ u ∈ headers, here = base ++ [u.fileName] ∧
        s.surface here = some (some (.file (Text.encode u.text))) := by
  have hsurface := h.surface here
  split at hsurface
  · next u hu =>
    obtain ⟨hmem, hhere⟩ := of_lastAt_eq_some hu
    exact .inr ⟨u, hmem, hhere, hsurface⟩
  · exact .inl hsurface

theorem Wrote.isSome_surface (h : Wrote base headers t s) (hu : u ∈ headers) :
    ∃ content, s.surface (base ++ [u.fileName]) = some (some (.file content)) := by
  obtain ⟨v, hv⟩ := Option.isSome_iff_exists.1 (isSome_lastAt base hu)
  exact ⟨Text.encode v.text, by rw [h.surface, hv]⟩

theorem Wrote.directory_iff (h : Wrote base headers t s) :
    s.surface here = some none ↔ t.surface here = some none := by
  rcases h.surface_eq here with hsame | ⟨u, hu, rfl, hnew⟩
  · rw [hsame]
  · rw [hnew]
    exact ⟨nofun, fun hdir => absurd hdir (h.free u hu)⟩

theorem Wrote.cons (h : Wrote base [u] t s) (h' : Wrote base headers s r) :
    Wrote base (u :: headers) t r where
  home := h'.home.trans h.home
  linkless := h'.linkless
  orderly := fun ht => h'.orderly (h.orderly ht)
  surface := fun here => by
    rw [h'.surface, h.surface, lastAt_cons, lastAt_cons]
    cases lastAt base headers here <;> rfl
  free := fun v hv => by
    rcases List.mem_cons.1 hv with rfl | hv
    · exact h.free v List.mem_cons_self
    · exact fun hdir => h'.free v hv (h.directory_iff.2 hdir)

/-- Writing one header into a directory. -/
theorem wrote_of_write (ht : t.IsLinkless) (hname : IsEntryName u.fileName)
    (hbase : t.landing output = .ok base) (hdir : t.surface base = some none)
    (hfree : t.surface (base ++ [u.fileName]) ≠ some none) :
    ∃ s, t.write (output.join u.fileName) (Text.encode u.text) = .ok s ∧ Wrote base [u] t s := by
  obtain ⟨inside, hinside⟩ := Directory.surface_eq_directory_iff.1 hdir
  have hblank : ∀ below, inside.get? u.fileName ≠ some (.directory below) := by
    intro below hbelow
    apply hfree
    rw [surface, Directory.surface_concat hinside, hbelow]
    rfl
  refine ⟨_, (write_join_iff ht hname).2 ⟨base, inside, hbase, hinside, hblank, rfl⟩, rfl,
    isLinkless_put ht rfl _, fun horderly => ?_, fun here => ?_, by simpa using hfree⟩
  · exact Directory.IsOrderly.put horderly trivial (by simpa using hname)
  · refine (Directory.surface_put (e := .leaf (.file (Text.encode u.text))) hinside hblank
      (fun _ h => by cases h) here).trans ?_
    rw [lastAt_cons, show lastAt base [] here = none from rfl, Option.none_or]
    split <;> rfl

/-- A directory in the place of a header is not overwritten. -/
theorem write_of_directory (ht : t.IsLinkless) (hname : IsEntryName u.fileName)
    (hbase : t.landing output = .ok base) (hdir : t.surface base = some none)
    (hblocked : t.surface (base ++ [u.fileName]) = some none) (content : List UInt8) :
    t.write (output.join u.fileName) content = .error .isADirectory := by
  obtain ⟨inside, hinside⟩ := Directory.surface_eq_directory_iff.1 hdir
  obtain ⟨below, hbelow⟩ := Directory.surface_eq_directory_iff.1 hblocked
  rw [write, follow, text_join_ne_empty output hname.1, if_neg Bool.false_ne_true,
    walk_join ht hname, hbase]
  simp only [Except.bind, bind, walk_name ht hinside hname, Bool.or_true, if_true, hbelow]

theorem Wrote.landing (ht : t.IsLinkless) (h : Wrote base headers t s)
    (hbase : t.landing output = .ok base) (hdir : t.surface base = some none) :
    s.landing output = .ok base := by
  rw [FileTree.landing, h.home]
  refine walk_of_surface ht h.linkless (fun _ => h.directory_iff.2) hbase ?_
  change (s.surface base).isSome
  rw [h.directory_iff.2 hdir]
  rfl

/-- Writing headers leads no path away. -/
theorem Wrote.locate (ht : t.IsLinkless) (h : Wrote base headers t s) {p : Path}
    (hp : t.locate p = .ok here) : s.locate p = .ok here := by
  rw [locate_eq_ok_iff] at hp ⊢
  refine ⟨hp.1, ?_⟩
  rw [FileTree.landing, h.home]
  refine walk_of_surface ht h.linkless (fun _ => h.directory_iff.2) hp.2 ?_
  change (s.surface here).isSome
  rcases h.surface_eq here with hsame | ⟨u, -, -, hnew⟩
  · rw [hsame]
    exact isSome_surface_of_locate ht (locate_eq_ok_iff.2 hp)
  · rw [hnew]
    rfl

/-- A header that has been written is found at its path. -/
theorem Wrote.locate_join (ht : t.IsLinkless) (h : Wrote base headers t s)
    (hbase : t.landing output = .ok base) (hdir : t.surface base = some none) (hu : u ∈ headers)
    (hname : IsEntryName u.fileName) :
    s.locate (output.join u.fileName) = .ok (base ++ [u.fileName]) := by
  obtain ⟨inside, hinside⟩ := Directory.surface_eq_directory_iff.1 (h.directory_iff.2 hdir)
  obtain ⟨content, hcontent⟩ := h.isSome_surface hu
  have hin : (inside.get? u.fileName).isSome := by
    rw [FileTree.surface, Directory.surface_concat hinside] at hcontent
    rw [← Option.isSome_map (f := Entry.surface), hcontent]
    rfl
  exact FileTree.locate_join h.linkless hname (h.landing ht hbase hdir) hinside hin

/-- Headers are written up to the first one in whose place there is a directory. -/
theorem writeHeaders_cases (ht : t.IsLinkless) (hnames : ∀ u ∈ headers, IsEntryName u.fileName)
    (hbase : t.landing output = .ok base) (hdir : t.surface base = some none) :
    ∃ front back, headers = front ++ back ∧ Wrote base front t (writeHeaders output headers t).2 ∧
      writeHeaders output front t =
        (.ok (front.map fun u => output.join u.fileName), (writeHeaders output headers t).2) ∧
      (back = [] ∨ ∃ u rest, back = u :: rest ∧ t.surface (base ++ [u.fileName]) = some none ∧
        (writeHeaders output headers t).1 = .error .isADirectory) := by
  induction headers generalizing t with
  | nil => exact ⟨[], [], rfl, .nil ht base, rfl, .inl rfl⟩
  | cons u headers ih =>
    have hname := hnames u List.mem_cons_self
    by_cases hblocked : t.surface (base ++ [u.fileName]) = some none
    · have hwrite := write_of_directory ht hname hbase hdir hblocked (Text.encode u.text)
      have hstop : writeHeaders output (u :: headers) t = (.error .isADirectory, t) := by
        rw [writeHeaders, hwrite]
      rw [hstop]
      exact ⟨[], u :: headers, rfl, .nil ht base, rfl, .inr ⟨u, headers, rfl, hblocked, rfl⟩⟩
    · obtain ⟨s, hwrite, hone⟩ := wrote_of_write ht hname hbase hdir hblocked
      obtain ⟨front, back, rfl, hfront, hpaths, hback⟩ := ih hone.linkless
        (fun v hv => hnames v (List.mem_cons_of_mem u hv)) (hone.landing ht hbase hdir)
        (hone.directory_iff.2 hdir)
      have hrest : writeHeaders output (u :: (front ++ back)) t =
          ((writeHeaders output (front ++ back) s).1.map (output.join u.fileName :: ·),
            (writeHeaders output (front ++ back) s).2) := by
        rw [writeHeaders, hwrite]
      rw [hrest]
      refine ⟨u :: front, back, rfl, hone.cons hfront, ?_, hback.imp_right ?_⟩
      · exact writeHeaders_cons_iff.2 ⟨s, _, hwrite, hpaths, rfl⟩
      · rintro ⟨v, rest, rfl, hv, herror⟩
        refine ⟨v, rest, rfl, hone.directory_iff.1 hv, ?_⟩
        dsimp only
        rw [herror]
        rfl

theorem wrote_of_writeHeaders {paths : List Path} (ht : t.IsLinkless)
    (hnames : ∀ u ∈ headers, IsEntryName u.fileName) (hbase : t.landing output = .ok base)
    (hdir : t.surface base = some none) (h : writeHeaders output headers t = (.ok paths, s)) :
    Wrote base headers t s := by
  obtain ⟨front, back, rfl, hwrote, -, rfl | ⟨u, rest, -, -, herror⟩⟩ :=
    writeHeaders_cases ht hnames hbase hdir
  · rw [h] at hwrote
    rwa [List.append_nil]
  · rw [h] at herror
    cases herror

/-- Headers go on to be written after those that could be written. -/
theorem writeHeaders_append_eq {paths : List Path}
    (h : writeHeaders output front t = (.ok paths, s)) (back : List GeneratedHeader) :
    writeHeaders output (front ++ back) t =
      ((writeHeaders output back s).1.map (paths ++ ·), (writeHeaders output back s).2) := by
  induction front generalizing t paths with
  | nil =>
    cases h
    cases hback : writeHeaders output back s with
    | mk result r =>
      rw [List.nil_append, hback]
      cases result <;> rfl
  | cons u front ih =>
    obtain ⟨s', ps, hwrite, hrest, rfl⟩ := writeHeaders_cons_iff.1 h
    rw [List.cons_append, writeHeaders, hwrite]
    dsimp only
    rw [ih hrest]
    cases (writeHeaders output back s).1 <;> rfl

/-- A header that cannot be written ends the writing. -/
theorem writeHeaders_append_error {e : FileError} (h : writeHeaders output front t = (.error e, s))
    (back : List GeneratedHeader) : writeHeaders output (front ++ back) t = (.error e, s) := by
  induction front generalizing t with
  | nil => cases h
  | cons u front ih =>
    rw [writeHeaders] at h
    rw [List.cons_append, writeHeaders]
    split at h
    · exact h
    · next s' _ =>
      cases hrest : writeHeaders output front s' with
      | mk result r =>
        rw [hrest] at h
        cases result with
        | ok paths => cases h
        | error e' =>
          cases h
          dsimp only
          rw [ih hrest]
          rfl

theorem writeHeaders_of_blocked (rest : List GeneratedHeader) (ht : t.IsLinkless)
    (hname : IsEntryName u.fileName) (hbase : t.landing output = .ok base)
    (hdir : t.surface base = some none) (hblocked : t.surface (base ++ [u.fileName]) = some none) :
    writeHeaders output (u :: rest) t = (.error .isADirectory, t) := by
  rw [writeHeaders, write_of_directory ht hname hbase hdir hblocked]

/-- Headers that stand in no directory's place are written. -/
theorem writeHeaders_of_free (ht : t.IsLinkless) (hnames : ∀ u ∈ headers, IsEntryName u.fileName)
    (hbase : t.landing output = .ok base) (hdir : t.surface base = some none)
    (hfree : ∀ u ∈ headers, t.surface (base ++ [u.fileName]) ≠ some none) :
    ∃ s, writeHeaders output headers t =
      (.ok (headers.map fun u => output.join u.fileName), s) ∧ Wrote base headers t s := by
  obtain ⟨front, back, hall, hwrote, hpaths, rfl | ⟨u, rest, rfl, hblocked, -⟩⟩ :=
    writeHeaders_cases ht hnames hbase hdir
  · rw [List.append_nil] at hall
    subst hall
    exact ⟨_, hpaths, hwrote⟩
  · exact absurd hblocked (hfree u (by simp [hall]))

/-- Headers that are written over themselves leave everything as it is. -/
theorem Wrote.eq_of_wrote (horderly : t.IsOrderly) (h : Wrote base headers t s)
    (h' : Wrote base headers s r) : r = s := by
  have hs := h.orderly horderly
  refine ext_of_surface (h'.orderly hs) hs h'.home fun here => ?_
  rw [h'.surface]
  split
  · next u hu => rw [h.surface, hu]
  · rfl

/-- **Writing headers again changes nothing**, and goes as far as before. -/
theorem writeHeaders_again (ht : t.IsLinkless) (horderly : t.IsOrderly)
    (hnames : ∀ u ∈ headers, IsEntryName u.fileName) (hbase : t.landing output = .ok base)
    (hdir : t.surface base = some none) :
    writeHeaders output headers (writeHeaders output headers t).2 =
      writeHeaders output headers t := by
  obtain ⟨front, back, hall, hwrote, hpaths, hback⟩ := writeHeaders_cases ht hnames hbase hdir
  generalize hs : (writeHeaders output headers t).2 = s at hwrote hpaths ⊢
  have hbase' := hwrote.landing ht hbase hdir
  have hdir' := hwrote.directory_iff.2 hdir
  have hfree : ∀ u ∈ front, s.surface (base ++ [u.fileName]) ≠ some none := fun u hu =>
    fun hnone => hwrote.free u hu (hwrote.directory_iff.1 hnone)
  obtain ⟨r, hwrite, hr⟩ := writeHeaders_of_free hwrote.linkless
    (fun u hu => hnames u (by simp [hall, hu])) hbase' hdir' hfree
  obtain rfl := hwrote.eq_of_wrote horderly hr
  rcases hback with rfl | ⟨u, rest, rfl, hblocked, herror⟩
  · rw [List.append_nil] at hall
    subst hall
    exact hwrite.trans hpaths.symm
  · have hstop := writeHeaders_of_blocked rest hwrote.linkless
      (hnames u (by simp [hall])) hbase' hdir' (hwrote.directory_iff.2 hblocked)
    have hagain := writeHeaders_append_eq hwrite (u :: rest)
    have hfirst := writeHeaders_append_eq hpaths (u :: rest)
    rw [hall, hagain, hfirst]

/-! ### Compiling while headers are written -/

/-- A location in the directory `base` that headers with names in `N` may be written to. -/
def IsTarget (N : String → Prop) (base : Location) (t : FileTree) (here : Location) : Prop :=
  (∃ name, N name ∧ here = base ++ [name]) ∧ t.surface here ≠ some none

theorem not_isTarget_of_directory (h : t.surface here = some none) : ¬IsTarget N base t here :=
  fun htarget => htarget.2 h

theorem Agree.refl_isTarget (ht : t.IsLinkless) (N : String → Prop) (base : Location) :
    Agree (IsTarget N base t) t t :=
  .refl ht fun _ h => h.2

theorem Agree.wrote (h : Agree (IsTarget N base t) t s) (hwrote : Wrote base headers s r)
    (hN : ∀ u ∈ headers, N u.fileName) : Agree (IsTarget N base t) t r where
  linkless := h.linkless
  linkless' := hwrote.linkless
  home := hwrote.home.trans h.home
  surface := fun here hhere => by
    rcases hwrote.surface_eq here with hsame | ⟨u, hu, rfl, -⟩
    · rw [hsame, h.surface here hhere]
    · -- what is no target under such a name is a directory, into whose place nothing is written
      by_cases hdir : t.surface (base ++ [u.fileName]) = some none
      · exact absurd (h.directory hdir) (hwrote.free u hu)
      · exact absurd ⟨⟨u.fileName, hN u hu, rfl⟩, hdir⟩ hhere
  free := h.free

theorem Agree.includePath (h : Agree X t s) (hsource : t.locate source = .ok here) (hX : ¬X here)
    (houtput : t.locate output = .ok base) (hbase : ¬X base) :
    s.includePath source output = t.includePath source output := by
  rw [FileTree.includePath, FileTree.includePath, hsource, houtput, h.locate_of_not hsource hX,
    h.locate_of_not houtput hbase]

/-- A source outside of the locations is compiled to the same in both trees. -/
theorem Agree.compileFile (h : Agree X t s) (hsource : t.locate source = .ok here) (hX : ¬X here)
    (houtput : t.locate output = .ok base) (hbase : ¬X base) :
    s.compileFile source output = t.compileFile source output := by
  rw [FileTree.compileFile, FileTree.compileFile, h.read hsource hX,
    h.includePath hsource hX houtput hbase]

/-- What a run reports when everything is compiled in the tree `t` and then written to `s`. -/
def outcome (t : FileTree) (output : Path) (sources : List Path) (s : FileTree) :
    Except Failure Report × FileTree :=
  let w := writeHeaders output (t.headersOf output sources) s
  ((w.1.mapError .file).map fun paths => ⟨paths, t.failuresOf output sources⟩, w.2)

theorem headersOf_cons_error {e : Failure} (h : t.compileFile source output = .error e) :
    t.headersOf output (source :: sources) = t.headersOf output sources := by
  rw [headersOf, List.flatMap_cons, h]
  rfl

theorem headersOf_cons_ok (h : t.compileFile source output = .ok headers) :
    t.headersOf output (source :: sources) = headers ++ t.headersOf output sources := by
  rw [headersOf, List.flatMap_cons, h]
  rfl

theorem failuresOf_cons_error {e : Failure} (h : t.compileFile source output = .error e) :
    t.failuresOf output (source :: sources) = (source, e) :: t.failuresOf output sources := by
  rw [failuresOf, List.filterMap_cons, h]
  rfl

theorem failuresOf_cons_ok (h : t.compileFile source output = .ok headers) :
    t.failuresOf output (source :: sources) = t.failuresOf output sources := by
  rw [failuresOf, List.filterMap_cons, h]
  rfl

theorem outcome_cons_error {e : Failure} (h : t.compileFile source output = .error e) :
    outcome t output (source :: sources) s =
      ((outcome t output sources s).1.map fun r => { r with failed := (source, e) :: r.failed },
        (outcome t output sources s).2) := by
  simp only [outcome, headersOf_cons_error h, failuresOf_cons_error h]
  cases (writeHeaders output (t.headersOf output sources) s).1 <;> rfl

theorem outcome_cons_ok {paths : List Path} (h : t.compileFile source output = .ok headers)
    (hwrite : writeHeaders output headers s = (.ok paths, r)) :
    outcome t output (source :: sources) s =
      ((outcome t output sources r).1.map fun r => { r with written := paths ++ r.written },
        (outcome t output sources r).2) := by
  simp only [outcome, headersOf_cons_ok h, failuresOf_cons_ok h, writeHeaders_append_eq hwrite]
  cases (writeHeaders output (t.headersOf output sources) r).1 <;> rfl

theorem outcome_of_blocked {e : FileError} (h : t.compileFile source output = .ok headers)
    (hwrite : writeHeaders output headers s = (.error e, r)) :
    outcome t output (source :: sources) s = (.error (.file e), r) := by
  simp only [outcome, headersOf_cons_ok h, writeHeaders_append_error hwrite]
  rfl

/-- **All sources of a run can be compiled first**, when they are none of the files that it may
write. -/
theorem compileFiles_eq (houtput : t.locate output = .ok base) (hdir : t.surface base = some none)
    (hagree : Agree (IsTarget N base t) t s)
    (hsources : ∀ source ∈ sources, ∃ here, t.locate source = .ok here ∧ ¬IsTarget N base t here)
    (hN : ∀ u ∈ compiledHeaders output sources s, u ∈ t.headersOf output sources → N u.fileName) :
    compileFiles output sources s = outcome t output sources s ∧
      compiledHeaders output sources s = t.headersOf output sources := by
  induction sources generalizing s with
  | nil => exact ⟨rfl, rfl⟩
  | cons source sources ih =>
    obtain ⟨here, hsource, hhere⟩ := hsources source List.mem_cons_self
    have hrest := fun p hp => hsources p (List.mem_cons_of_mem source hp)
    have hcompile := hagree.compileFile hsource hhere houtput (not_isTarget_of_directory hdir)
    rw [compileFiles]
    rw [compiledHeaders] at hN ⊢
    cases hresult : t.compileFile source output with
    | error e =>
      rw [hcompile.trans hresult, headersOf_cons_error hresult] at hN
      rw [hcompile.trans hresult]
      obtain ⟨hrun, hheaders⟩ := ih hagree hrest hN
      dsimp only
      rw [outcome_cons_error hresult, headersOf_cons_error hresult, hrun, hheaders]
      exact ⟨rfl, rfl⟩
    | ok headers =>
      rw [hcompile.trans hresult, headersOf_cons_ok hresult] at hN
      rw [hcompile.trans hresult]
      dsimp only at hN ⊢
      have hnames : ∀ u ∈ headers, IsEntryName u.fileName := fun u hu =>
        (isFiled_of_compileFile hresult hu).2
      have hbase : s.landing output = .ok base :=
        (locate_eq_ok_iff.1 (hagree.locate_of_not houtput (not_isTarget_of_directory hdir))).2
      obtain ⟨front, back, hall, hwrote, hpaths, hback⟩ :=
        writeHeaders_cases hagree.linkless' hnames hbase (hagree.directory hdir)
      have hagree' := hagree.wrote hwrote fun u hu => hN u (by simp [hall, hu]) (by simp [hall, hu])
      obtain ⟨hrun, hheaders⟩ := ih hagree' hrest fun u hu hu' =>
        hN u (List.mem_append_right headers hu) (List.mem_append_right headers hu')
      rw [headersOf_cons_ok hresult, hheaders]
      refine ⟨?_, rfl⟩
      cases hwrite : writeHeaders output headers s with
      | mk result r =>
        rw [hwrite] at hrun
        cases result with
        | error e => exact (outcome_of_blocked hresult hwrite).symm
        | ok paths =>
          dsimp only at hrun ⊢
          rw [outcome_cons_ok hresult hwrite, hrun]

/-- Where the output directory cannot be found, nothing is compiled and nothing is written. -/
theorem compileFiles_of_error {e : FileError} (houtput : t.locate output = .error e)
    (sources : List Path) :
    compileFiles output sources t = outcome t output sources t ∧
      t.headersOf output sources = [] := by
  have hfail : ∀ source, ∃ e, t.compileFile source output = .error e := by
    intro source
    unfold compileFile includePath
    cases t.read source with
    | error e => exact ⟨_, rfl⟩
    | ok text =>
      rw [houtput]
      cases t.locate source <;> exact ⟨_, rfl⟩
  induction sources with
  | nil => exact ⟨rfl, rfl⟩
  | cons source sources ih =>
    obtain ⟨e, he⟩ := hfail source
    rw [compileFiles, outcome_cons_error he, headersOf_cons_error he, he]
    dsimp only
    rw [ih.1]
    exact ⟨rfl, ih.2⟩

end FileTree

end RowMapping
