import RowMapping.Proofs.FoundSources
/-!
# Running again

A run may write into the directories that it reads headers from.  What it writes is never read as a
source: generated headers are told by their names, which sources do not have.  So a second run finds
the same sources with the same texts, and writes what is there already.

* `FileTree.surface_of_makeDirectories`: the output directory once it is made;
* `FileTree.compileFiles_again`: compiling the same sources from where a run has ended;
* `FileTree.exists_other_error`: an output directory that cannot be made, for another reason the
  second time;
* `FileTree.KeepsSources`: what the first run leaves of its sources;
* `FileTree.generate_again`: the second run.
-/

namespace RowMapping

namespace FileTree

variable {t s t' : FileTree} {p output : Path} {sources found : List Path} {here base : Location}

/-! ### The output directory -/

/-- Steps that stay where they are can only be taken in a directory. -/
theorem walk_stays {root : Directory} (hroot : root.hasLink = false) {steps : List String}
    (hne : steps ≠ []) (hstays : ∀ step ∈ steps, Path.stays step = true) (here : Location) :
    walk root false linkLimit here steps =
      match root.surface here with
      | none => .error .notFound
      | some (some _) => .error .notADirectory
      | some none => .ok here := by
  induction steps with
  | nil => exact absurd rfl hne
  | cons step rest ih =>
    rw [walk_cons hroot, Directory.surface]
    cases hhere : root.at? here with
    | none => rfl
    | some e =>
      cases e with
      | leaf l => rfl
      | directory inside =>
        dsimp only
        rw [if_pos (hstays step List.mem_cons_self)]
        cases rest with
        | nil => rw [walk]; rfl
        | cons step' rest =>
          have hstays := fun step hstep => hstays step (List.mem_cons_of_mem _ hstep)
          rw [ih (List.cons_ne_nil _ _) hstays, Directory.surface, hhere]

/-- A path has no lineage if none of its steps leads anywhere, and else it is the first of its
lineage. -/
theorem lineage_cases (p : Path) :
    p.lineage = [] ∧ (∀ step ∈ p.steps, Path.stays step = true) ∨ ∃ l, p.lineage = p :: l := by
  unfold Path.lineage
  split
  · next hnames =>
    left
    exact ⟨rfl, by simpa [Path.names] using hnames⟩
  · exact .inr ⟨_, rfl⟩

theorem isDirectory_of_makeDirectories (ht : t.IsLinkless)
    (h : t.makeDirectories output = (.ok (), s)) (hlineage : output.lineage ≠ []) :
    s.isDirectory output = true := by
  rcases lineage_cases output with ⟨hnil, -⟩ | ⟨l, hl⟩
  · exact absurd hnil hlineage
  · rw [makeDirectories, hl] at h
    exact isDirectory_of_makeLineage ht h

/-- Once it is made, an output directory that can be found is a directory. -/
theorem surface_of_makeDirectories (ht : t.IsLinkless) (h : t.makeDirectories output = (.ok (), s))
    (hbase : s.locate output = .ok base) : s.surface base = some none := by
  rcases lineage_cases output with ⟨hnil, hstays⟩ | ⟨l, hl⟩
  · have hs : s.IsLinkless := by
      have hmade := isLinkless_makeDirectories ht output
      rwa [h] at hmade
    have hwalk := (locate_eq_ok_iff.1 hbase).2
    rw [landing, walk_stays hs (steps_ne_nil output) hstays] at hwalk
    split at hwalk
    · cases hwalk
    · cases hwalk
    · next hdir =>
      cases hwalk
      exact hdir
  · obtain ⟨there, hthere, hdir⟩ := isDirectory_iff.1
      (isDirectory_of_makeDirectories ht h (hl ▸ List.cons_ne_nil output l))
    cases hbase.symm.trans hthere
    exact hdir

theorem makeDirectories_of_isDirectory (ht : t.IsLinkless)
    (h : output.lineage ≠ [] → t.isDirectory output = true) :
    t.makeDirectories output = (.ok (), t) := by
  unfold makeDirectories
  rcases lineage_cases output with ⟨hnil, -⟩ | ⟨l, hl⟩
  · rw [hnil]
    rfl
  · rw [hl] at h ⊢
    exact makeLineage_of_isDirectory ht (h (List.cons_ne_nil output l))

/-! ### Two runs -/

theorem isWrapperName_of_mem_compiledHeaders {u : GeneratedHeader}
    (hu : u ∈ compiledHeaders output sources t) : IsWrapperName u.fileName := by
  rw [(isFiled_of_mem_compiledHeaders hu).1]
  exact isWrapperName_headerFile u.className

theorem generate_eq_of_collect (hmake : t.makeDirectories output = (.ok (), s))
    (hfound : s.collect sources = .ok found) :
    t.generate sources output = compileFiles output found s := by
  rw [generate, hmake]
  dsimp only
  rw [hfound]

theorem generate_eq_of_collect_error {e : Failure} (hmake : t.makeDirectories output = (.ok (), s))
    (hfound : s.collect sources = .error e) : t.generate sources output = (.error e, s) := by
  rw [generate, hmake]
  dsimp only
  rw [hfound]

/-- **A run from where another one has ended** finds its sources, with their texts, and gives the
same outcome. -/
theorem compileFiles_again (hs : s.IsLinkless) (horderly : s.IsOrderly)
    (hplain : ∀ p ∈ sources, s.IsPlainSource p) (hfound : s.collect sources = .ok found)
    (hbase : s.locate output = .ok base) (hdir : s.surface base = some none)
    {result : Except Failure Report}
    (h : compileFiles output found s = (result, t')) :
    Agree (IsTarget IsWrapperName base s) s t' ∧ t'.collect sources = .ok found ∧
      compileFiles output found t' = (result, t') ∧
      ∀ r, result = .ok r → ∀ path ∈ r.written, ∃ name, IsWrapperName name ∧
        t'.locate path = .ok (base ++ [name]) := by
  have hsources : ∀ source ∈ found, ∃ here, s.locate source = .ok here ∧
      ¬IsTarget IsWrapperName base s here := fun source hsource => by
    obtain ⟨above, last, content, hlocate, -, hlast⟩ :=
      exists_of_mem_collect hs horderly hfound hsource
    exact ⟨_, hlocate, not_isTarget_of_not_isWrapperName (hlast hplain)⟩
  obtain ⟨hrun, hheaders⟩ := compileFiles_eq hbase hdir (.refl_isTarget hs _ _) hsources
    fun u hu _ => isWrapperName_of_mem_compiledHeaders hu
  have hfiled : ∀ u ∈ s.headersOf output found,
      IsWrapperName u.fileName ∧ IsEntryName u.fileName := by
    intro u hu
    rw [← hheaders] at hu
    exact ⟨isWrapperName_of_mem_compiledHeaders hu, (isFiled_of_mem_compiledHeaders hu).2⟩
  have hlanding := (locate_eq_ok_iff.1 hbase).2
  obtain ⟨front, back, hall, hwrote, -, -⟩ := writeHeaders_cases hs
    (fun u hu => (hfiled u hu).2) hlanding hdir
  have ht' : (writeHeaders output (s.headersOf output found) s).2 = t' := by
    rw [hrun] at h
    exact congrArg Prod.snd h
  rw [ht'] at hwrote
  have hagree : Agree (IsTarget IsWrapperName base s) s t' :=
    (Agree.refl_isTarget hs _ _).wrote hwrote fun u hu => (hfiled u (by simp [hall, hu])).1
  refine ⟨hagree, ?_, ?_, ?_⟩
  · exact hagree.collect (fun here => hwrote.directory_iff.1) horderly (hwrote.orderly horderly)
      hplain hfound
  · obtain ⟨hagain, -⟩ := compileFiles_eq hbase hdir hagree hsources
      fun u hu _ => isWrapperName_of_mem_compiledHeaders hu
    have hsame := writeHeaders_again hs horderly (fun u hu => (hfiled u hu).2) hlanding hdir
    rw [ht'] at hsame
    rw [hagain, ← h, hrun, outcome, outcome, hsame]
  · rintro r rfl path hpath
    have hwritten := writeHeaders_of_compileFiles h
    rw [paths_of_writeHeaders hwritten, hheaders] at hpath
    obtain ⟨u, hu, rfl⟩ := List.mem_map.1 hpath
    refine ⟨u.fileName, (hfiled u hu).1, ?_⟩
    exact (wrote_of_writeHeaders hs (fun u hu => (hfiled u hu).2) hlanding hdir
      (hheaders ▸ hwritten)).locate_join hs hlanding hdir hu (hfiled u hu).2

theorem isPlainSource_of_grown {l : List Path} (ht : t.IsLinkless) (h : Grown l t s)
    (hplain : t.IsPlainSource p) : s.IsPlainSource p :=
  hplain.imp_left (h.agree ht).isDirectory

/-! ### An output directory behind a file -/

/-- A path that goes up from a directory to a file, and behind it. -/
def blockedOutput : Path := ⟨"new/../User.h/x"⟩

/-- The tree with one header and an empty directory. -/
def withNew (content : List UInt8) : FileTree :=
  ⟨.leaf "User.h" (.file content) (.inner "new" .empty .empty), []⟩

section

variable (content : List UInt8)

theorem lineage_blockedOutput : blockedOutput.lineage =
    [blockedOutput, ⟨"new/../User.h"⟩, ⟨"new/.."⟩, ⟨"new"⟩] := by
  decide

theorem steps_blockedOutput : blockedOutput.steps = ["new", "..", "User.h", "x"] ∧
    (⟨"new/../User.h"⟩ : Path).steps = ["new", "..", "User.h"] ∧
    (⟨"new/.."⟩ : Path).steps = ["new", ".."] ∧ (⟨"new"⟩ : Path).steps = ["new"] := by
  decide

theorem put_new : (oneFile content).put ["new"] (.directory .empty) = withNew content := by
  have hne : ¬"User.h" = "new" := by decide
  have hlt : ¬"new" < "User.h" := by decide
  rw [FileTree.put, oneFile, Directory.put, Directory.insert, if_neg hne, if_neg hlt]
  rfl

/-- Only the first directory of the path can be made at once. -/
theorem makeDirectory_oneFile : (oneFile content).makeDirectory blockedOutput = .error .notFound ∧
    (oneFile content).makeDirectory ⟨"new/../User.h"⟩ = .error .notFound ∧
    (oneFile content).makeDirectory ⟨"new/.."⟩ = .error .notFound ∧
    (oneFile content).makeDirectory ⟨"new"⟩ = .ok (withNew content) := by
  rw [← put_new]
  simp [makeDirectory, create, steps_blockedOutput, walk, start, oneFile,
    Path.isAbsolute, Directory.get?, bind, Except.bind, Path.stays]

/-- Behind it, the path meets the header. -/
theorem makeDirectory_withNew :
    (withNew content).makeDirectory ⟨"new/.."⟩ = .ok (withNew content) ∧
    (withNew content).makeDirectory ⟨"new/../User.h"⟩ = .error .alreadyExists ∧
    (withNew content).makeDirectory blockedOutput = .error .notADirectory := by
  simp [makeDirectory, create, steps_blockedOutput, walk, start, withNew,
    Path.isAbsolute, Directory.get?, Directory.at?, bind, Except.bind, Path.stays, isDirectory,
    directory?, entry?, locate, follow, Except.toOption]

theorem makeDirectories_blockedOutput :
    (oneFile content).makeDirectories blockedOutput = (.error .alreadyExists, withNew content) ∧
    (withNew content).makeDirectories blockedOutput = (.error .notADirectory, withNew content) := by
  simp [makeDirectories, lineage_blockedOutput, makeLineage, makeDirectory_oneFile,
    makeDirectory_withNew, attempt]

theorem isOrderly_oneFile : (oneFile content).IsOrderly :=
  ⟨⟨by decide, by decide, by decide, by decide⟩, nofun, trivial⟩

theorem isFile_oneFile : (oneFile content).isFile ⟨"User.h"⟩ = true :=
  isFile_iff.2 ⟨_, content, locate_oneFile content,
    Directory.surface_eq_leaf_iff.2 (at?_oneFile content)⟩

end

/-- The second run can fail for another reason than the first one. -/
theorem exists_other_error : ¬ ∀ (t t' : FileTree) (sources : List Path) (output : Path)
    (result : Except Failure Report), t.IsLinkless → t.IsOrderly →
      (∀ p ∈ sources, t.isDirectory p = true ∨
        t.isFile p = true ∧ ∀ name ∈ p.fileName?, ¬IsWrapperName name) →
      t.generate sources output = (result, t') → t'.generate sources output = (result, t') := by
  intro hclaim
  obtain ⟨hfirst, hsecond⟩ := makeDirectories_blockedOutput []
  have hplain : ∀ p ∈ [(⟨"User.h"⟩ : Path)], (oneFile []).isDirectory p = true ∨
      (oneFile []).isFile p = true ∧ ∀ name ∈ p.fileName?, ¬IsWrapperName name := by
    intro p hp
    rw [List.mem_singleton.1 hp]
    exact .inr ⟨isFile_oneFile [], by decide⟩
  have hagain := hclaim (oneFile []) (withNew []) [⟨"User.h"⟩] blockedOutput
    (.error (.file .alreadyExists)) (isLinkless_oneFile []) (isOrderly_oneFile []) hplain
    (by rw [generate, hfirst])
  rw [generate, hsecond] at hagain
  cases hagain

/-- The sources of a run from `s` to `t'` are found again with their texts, and none of them is a
file that was written. -/
def KeepsSources (sources found : List Path) (s t' : FileTree) (result : Except Failure Report) :
    Prop :=
  t'.collect sources = .ok found ∧ ∀ source ∈ found, t'.read source = s.read source ∧
    ∀ r, result = .ok r → ∀ path ∈ r.written, t'.locate source ≠ t'.locate path

/-- An output directory that cannot be found is not written to, so that the second run starts where
the first one did. -/
theorem generate_again_of_error (ht : t.IsLinkless) (hmake : t.makeDirectories output = (.ok (), s))
    (hfound : s.collect sources = .ok found) {e : FileError} (hbase : s.locate output = .error e)
    {result : Except Failure Report} (h : compileFiles output found s = (result, t')) :
    t'.generate sources output = (result, t') ∧ KeepsSources sources found s t' result := by
  obtain ⟨hrun, hheaders⟩ := compileFiles_of_error hbase found
  have hnothing : compileFiles output found s = (.ok ⟨[], s.failuresOf output found⟩, s) := by
    rw [hrun, outcome, hheaders]
    rfl
  rw [hnothing] at h
  cases h
  refine ⟨?_, hfound, fun source _ => ⟨rfl, fun r hr path hpath => ?_⟩⟩
  · rw [generate_eq_of_collect (makeDirectories_of_ok ht hmake) hfound, hnothing]
  · cases hr
    cases hpath

/-- Sources lie elsewhere than what is written to the output directory. -/
theorem generate_again_of_base (ht : t.IsLinkless) (hmake : t.makeDirectories output = (.ok (), s))
    (horderly : s.IsOrderly) (hplain : ∀ p ∈ sources, s.IsPlainSource p)
    (hfound : s.collect sources = .ok found) (hbase : s.locate output = .ok base)
    {result : Except Failure Report} (h : compileFiles output found s = (result, t')) :
    t'.generate sources output = (result, t') ∧ KeepsSources sources found s t' result := by
  have hs : s.IsLinkless := by
    have hmade := isLinkless_makeDirectories ht output
    rwa [hmake] at hmade
  obtain ⟨hagree, hcollect, hagain, hwritten⟩ := compileFiles_again hs horderly hplain hfound hbase
    (surface_of_makeDirectories ht hmake hbase) h
  have hmake' : t'.makeDirectories output = (.ok (), t') :=
    makeDirectories_of_isDirectory hagree.linkless' fun hne =>
      hagree.isDirectory (isDirectory_of_makeDirectories ht hmake hne)
  refine ⟨by rw [generate_eq_of_collect hmake' hcollect, hagain], hcollect, fun source hsource => ?_⟩
  obtain ⟨above, last, content, hlocate, -, hlast⟩ :=
    exists_of_mem_collect hs horderly hfound hsource
  have hlast := hlast hplain
  have hnot : ¬IsTarget IsWrapperName base s (above ++ [last]) :=
    not_isTarget_of_not_isWrapperName hlast
  refine ⟨hagree.read hlocate hnot, fun r hr path hpath hsame => ?_⟩
  obtain ⟨name, hname, hpath'⟩ := hwritten r hr path hpath
  rw [hagree.locate_of_not hlocate hnot, hpath'] at hsame
  obtain ⟨-, hlast'⟩ := List.append_inj' (Except.ok.inj hsame) rfl
  exact hlast ((List.cons.inj hlast').1 ▸ hname)

/-- **A second run leaves everything as the first one has left it.**  It gives the same report or the
same failure, except that an output directory that could not be made may then fail to be made for
another reason.  Every source of the first run is a source of the second one with the text that it
had, and none of them is a file that was written. -/
theorem generate_again {result : Except Failure Report} (ht : t.IsLinkless) (horderly : t.IsOrderly)
    (hplain : ∀ p ∈ sources, t.IsPlainSource p) (h : t.generate sources output = (result, t')) :
    (t'.generate sources output).2 = t' ∧
    ((t'.generate sources output).1 = result ∨
      ∃ e e', t.makeDirectories output = (.error e, t') ∧ result = .error (.file e) ∧
        (t'.generate sources output).1 = .error (.file e')) ∧
    ∀ s found, t.makeDirectories output = (.ok (), s) → s.collect sources = .ok found →
      t'.collect sources = .ok found ∧ ∀ source ∈ found, t'.read source = s.read source ∧
        ∀ r, result = .ok r → ∀ path ∈ r.written, t'.locate source ≠ t'.locate path := by
  have hgrown := grown_makeDirectories ht output
  cases hmake : t.makeDirectories output with
  | mk made s =>
    rw [hmake] at hgrown
    cases made with
    | error e =>
      obtain ⟨e', he'⟩ := exists_error_of_makeDirectories ht hmake
      rw [generate, hmake] at h
      cases h
      have hagain : t'.generate sources output = (.error (.file e'), t') := by
        rw [generate, he']
      rw [hagain]
      exact ⟨rfl, .inr ⟨e, e', rfl, rfl, rfl⟩, fun _ _ hok => by cases hok⟩
    | ok _ =>
      cases hfound : s.collect sources with
      | error e =>
        rw [generate_eq_of_collect_error hmake hfound] at h
        cases h
        rw [generate_eq_of_collect_error (makeDirectories_of_ok ht hmake) hfound]
        refine ⟨rfl, .inl rfl, fun s' found hs' hfound' => ?_⟩
        cases hs'
        rw [hfound] at hfound'
        cases hfound'
      | ok found =>
        rw [generate_eq_of_collect hmake hfound] at h
        have hagain : t'.generate sources output = (result, t') ∧
            KeepsSources sources found s t' result := by
          cases hbase : s.locate output with
          | error e => exact generate_again_of_error ht hmake hfound hbase h
          | ok base =>
            exact generate_again_of_base ht hmake (hgrown.orderly horderly)
              (fun p hp => isPlainSource_of_grown ht hgrown (hplain p hp)) hfound hbase h
        obtain ⟨hrun, hkept⟩ := hagain
        rw [hrun]
        refine ⟨rfl, .inl rfl, fun s' found' hs' hfound' => ?_⟩
        cases hs'
        cases hfound.symm.trans hfound'
        exact hkept

theorem generate_again_users : ∃ r t', usersTree.generate [⟨"User.h"⟩] ⟨"."⟩ = (.ok r, t') ∧
    r.written = [⟨"./UserWrapper.h"⟩, ⟨"./GroupWrapper.h"⟩, ⟨"./UserWrapper.h"⟩] ∧
    t'.generate [⟨"User.h"⟩] ⟨"."⟩ = (.ok r, t') ∧ t'.collect [⟨"User.h"⟩] = .ok [⟨"User.h"⟩] := by
  obtain ⟨t', hrun⟩ := exists_generate_users
  have hplain : ∀ p ∈ [(⟨"User.h"⟩ : Path)], usersTree.IsPlainSource p := by
    intro p hp
    rw [List.mem_singleton.1 hp]
    exact .inr (by decide)
  obtain ⟨htree, hresult, hsources⟩ := generate_again (isLinkless_oneFile _) (isOrderly_oneFile _)
    hplain hrun
  refine ⟨_, t', hrun, rfl, ?_, (hsources _ _ makeDirectories_users collect_users).1⟩
  rcases hresult with hsame | ⟨e, e', -, herror, -⟩
  · exact Prod.ext hsame htree
  · cases herror

end FileTree

end RowMapping
