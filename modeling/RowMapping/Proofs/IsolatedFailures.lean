import RowMapping.Proofs.RepeatedRuns
/-!
# Sources that fail

A source that cannot be compiled is reported and writes nothing.  The others give what they give in
a run without it, be it that the source is not asked for or that its file is gone.

* `FileTree.SameBut`: trees that are the same but for some files;
* `FileTree.SameBut.makeDirectories`: directories are made in both alike;
* `FileTree.surface_of_generate`: all that a run changes;
* `FileTree.isolated_failures`: what a run reports and writes, and a run without sources that fail.
-/

namespace RowMapping

namespace FileTree

variable {t s u v t' : FileTree} {p output source : Path} {sources found others : List Path}
  {here there base : Location} {gone : List Location} {root root' : Directory} {links : Nat}
  {steps front back : List String} {name : String} {l : List Path}

/-! ### Trees without some files -/

/-- The tree `u` is the same as `t` but for the files at some locations, none of which is the one
that relative paths start from: there it may hold other files or nothing, but no directories. -/
structure SameBut (gone : List Location) (t u : FileTree) : Prop where
  linkless : t.IsLinkless
  linkless' : u.IsLinkless
  home : u.home = t.home
  home_not_mem : t.home ∉ gone
  surface : ∀ here, here ∉ gone → u.surface here = t.surface here
  file : ∀ here ∈ gone, ∃ content, t.surface here = some (some (.file content))
  free : ∀ here ∈ gone, u.surface here ≠ some none

namespace SameBut

theorem agree (h : SameBut gone t u) : Agree (· ∈ gone) t u where
  linkless := h.linkless
  linkless' := h.linkless'
  home := h.home
  surface := h.surface
  free := fun here hhere => by
    obtain ⟨content, hcontent⟩ := h.file here hhere
    rw [hcontent]
    exact nofun

theorem agree_symm (h : SameBut gone t u) : Agree (· ∈ gone) u t where
  linkless := h.linkless'
  linkless' := h.linkless
  home := h.home.symm
  surface := fun here hhere => (h.surface here hhere).symm
  free := h.free

theorem not_mem_of_directory (h : SameBut gone t u) (hhere : t.surface here = some none) :
    here ∉ gone := fun hmem => h.agree.free here hmem hhere

theorem not_mem_of_none (h : SameBut gone t u) (hhere : t.surface here = none) : here ∉ gone := by
  intro hmem
  obtain ⟨content, hcontent⟩ := h.file here hmem
  rw [hhere] at hcontent
  cases hcontent

/-! ### Making directories -/

/-- A walk that misses a name misses it in the other tree, too. -/
theorem walk_notFound (h : SameBut gone t u)
    (hwalk : walk t.root false links here steps = .error .notFound) :
    walk u.root false links here steps = .error .notFound := by
  induction steps generalizing here with
  | nil => rw [walk] at hwalk; cases hwalk
  | cons step rest ih =>
    rw [walk_cons h.linkless] at hwalk
    rw [walk_cons h.linkless']
    split at hwalk
    · next hnone =>
      have hhere : t.surface here = none := by rw [FileTree.surface, Directory.surface, hnone]; rfl
      have hhere' := h.surface here (h.not_mem_of_none hhere)
      rw [hhere, FileTree.surface, Directory.surface, Option.map_eq_none_iff] at hhere'
      rw [hhere']
    · cases hwalk
    · next inside hinside =>
      have hhere : t.surface here = some none := Directory.surface_eq_directory_iff.2 ⟨_, hinside⟩
      obtain ⟨inside', hinside'⟩ := Directory.surface_eq_directory_iff.1 (h.agree.directory hhere)
      simp only [hinside', Bool.false_and, Bool.false_eq_true, if_false] at hwalk ⊢
      split at hwalk
      · next hstays => rw [if_pos hstays]; exact ih hwalk
      next hstays =>
      rw [if_neg hstays]
      split at hwalk
      · next hup => rw [if_pos hup]; exact ih hwalk
      next hup =>
      rw [if_neg hup]
      have hname : t.surface (here ++ [step]) = (inside.get? step).map Entry.surface :=
        Directory.surface_concat hinside step
      have hname' : u.surface (here ++ [step]) = (inside'.get? step).map Entry.surface :=
        Directory.surface_concat hinside' step
      split at hwalk
      · -- the walk goes on from a directory, since it does not end and no file stops it
        next hin =>
        have hdir : t.surface (here ++ [step]) = some none := by
          cases rest with
          | nil => rw [walk] at hwalk; cases hwalk
          | cons step' rest =>
            rw [walk_cons h.linkless] at hwalk
            split at hwalk
            · next hnone =>
              rw [Directory.at?_concat hinside] at hnone
              rw [hnone] at hin
              cases hin
            · cases hwalk
            · next below hbelow => exact Directory.surface_eq_directory_iff.2 ⟨_, hbelow⟩
        rw [h.agree.directory hdir] at hname'
        have hin' : (inside'.get? step).isSome := by
          rw [← Option.isSome_map (f := Entry.surface), ← hname']
          rfl
        rw [if_pos hin']
        exact ih hwalk
      · next hin =>
        rw [Option.not_isSome_iff_eq_none] at hin
        rw [hin, Option.map_none] at hname
        rw [h.surface _ (h.not_mem_of_none hname), hname, eq_comm, Option.map_eq_none_iff] at hname'
        rw [hname']
        rfl

end SameBut

/-- A free name in a directory can be created there. -/
theorem create_of_steps (hsteps : p.steps = front ++ name :: back)
    (hback : ∀ step ∈ back, step = "") (hname : IsEntryName name)
    (hwalk : walk t.root false linkLimit (start t.home p) front = .ok here)
    (hhere : t.surface here = some none) (hfree : t.surface (here ++ [name]) = none) :
    t.create p (.directory .empty) = .ok (t.put (here ++ [name]) (.directory .empty)) := by
  obtain ⟨inside, hinside⟩ := Directory.surface_eq_directory_iff.1 hhere
  have hreverse : p.steps.reverse.dropWhile String.isEmpty = name :: front.reverse := by
    have hempty : ∀ step ∈ back.reverse, step.isEmpty = true := fun step hstep => by
      simp [hback step (List.mem_reverse.1 hstep)]
    rw [hsteps, List.reverse_append, List.reverse_cons, List.append_assoc,
      List.dropWhile_append_of_pos hempty, List.singleton_append, List.dropWhile_cons_of_neg]
    simp [hname.1]
  have hin : inside.get? name = none := by
    rw [surface, Directory.surface_concat hinside, Option.map_eq_none_iff] at hfree
    exact hfree
  have htaken : ¬(name = "." ∨ name = ".." ∨ (inside.get? name).isSome = true) := by
    rw [hin]
    rintro (hdot | hup | hin)
    · exact hname.2.1 hdot
    · exact hname.2.2.1 hup
    · cases hin
  unfold create
  rw [hreverse]
  simp only [List.reverse_reverse, hwalk, bind, Except.bind, hinside, if_neg htaken]

namespace SameBut

theorem makeDirectory (h : SameBut gone t u) (hmake : t.makeDirectory p = .ok s) :
    ∃ v, u.makeDirectory p = .ok v ∧ SameBut gone s v := by
  unfold FileTree.makeDirectory at hmake
  split at hmake
  · split at hmake
    · next hdir =>
      cases hmake
      exact ⟨u, makeDirectory_of_isDirectory h.linkless' (h.agree.isDirectory hdir), h⟩
    · cases hmake
  · obtain ⟨front, name, back, inside, hsteps, hback, hname, here, hwalk, hinside, hin, rfl⟩ :=
      exists_of_create hmake
    have hhere : t.surface here = some none := Directory.surface_eq_directory_iff.2 ⟨_, hinside⟩
    have hfree : t.surface (here ++ [name]) = none := by
      rw [FileTree.surface, Directory.surface_concat hinside, hin]
      rfl
    have hhere' := h.agree.directory hhere
    have hfree' : u.surface (here ++ [name]) = none := by
      rw [h.surface _ (h.not_mem_of_none hfree), hfree]
    have hwalk' : FileTree.walk u.root false linkLimit (start u.home p) front = .ok here := by
      rw [h.home]
      exact h.agree.walk hwalk (by rw [hhere']; rfl)
    have hcreate := create_of_steps hsteps hback hname hwalk' hhere' hfree'
    refine ⟨_, by rw [FileTree.makeDirectory, hcreate], ?_⟩
    obtain ⟨inside', hinside'⟩ := Directory.surface_eq_directory_iff.1 hhere'
    have hin' : inside'.get? name = none := by
      rw [FileTree.surface, Directory.surface_concat hinside', Option.map_eq_none_iff] at hfree'
      exact hfree'
    -- both trees show the new directory and nothing else that is new
    have hput : ∀ there, (t.put (here ++ [name]) (.directory .empty)).surface there =
        if there = here ++ [name] then some none else t.surface there :=
      Directory.surface_put hinside (by simp [hin]) (by rintro below ⟨⟩; rfl)
    have hput' : ∀ there, (u.put (here ++ [name]) (.directory .empty)).surface there =
        if there = here ++ [name] then some none else u.surface there :=
      Directory.surface_put hinside' (by simp [hin']) (by rintro below ⟨⟩; rfl)
    have hne : ∀ there ∈ gone, there ≠ here ++ [name] := fun there hthere hsame =>
      h.not_mem_of_none hfree (hsame ▸ hthere)
    refine ⟨isLinkless_put h.linkless rfl _, isLinkless_put h.linkless' rfl _, h.home,
      h.home_not_mem, fun there hthere => ?_, fun there hthere => ?_, fun there hthere => ?_⟩
    · rw [hput, hput', h.surface there hthere]
    · rw [hput, if_neg (hne there hthere)]
      exact h.file there hthere
    · rw [hput', if_neg (hne there hthere)]
      exact h.free there hthere

theorem makeDirectory_notFound (h : SameBut gone t u)
    (hmake : t.makeDirectory p = .error .notFound) : u.makeDirectory p = .error .notFound := by
  have hcreate : t.create p (.directory .empty) = .error .notFound := by
    unfold FileTree.makeDirectory at hmake
    split at hmake
    · split at hmake <;> cases hmake
    · exact hmake
  suffices hcreate' : u.create p (.directory .empty) = .error .notFound by
    rw [FileTree.makeDirectory, hcreate']
  unfold create at hcreate ⊢
  split at hcreate
  · exact hcreate
  · next name above hsteps =>
    cases hwalk : FileTree.walk t.root false linkLimit (start t.home p) above.reverse with
    | error e =>
      rw [hwalk] at hcreate
      cases hcreate
      rw [h.home, h.walk_notFound hwalk]
      rfl
    | ok here =>
      rw [hwalk] at hcreate
      simp only [bind, Except.bind] at hcreate
      split at hcreate
      · split at hcreate <;> cases hcreate
      · cases hcreate

theorem makeLineage (h : SameBut gone t u) (hmake : t.makeLineage l = (.ok (), s)) :
    ∃ v, u.makeLineage l = (.ok (), v) ∧ SameBut gone s v := by
  induction l generalizing t u s with
  | nil =>
    cases hmake
    exact ⟨u, rfl, h⟩
  | cons p l ih =>
    rw [FileTree.makeLineage] at hmake
    split at hmake
    · next hp =>
      split at hmake
      · next t₁ hl =>
        obtain ⟨u₁, hu₁, hsame⟩ := ih h hl
        cases hlast : t₁.makeDirectory p with
        | error e => rw [hlast] at hmake; cases hmake
        | ok s' =>
          rw [hlast] at hmake
          cases hmake
          obtain ⟨v, hv, hsame'⟩ := hsame.makeDirectory hlast
          refine ⟨v, ?_, hsame'⟩
          rw [FileTree.makeLineage, h.makeDirectory_notFound hp, hu₁]
          dsimp only
          rw [hv]
          rfl
      · next hfailed => exact absurd hmake (hfailed s)
    · cases hp : t.makeDirectory p with
      | error e => rw [hp] at hmake; cases hmake
      | ok s' =>
        rw [hp] at hmake
        cases hmake
        obtain ⟨v, hv, hsame⟩ := h.makeDirectory hp
        refine ⟨v, ?_, hsame⟩
        rw [FileTree.makeLineage, hv]
        rfl

/-- Directories that can be made in a tree can be made in one without some files. -/
theorem makeDirectories (h : SameBut gone t u) (hmake : t.makeDirectories output = (.ok (), s)) :
    ∃ v, u.makeDirectories output = (.ok (), v) ∧ SameBut gone s v :=
  h.makeLineage hmake

theorem start_not_mem (h : SameBut gone t u) (p : Path) : FileTree.start t.home p ∉ gone := by
  unfold FileTree.start
  split
  · exact h.not_mem_of_directory (Directory.surface_nil _)
  · exact h.home_not_mem

/-- The output directory is found in both trees at one location, or in none of them. -/
theorem locate_output (h : SameBut gone s v) (ht : t.IsLinkless)
    (hmake : t.makeDirectories output = (.ok (), s)) : v.locate output = s.locate output := by
  rcases lineage_cases output with ⟨-, hstays⟩ | ⟨l, hl⟩
  · have hstart := h.surface _ (h.start_not_mem output)
    rw [FileTree.surface, FileTree.surface] at hstart
    rw [locate, locate, follow, follow, h.home, walk_stays h.linkless' (steps_ne_nil _) hstays,
      walk_stays h.linkless (steps_ne_nil _) hstays, hstart]
  · obtain ⟨here, hlocate, hhere⟩ := isDirectory_iff.1
      (isDirectory_of_makeDirectories ht hmake (hl ▸ List.cons_ne_nil output l))
    rw [hlocate, h.agree.locate_of_not hlocate (h.not_mem_of_directory hhere)]

/-- A source whose file is in both trees is compiled to the same. -/
theorem compileFile (h : SameBut gone s v) (houtput : v.locate output = s.locate output)
    (hsource : s.locate source = .ok here) (hhere : here ∉ gone) :
    v.compileFile source output = s.compileFile source output := by
  rw [FileTree.compileFile, FileTree.compileFile, h.agree.read hsource hhere, includePath,
    includePath, houtput, hsource, h.agree.locate_of_not hsource hhere]

end SameBut

/-! ### Leaving sources out -/

section

variable {keep : Path → Bool}

/-- Sources that fail can be left out, and nothing else is compiled. -/
theorem headersOf_filter
    (hkept : ∀ source ∈ found, keep source = true →
      v.compileFile source output = s.compileFile source output)
    (hfail : ∀ source ∈ found, keep source = false → ∃ e, s.compileFile source output = .error e) :
    v.headersOf output (found.filter keep) = s.headersOf output found ∧
      v.failuresOf output (found.filter keep) =
        (s.failuresOf output found).filter fun failure => keep failure.1 := by
  induction found with
  | nil => exact ⟨rfl, rfl⟩
  | cons source found ih =>
    obtain ⟨hheaders, hfailures⟩ := ih (fun p hp => hkept p (List.mem_cons_of_mem source hp))
      fun p hp => hfail p (List.mem_cons_of_mem source hp)
    cases hkeep : keep source with
    | false =>
      obtain ⟨e, he⟩ := hfail source List.mem_cons_self hkeep
      rw [List.filter_cons_of_neg (by simp [hkeep]), headersOf_cons_error he,
        failuresOf_cons_error he, List.filter_cons_of_neg (by simp [hkeep])]
      exact ⟨hheaders, hfailures⟩
    | true =>
      have hsame := hkept source List.mem_cons_self hkeep
      rw [List.filter_cons_of_pos hkeep]
      cases he : s.compileFile source output with
      | error e =>
        rw [he] at hsame
        rw [headersOf_cons_error he, headersOf_cons_error hsame, failuresOf_cons_error he,
          failuresOf_cons_error hsame, List.filter_cons_of_pos (by simp [hkeep]), hfailures]
        exact ⟨hheaders, rfl⟩
      | ok headers =>
        rw [he] at hsame
        rw [headersOf_cons_ok he, headersOf_cons_ok hsame, failuresOf_cons_ok he,
          failuresOf_cons_ok hsame, hheaders]
        exact ⟨rfl, hfailures⟩

end

theorem isFiled_of_mem_headersOf {u : GeneratedHeader} (hu : u ∈ t.headersOf output sources) :
    u.IsFiled := by
  obtain ⟨source, -, hmem⟩ := List.mem_flatMap.1 hu
  cases hcompile : t.compileFile source output with
  | error e => rw [hcompile] at hmem; cases hmem
  | ok headers =>
    rw [hcompile] at hmem
    exact isFiled_of_compileFile hcompile hmem

/-- A source with an enum that is not found fails, whatever else it declares. -/
theorem exists_error_of_entities (output : Path) {text : String} {e : UnresolvedEnum}
    (hread : t.read source = .ok text) (h : .error e ∈ entities text.toList source.text) :
    ∃ e, t.compileFile source output = .error e := by
  obtain ⟨c, hc, he⟩ := List.mem_map.1 h
  unfold compileFile
  rw [hread]
  cases t.includePath source output with
  | error e => exact ⟨_, rfl⟩
  | ok includePath =>
    cases hcompile : compile text.toList source.text ⟨includePath, source.fileName?.getD ""⟩ with
    | error err => exact ⟨.unresolved err, by simp [Except.mapError, bind, Except.bind, hcompile]⟩
    | ok headers =>
      obtain ⟨u, -, e', he', -⟩ := exists_of_mem_forall₂ (compile_eq_ok_iff.1 hcompile) hc
      rw [he] at he'
      cases he'

/-! ### Runs -/

variable {r : Report}

/-- **All that a run changes**: what is at a location was there before, or it is a file that the run
reports as written, or a directory that leads to the output. -/
theorem surface_of_generate (ht : t.IsLinkless) (h : t.generate sources output = (.ok r, t'))
    (here : Location) : t'.surface here = t.surface here ∨
      (∃ path ∈ r.written, t'.locate path = .ok here) ∨
      t.surface here = none ∧ t'.surface here = some none ∧
        ∃ p ∈ output.lineage, t'.locate p = .ok here := by
  have hgrown := grown_makeDirectories ht output
  have hwrite := writeHeaders_of_generate h
  have hnames : ∀ u ∈ t.runHeaders sources output, IsEntryName u.fileName := fun u hu =>
    (isFiled_of_mem_runHeaders hu).2
  rw [written_of_generate h] at hwrite ⊢
  generalize (t.makeDirectories output).2 = s at hgrown hwrite
  by_cases hne : t.runHeaders sources output = []
  · rw [hne] at hwrite
    cases hwrite
    exact (hgrown.surface here).imp_right .inr
  · obtain ⟨base, inside, hbase, hinside⟩ :=
      exists_landing_of_writeHeaders hgrown.linkless hnames hne hwrite
    have hdir : s.surface base = some none := Directory.surface_eq_directory_iff.2 ⟨_, hinside⟩
    have hwrote := wrote_of_writeHeaders hgrown.linkless hnames hbase hdir hwrite
    rcases hwrote.surface_eq here with hsame | ⟨u, hu, rfl, -⟩
    · rcases hgrown.surface here with hsame' | ⟨hnone, hnew, p, hp, hlocate⟩
      · exact .inl (hsame.trans hsame')
      · exact .inr (.inr ⟨hnone, hsame.trans hnew, p, hp, hwrote.locate hgrown.linkless hlocate⟩)
    · exact .inr (.inl ⟨_, List.mem_map_of_mem hu,
        hwrote.locate_join hgrown.linkless hbase hdir hu (hnames u hu)⟩)

theorem outcome_eq_ok_iff : outcome s output found t = (.ok r, t') ↔
    writeHeaders output (s.headersOf output found) t = (.ok r.written, t') ∧
      r.failed = s.failuresOf output found := by
  unfold outcome
  constructor
  · intro h
    cases hwrite : writeHeaders output (s.headersOf output found) t with
    | mk paths left =>
      rw [hwrite] at h
      cases paths with
      | error e => cases h
      | ok paths => cases h; exact ⟨rfl, rfl⟩
  · rintro ⟨hwrite, hfailed⟩
    rw [hwrite, ← hfailed]
    rfl

/-- No source leads to a file that was written. -/
def IsApart (t : FileTree) (found written : List Path) : Prop :=
  ∀ source ∈ found, ∀ path ∈ written, t.locate source ≠ t.locate path

/-- Sources that are none of the written files are compiled as they were before the run. -/
theorem outcome_of_isApart (hs : s.IsLinkless) (horderly : s.IsOrderly)
    (hfound : s.collect sources = .ok found) (hbase : s.locate output = .ok base)
    (hdir : s.surface base = some none) (h : compileFiles output found s = (.ok r, t'))
    (hapart : t'.IsApart found r.written) : outcome s output found s = (.ok r, t') ∧
      Wrote base (s.headersOf output found) s t' ∧
      ∀ source ∈ found, ∃ here, s.locate source = .ok here ∧
        ∀ u ∈ s.headersOf output found, here ≠ base ++ [u.fileName] := by
  have hwrite := writeHeaders_of_compileFiles h
  have hnames : ∀ u ∈ compiledHeaders output found s, IsEntryName u.fileName := fun u hu =>
    (isFiled_of_mem_compiledHeaders hu).2
  have hlanding := (locate_eq_ok_iff.1 hbase).2
  have hwrote := wrote_of_writeHeaders hs hnames hlanding hdir hwrite
  have hsources : ∀ source ∈ found, ∃ here, s.locate source = .ok here ∧
      ∀ u ∈ compiledHeaders output found s, here ≠ base ++ [u.fileName] := by
    intro source hsource
    obtain ⟨above, last, content, hlocate, -, -⟩ := exists_of_mem_collect hs horderly hfound hsource
    refine ⟨_, hlocate, fun u hu hsame => ?_⟩
    have hpath : output.join u.fileName ∈ r.written := by
      rw [paths_of_writeHeaders hwrite]
      exact List.mem_map_of_mem hu
    refine hapart source hsource _ hpath ?_
    rw [hwrote.locate hs hlocate, hwrote.locate_join hs hlanding hdir hu (hnames u hu), hsame]
  obtain ⟨hrun, hheaders⟩ := compileFiles_eq (N := fun name =>
      ∃ u ∈ compiledHeaders output found s, u.fileName = name) hbase hdir (.refl_isTarget hs _ _)
    (fun source hsource => by
      obtain ⟨here, hlocate, hhere⟩ := hsources source hsource
      refine ⟨here, hlocate, ?_⟩
      rintro ⟨⟨name, ⟨u, hu, rfl⟩, hsame⟩, -⟩
      exact hhere u hu hsame)
    fun u hu _ => ⟨u, hu, rfl⟩
  rw [hheaders] at hwrote hsources
  exact ⟨hrun ▸ h, hwrote, hsources⟩

/-- Where nothing else is different, headers that are written in both trees are the same. -/
theorem SameBut.wrote {headers : List GeneratedHeader} (h : SameBut gone s v)
    (hwrote : Wrote base headers s t') (hwrote' : Wrote base headers v u) : SameBut gone t' u where
  linkless := hwrote.linkless
  linkless' := hwrote'.linkless
  home := by rw [hwrote'.home, hwrote.home, h.home]
  home_not_mem := hwrote.home ▸ h.home_not_mem
  surface := fun here hhere => by rw [hwrote.surface, hwrote'.surface, h.surface here hhere]
  file := fun here hhere => by
    rcases hwrote.surface_eq here with hsame | ⟨w, -, -, hnew⟩
    · rw [hsame]
      exact h.file here hhere
    · exact ⟨_, hnew⟩
  free := fun here hhere hdir => h.free here hhere (hwrote'.directory_iff.1 hdir)

/-- **A run without some of the sources that fail** writes the same, and reports the other
failures. -/
theorem compileFiles_filter {keep : Path → Bool} (h : SameBut gone s v) (ht : t.IsLinkless)
    (horderly : s.IsOrderly) (hmake : t.makeDirectories output = (.ok (), s))
    (hfound : s.collect sources = .ok found) (hrun : compileFiles output found s = (.ok r, t'))
    (hapart : t'.IsApart found r.written)
    (hkept : ∀ source ∈ found, keep source = true → ∀ here ∈ gone, s.locate source ≠ .ok here)
    (hfail : ∀ source ∈ found, keep source = false → ∃ e, s.compileFile source output = .error e) :
    ∃ u, compileFiles output (found.filter keep) v =
        (.ok ⟨r.written, r.failed.filter fun failure => keep failure.1⟩, u) ∧
      SameBut gone t' u := by
  have houtput := h.locate_output ht hmake
  have hlocate : ∀ source ∈ found, ∃ here, s.locate source = .ok here := fun source hsource => by
    obtain ⟨above, last, content, hlocate, -, -⟩ :=
      exists_of_mem_collect h.linkless horderly hfound hsource
    exact ⟨_, hlocate⟩
  obtain ⟨hheaders, hfailures⟩ := headersOf_filter (v := v) (fun source hsource hkeep => by
    obtain ⟨here, hhere⟩ := hlocate source hsource
    have hnot : here ∉ gone := fun hgone => hkept source hsource hkeep here hgone hhere
    exact h.compileFile houtput hhere hnot) hfail
  cases hbase : s.locate output with
  | error e =>
    obtain ⟨hrun', hnone⟩ := compileFiles_of_error hbase found
    rw [hrun', outcome_eq_ok_iff, hnone] at hrun
    obtain ⟨hwrite, hfailed⟩ := hrun
    obtain ⟨hwritten, rfl⟩ := Prod.mk.inj hwrite
    refine ⟨v, ?_, h⟩
    obtain ⟨hrun'', -⟩ := compileFiles_of_error (houtput.trans hbase) (found.filter keep)
    rw [hrun'', outcome_eq_ok_iff, hheaders, hnone, hfailures, hfailed]
    exact ⟨congrArg (·, v) hwritten, rfl⟩
  | ok base =>
    have hdir := surface_of_makeDirectories ht hmake hbase
    obtain ⟨hout, hwrote, hsources⟩ :=
      outcome_of_isApart h.linkless horderly hfound hbase hdir hrun hapart
    obtain ⟨hwrite, hfailed⟩ := outcome_eq_ok_iff.1 hout
    have hnames : ∀ u ∈ s.headersOf output found, IsEntryName u.fileName := fun u hu =>
      (isFiled_of_mem_headersOf hu).2
    have hbase' := houtput.trans hbase
    have hdir' := h.agree.directory hdir
    have hfree : ∀ u ∈ s.headersOf output found, v.surface (base ++ [u.fileName]) ≠ some none := by
      intro u hu
      by_cases hgone : base ++ [u.fileName] ∈ gone
      · exact h.free _ hgone
      · rw [h.surface _ hgone]
        exact hwrote.free u hu
    obtain ⟨u, hwrite', hwrote'⟩ := writeHeaders_of_free h.linkless' hnames
      (locate_eq_ok_iff.1 hbase').2 hdir' hfree
    have hplaces : ∀ source ∈ found.filter keep, ∃ here, v.locate source = .ok here ∧
        ¬IsTarget (fun name => ∃ u ∈ s.headersOf output found, u.fileName = name) base v here := by
      intro source hsource
      obtain ⟨hmem, hkeep⟩ := List.mem_filter.1 hsource
      obtain ⟨here, hhere, hnot⟩ := hsources source hmem
      have hgone : here ∉ gone := fun hgone => hkept source hmem hkeep here hgone hhere
      refine ⟨here, h.agree.locate_of_not hhere hgone, ?_⟩
      rintro ⟨⟨name, ⟨u, hu, rfl⟩, hsame⟩, -⟩
      exact hnot u hu hsame
    obtain ⟨hrun', -⟩ := compileFiles_eq hbase' hdir' (.refl_isTarget h.linkless' _ _) hplaces
      fun u _ hu => ⟨u, hheaders ▸ hu, rfl⟩
    refine ⟨u, ?_, h.wrote hwrote hwrote'⟩
    rw [hrun', outcome_eq_ok_iff, hheaders, hfailures, hfailed, hwrite',
      paths_of_writeHeaders hwrite]
    exact ⟨rfl, rfl⟩

theorem mem_failuresOf_iff {e : Failure} : (source, e) ∈ t.failuresOf output sources ↔
    source ∈ sources ∧ t.compileFile source output = .error e := by
  rw [failuresOf, List.mem_filterMap]
  constructor
  · rintro ⟨p, hp, hfailure⟩
    cases hcompile : t.compileFile p output with
    | ok headers => rw [hcompile] at hfailure; cases hfailure
    | error e' =>
      rw [hcompile] at hfailure
      cases hfailure
      exact ⟨hp, hcompile⟩
  · rintro ⟨hsource, he⟩
    exact ⟨source, hsource, by rw [he]⟩

/-! ### A header with one enum that is not found -/

/-- A header with two classes.  The second one has an enum without pairs. -/
def jobSource : String :=
  "// @relais table=owners\nstruct Owner \x7b\n    int64_t id;\n\x7d;\n" ++
    "// @relais table=jobs\nstruct Job \x7b\n    int64_t id;\n" ++
    "    State state; // @relais enum\n\x7d;\n"

/-- The tree with this header in front of the one with the users. -/
def jobsTree : FileTree :=
  { usersTree with root := .leaf "Job.h" (.file (Text.encode jobSource)) usersTree.root }

theorem isLinkless_jobs : jobsTree.IsLinkless := rfl

theorem isEntryName_job : IsEntryName "Job.h" := ⟨by decide, by decide, by decide, by decide⟩

theorem isOrderly_jobs : jobsTree.IsOrderly :=
  ⟨isEntryName_job, by decide, isOrderly_oneFile _⟩

/-- The trees with and without the header of the jobs. -/
theorem sameBut_jobs : SameBut [["Job.h"]] jobsTree usersTree where
  linkless := isLinkless_jobs
  linkless' := isLinkless_oneFile _
  home := rfl
  home_not_mem := by decide
  surface := fun here hhere => by
    cases here with
    | nil => rfl
    | cons name names =>
      by_cases hname : "Job.h" = name
      · subst hname
        have hne : names ≠ [] := by
          rintro rfl
          exact hhere (List.mem_singleton_self _)
        obtain ⟨name, names, rfl⟩ := List.exists_cons_of_ne_nil hne
        rfl
      · exact (Directory.surface_cons_of_ne (e := .leaf (.file _)) hname names).symm
  file := fun here hhere => by
    rw [List.mem_singleton.1 hhere]
    exact ⟨_, rfl⟩
  free := fun here hhere => by
    rw [List.mem_singleton.1 hhere]
    exact nofun

theorem locate_job : jobsTree.locate ⟨"Job.h"⟩ = .ok ["Job.h"] := by
  have hsteps : (⟨"Job.h"⟩ : Path).steps = ["Job.h"] := by decide
  have hroot : jobsTree.root.at? [] = some (.directory jobsTree.root) := rfl
  rw [locate, follow, hsteps]
  exact walk_name isLinkless_jobs hroot isEntryName_job

theorem locate_user_jobs : jobsTree.locate ⟨"User.h"⟩ = .ok ["User.h"] :=
  sameBut_jobs.agree_symm.locate_of_not (locate_oneFile _) (by decide)

theorem makeDirectories_jobs : jobsTree.makeDirectories ⟨"."⟩ = (.ok (), jobsTree) := by
  have hnames : (⟨"."⟩ : Path).lineage = [] := by decide
  rw [makeDirectories, hnames]
  rfl

theorem collect_jobs :
    jobsTree.collect [⟨"Job.h"⟩, ⟨"User.h"⟩] = .ok [⟨"Job.h"⟩, ⟨"User.h"⟩] := by
  have hjob : jobsTree.sourcesAt ⟨"Job.h"⟩ = .ok [⟨"Job.h"⟩] :=
    if_pos (isFile_iff.2 ⟨_, _, locate_job, rfl⟩)
  have huser : jobsTree.sourcesAt ⟨"User.h"⟩ = .ok [⟨"User.h"⟩] :=
    if_pos (isFile_iff.2 ⟨_, _, locate_user_jobs, rfl⟩)
  exact collect_eq_ok_iff.2 ⟨_, .cons hjob (.cons huser .nil), rfl⟩

theorem read_job : jobsTree.read ⟨"Job.h"⟩ = .ok jobSource :=
  read_of_locate locate_job (by simp [jobsTree, Directory.at?, Directory.get?])

theorem entities_job : .error ⟨"state", "State", "Job.h"⟩ ∈ entities jobSource.toList "Job.h" := by
  have hsource : jobSource.toList = _ :=
    Text.toList_append_of_eq
      (Text.toList_append_of_eq String.toList_ofList String.toList_ofList)
      String.toList_ofList
  rw [hsource]
  decide +kernel

theorem fileName_of_mem_usersHeaders {u : GeneratedHeader} (hu : u ∈ usersHeaders) :
    u.fileName = "UserWrapper.h" ∨ u.fileName = "GroupWrapper.h" := by
  have hnames : usersHeaders.map GeneratedHeader.fileName =
      ["UserWrapper.h", "GroupWrapper.h", "UserWrapper.h"] := rfl
  have hmem := List.mem_map_of_mem (f := GeneratedHeader.fileName) hu
  rw [hnames] at hmem
  simp only [List.mem_cons, List.not_mem_nil, or_false] at hmem
  tauto

/-- The run writes the headers for the users, and fails for the header of the jobs. -/
theorem exists_generate_jobs : ∃ e t', jobsTree.generate [⟨"Job.h"⟩, ⟨"User.h"⟩] ⟨"."⟩ =
      (.ok ⟨[⟨"./UserWrapper.h"⟩, ⟨"./GroupWrapper.h"⟩, ⟨"./UserWrapper.h"⟩],
        [(⟨"Job.h"⟩, e)]⟩, t') ∧
    t'.IsApart [⟨"Job.h"⟩, ⟨"User.h"⟩]
      [⟨"./UserWrapper.h"⟩, ⟨"./GroupWrapper.h"⟩, ⟨"./UserWrapper.h"⟩] := by
  obtain ⟨e, hjob⟩ := exists_error_of_entities ⟨"."⟩ read_job entities_job
  have houtput := sameBut_jobs.locate_output isLinkless_jobs makeDirectories_jobs
  have huser : jobsTree.compileFile ⟨"User.h"⟩ ⟨"."⟩ = .ok usersHeaders :=
    (sameBut_jobs.compileFile houtput locate_user_jobs (by decide)).symm.trans compileFile_users
  have hlanding := (locate_eq_ok_iff.1 (houtput.symm.trans (locate_home_oneFile _))).2
  have hnames : ∀ u ∈ usersHeaders, IsEntryName u.fileName := fun u hu =>
    (isFiled_of_mem_compile compile_users hu).2
  have hfree : ∀ u ∈ usersHeaders, jobsTree.surface ([] ++ [u.fileName]) ≠ some none := by
    intro u hu
    rcases fileName_of_mem_usersHeaders hu with hname | hname <;> rw [hname] <;> exact nofun
  obtain ⟨t', hwrite, hwrote⟩ := writeHeaders_of_free isLinkless_jobs hnames hlanding rfl hfree
  have hpaths : usersHeaders.map (fun u => (⟨"."⟩ : Path).join u.fileName) =
      [⟨"./UserWrapper.h"⟩, ⟨"./GroupWrapper.h"⟩, ⟨"./UserWrapper.h"⟩] := by
    simp [usersHeaders, join_userHeader, headerFile]
  refine ⟨e, t', ?_, fun source hsource path hpath hsame => ?_⟩
  · rw [generate_eq_of_collect makeDirectories_jobs collect_jobs, compileFiles, hjob, compileFiles,
      huser, ← hpaths]
    dsimp only
    rw [hwrite]
    rfl
  · rw [← hpaths] at hpath
    obtain ⟨u, hu, rfl⟩ := List.mem_map.1 hpath
    rw [hwrote.locate_join isLinkless_jobs hlanding rfl hu (hnames u hu)] at hsame
    have hlocate : t'.locate source = .ok ["Job.h"] ∨ t'.locate source = .ok ["User.h"] := by
      simp only [List.mem_cons, List.not_mem_nil, or_false] at hsource
      rcases hsource with rfl | rfl
      · exact .inl (hwrote.locate isLinkless_jobs locate_job)
      · exact .inr (hwrote.locate isLinkless_jobs locate_user_jobs)
    rcases hlocate with hlocate | hlocate <;>
      rcases fileName_of_mem_usersHeaders hu with hname | hname <;>
      rw [hlocate, hname] at hsame <;> exact absurd hsame (by decide)

/-- **A source that fails changes nothing for the others.**  A run that gives a report has made the
directories for its output, has found its sources, and has changed nothing else but the files that
it reports as written.  When no source is one of these, the report is what the sources give in the
tree in which they are found: it names those that cannot be compiled, such as one with an enum that
is not found, each with its failure, and the files of all headers of the others, both in order.  A
run that leaves out sources that fail, in a tree where their files may be gone, writes the same
headers, and fails for the sources only that are still there. -/
theorem isolated_failures (ht : t.IsLinkless) (horderly : t.IsOrderly)
    (h : t.generate sources output = (.ok r, t')) :
    ∃ s found, t.makeDirectories output = (.ok (), s) ∧ s.collect sources = .ok found ∧
    (∀ here, t'.surface here = t.surface here ∨ (∃ path ∈ r.written, t'.locate path = .ok here) ∨
      t.surface here = none ∧ t'.surface here = some none ∧
        ∃ p ∈ output.lineage, t'.locate p = .ok here) ∧
    (t'.IsApart found r.written →
      r.failed = s.failuresOf output found ∧
      r.written = (s.headersOf output found).map (fun u => output.join u.fileName) ∧
      (∀ source ∈ found, ∀ text e, s.read source = .ok text →
        .error e ∈ entities text.toList source.text → ∃ e, (source, e) ∈ r.failed) ∧
      ∀ (gone : List Location) (keep : Path → Bool) (u : FileTree) (others : List Path),
        SameBut gone t u → (u.makeDirectories output).2.collect others = .ok (found.filter keep) →
        (∀ source ∈ found, keep source = true → ∀ here ∈ gone, s.locate source ≠ .ok here) →
        (∀ source ∈ found, keep source = false → ∃ e, (source, e) ∈ r.failed) →
        ∃ u', u.generate others output =
            (.ok ⟨r.written, r.failed.filter fun failure => keep failure.1⟩, u') ∧
          SameBut gone t' u') := by
  have hgrown := grown_makeDirectories ht output
  cases hmake : t.makeDirectories output with
  | mk made s =>
  cases made with
  | error e => rw [generate, hmake] at h; cases h
  | ok _ =>
  cases hfound : s.collect sources with
  | error e =>
    rw [generate, hmake] at h
    dsimp only at h
    rw [hfound] at h
    cases h
  | ok found =>
  rw [hmake] at hgrown
  have hs : s.IsLinkless := hgrown.linkless
  have hsorderly : s.IsOrderly := hgrown.orderly horderly
  refine ⟨s, found, rfl, hfound, surface_of_generate ht h, fun hapart => ?_⟩
  have hrun := h
  rw [generate_eq_of_collect hmake hfound] at hrun
  have hout : outcome s output found s = (.ok r, t') := by
    cases hbase : s.locate output with
    | error e => rw [← (compileFiles_of_error hbase found).1, hrun]
    | ok base =>
      have hdir := surface_of_makeDirectories ht hmake hbase
      exact (outcome_of_isApart hs hsorderly hfound hbase hdir hrun hapart).1
  obtain ⟨hwrite, hfailed⟩ := outcome_eq_ok_iff.1 hout
  refine ⟨hfailed, paths_of_writeHeaders hwrite, fun source hsource text e hread he => ?_,
    fun gone keep u others hsame hothers hkept hfail => ?_⟩
  · obtain ⟨e', he'⟩ := exists_error_of_entities output hread he
    exact ⟨e', hfailed ▸ mem_failuresOf_iff.2 ⟨hsource, he'⟩⟩
  · obtain ⟨v, hv, hbut⟩ := hsame.makeDirectories hmake
    rw [hv] at hothers
    rw [generate_eq_of_collect hv hothers]
    refine compileFiles_filter hbut ht hsorderly hmake hfound hrun hapart hkept
      fun source hsource hkeep => ?_
    obtain ⟨e, he⟩ := hfail source hsource hkeep
    exact ⟨e, (mem_failuresOf_iff.1 (hfailed ▸ he)).2⟩

theorem isolated_failures_jobs : ∃ r t' u' e,
    jobsTree.generate [⟨"Job.h"⟩, ⟨"User.h"⟩] ⟨"."⟩ = (.ok r, t') ∧
    r.written = [⟨"./UserWrapper.h"⟩, ⟨"./GroupWrapper.h"⟩, ⟨"./UserWrapper.h"⟩] ∧
    r.failed = [(⟨"Job.h"⟩, e)] ∧
    usersTree.generate [⟨"User.h"⟩] ⟨"."⟩ = (.ok ⟨r.written, []⟩, u') ∧
    SameBut [["Job.h"]] t' u' := by
  obtain ⟨e, t', hrun, hapart⟩ := exists_generate_jobs
  obtain ⟨s, found, hmake, hfound, -, hreport⟩ :=
    isolated_failures isLinkless_jobs isOrderly_jobs hrun
  cases hmake.symm.trans makeDirectories_jobs
  cases hfound.symm.trans collect_jobs
  obtain ⟨-, -, -, hothers⟩ := hreport hapart
  obtain ⟨u', hrun', hsame⟩ := hothers [["Job.h"]] (fun source => source ≠ ⟨"Job.h"⟩) usersTree
    [⟨"User.h"⟩] sameBut_jobs (by rw [makeDirectories_users]; exact collect_users)
    (by simp [locate_user_jobs]) (by simp)
  exact ⟨_, t', u', e, hrun, rfl, rfl, hrun', hsame⟩

end FileTree

end RowMapping
