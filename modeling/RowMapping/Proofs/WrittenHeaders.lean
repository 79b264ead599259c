import Mathlib.Data.List.Dedup
import RowMapping.Generate
import RowMapping.Proofs.Declared
import RowMapping.Proofs.EnumResolution
import RowMapping.Proofs.Linkless
import RowMapping.Proofs.Quoting
import RowMapping.Proofs.UntaggedText
/-!
# The headers that a run leaves

A run writes its headers one after the other into one directory, each into the file that is named
after its class.  Headers for classes of one name go into one file, whatever namespaces and whatever
sources the classes are from, and the last of them is left.

* `FileTree.runHeaders`: the headers that a run compiles, in order;
* `Directory.withHeaders`: a directory into which headers are written;
* `at?_of_writeHeaders`, `exists_writeHeaders`: what writing headers leaves, and when it succeeds;
* `writeHeaders_of_generate`: a run is one sequence of writes;
* `generate_leaves_last`: what a run leaves;
* `Mapping.table_eq_of_headerText_eq`: the text of a header tells the table;
* `exists_lost_header`: two classes of one name.
-/

namespace RowMapping

/-! ### The names of files -/

theorem Path.join_injective (p : Path) : Function.Injective p.join := by
  intro name name' h
  unfold Path.join at h
  split at h <;> simpa using h

/-- The file that the header for a class is written to. -/
def headerFile (className : String) : String := className ++ "Wrapper" ++ ".h"

theorem headerFile_injective : Function.Injective headerFile := by
  intro name name' h
  simpa [headerFile] using h

theorem isEntryName_headerFile {className : String}
    (h : ∀ c ∈ className.toList, Text.isNamePart c) :
    FileTree.IsEntryName (headerFile className) := by
  have htext : (headerFile className).toList = className.toList ++ "Wrapper.h".toList := by
    simp [headerFile]
  have hlast : 'h' ∈ (headerFile className).toList.getLast? := by
    rw [htext, List.getLast?_append_of_ne_nil _ (by decide)]
    decide
  refine ⟨?_, ?_, ?_, ?_⟩
  · intro hname
    rw [hname] at hlast
    exact absurd hlast (by decide)
  · intro hname
    rw [hname] at hlast
    exact absurd hlast (by decide)
  · intro hname
    rw [hname] at hlast
    exact absurd hlast (by decide)
  · rw [htext, List.mem_append]
    rintro (hslash | hslash)
    · exact absurd (h _ hslash) (by decide)
    · exact absurd hslash (by decide)

/-- Compiled headers are written to the files of their classes. -/
def GeneratedHeader.IsFiled (h : GeneratedHeader) : Prop :=
  h.fileName = headerFile h.className ∧ FileTree.IsEntryName h.fileName

theorem DeclaredClass.className_of_resolve {c : DeclaredClass} {source : List Char} {file : String}
    {e : Entity} (h : c.resolve source file = .ok e) : e.className = c.name := by
  unfold resolve at h
  simp only [bind, Except.bind] at h
  split at h
  · cases h
  · cases h
    rfl

theorem isFiled_of_mem_compile {source : List Char} {file : String} {names : SourceNames}
    {headers : List GeneratedHeader} (h : compile source file names = .ok headers)
    {u : GeneratedHeader} (hu : u ∈ headers) : u.IsFiled := by
  obtain ⟨c, hc, e, he, rfl⟩ := exists_of_mem_forall₂ (compile_eq_ok_iff.1 h).flip hu
  have hname := isEntryName_headerFile (isNamePart_of_className hc)
  rw [← DeclaredClass.className_of_resolve he] at hname
  exact ⟨rfl, hname⟩

/-! ### Writing headers into a directory -/

/-- A directory after headers have been written into it, one after the other. -/
def Directory.withHeaders (inside : Directory) (headers : List GeneratedHeader) : Directory :=
  headers.foldl (fun d u => d.insert u.fileName (.leaf (.file (Text.encode u.text)))) inside

namespace Directory

variable {inside : Directory} {headers before after : List GeneratedHeader} {u : GeneratedHeader}
  {name : String}

theorem get?_withHeaders_of_ne (h : ∀ v ∈ headers, v.fileName ≠ name) :
    (inside.withHeaders headers).get? name = inside.get? name := by
  induction headers generalizing inside with
  | nil => rfl
  | cons u headers ih =>
    have hu := h u List.mem_cons_self
    have hrest := fun v hv => h v (List.mem_cons_of_mem u hv)
    calc (inside.withHeaders (u :: headers)).get? name
        = (inside.insert u.fileName (.leaf (.file (Text.encode u.text)))).get? name := ih hrest
      _ = inside.get? name := by rw [get?_insert, if_neg hu]

/-- Of the headers for one file, the last one is left. -/
theorem get?_withHeaders_last (h : ∀ v ∈ after, v.fileName ≠ u.fileName) :
    (inside.withHeaders (before ++ u :: after)).get? u.fileName =
      some (.leaf (.file (Text.encode u.text))) := by
  have hsplit : inside.withHeaders (before ++ u :: after) =
      (((inside.withHeaders before).insert u.fileName
        (.leaf (.file (Text.encode u.text)))).withHeaders after) := by
    simp [withHeaders, List.foldl_append]
  rw [hsplit, get?_withHeaders_of_ne h, get?_insert, if_pos rfl]

/-- A file that a header is written to is there. -/
theorem isSome_get?_withHeaders
    (h : (inside.get? name).isSome ∨ ∃ v ∈ headers, v.fileName = name) :
    ((inside.withHeaders headers).get? name).isSome := by
  induction headers generalizing inside with
  | nil => simpa [withHeaders] using h
  | cons u headers ih =>
    change (((inside.insert u.fileName _).withHeaders headers).get? name).isSome
    refine ih ?_
    rw [get?_insert]
    by_cases hu : u.fileName = name
    · exact .inl (by rw [if_pos hu]; rfl)
    · rw [if_neg hu]
      simpa [hu] using h

end Directory

namespace FileTree

variable {t t' : FileTree} {output : Path} {headers : List GeneratedHeader} {paths : List Path}
  {here : Location} {inside : Directory}

theorem writeHeaders_cons_iff {u : GeneratedHeader} :
    writeHeaders output (u :: headers) t = (.ok paths, t') ↔
      ∃ s ps, t.write (output.join u.fileName) (Text.encode u.text) = .ok s ∧
        writeHeaders output headers s = (.ok ps, t') ∧ paths = output.join u.fileName :: ps := by
  rw [writeHeaders]
  cases t.write (output.join u.fileName) (Text.encode u.text) with
  | error e => exact ⟨nofun, fun ⟨_, _, h, _⟩ => nomatch h⟩
  | ok s =>
    constructor
    · intro h
      cases hrest : writeHeaders output headers s with
      | mk result s' =>
        simp only [hrest, Prod.mk.injEq] at h
        cases result with
        | error e => cases h.1
        | ok ps =>
          obtain ⟨hpaths, rfl⟩ := h
          cases hpaths
          exact ⟨s, ps, rfl, hrest, rfl⟩
    · rintro ⟨s', ps, hs, hps, rfl⟩
      cases hs
      simp only [hps]
      rfl

theorem writeHeaders_append {before after : List GeneratedHeader} {s : FileTree} {ps qs : List Path}
    (hbefore : writeHeaders output before t = (.ok ps, s))
    (hafter : writeHeaders output after s = (.ok qs, t')) :
    writeHeaders output (before ++ after) t = (.ok (ps ++ qs), t') := by
  induction before generalizing t ps with
  | nil =>
    cases hbefore
    exact hafter
  | cons u before ih =>
    obtain ⟨s', ps, hwrite, hrest, rfl⟩ := writeHeaders_cons_iff.1 hbefore
    exact writeHeaders_cons_iff.2 ⟨s', ps ++ qs, hwrite, ih hrest, rfl⟩

/-- The paths that are told are those of the headers. -/
theorem paths_of_writeHeaders (h : writeHeaders output headers t = (.ok paths, t')) :
    paths = headers.map fun u => output.join u.fileName := by
  induction headers generalizing t paths with
  | nil =>
    cases h
    rfl
  | cons u headers ih =>
    obtain ⟨s, ps, -, hrest, rfl⟩ := writeHeaders_cons_iff.1 h
    rw [ih hrest, List.map_cons]

/-- Headers that are written one after the other are in the directory then. -/
theorem at?_of_writeHeaders (ht : t.IsLinkless) (hnames : ∀ u ∈ headers, IsEntryName u.fileName)
    (hp : t.landing output = .ok here) (hdir : t.root.at? here = some (.directory inside))
    (h : writeHeaders output headers t = (.ok paths, t')) :
    t'.IsLinkless ∧ t'.landing output = .ok here ∧
      t'.root.at? here = some (.directory (inside.withHeaders headers)) := by
  induction headers generalizing t inside paths with
  | nil =>
    cases h
    exact ⟨ht, hp, hdir⟩
  | cons u headers ih =>
    obtain ⟨s, ps, hwrite, hrest, -⟩ := writeHeaders_cons_iff.1 h
    obtain ⟨here', inside', hp', hdir', hfree, rfl⟩ :=
      (write_join_iff ht (hnames u List.mem_cons_self)).1 hwrite
    cases hp.symm.trans hp'
    cases hdir.symm.trans hdir'
    have hput : (t.put (here ++ [u.fileName]) (.leaf (.file (Text.encode u.text)))).IsLinkless :=
      isLinkless_put ht rfl _
    -- the directory stays where it is, so that the next header goes into it too
    have hstay := walk_of_directories ht hput
      (fun _ _ hthere => Directory.at?_put_of_directory hdir hfree hthere) hp hdir
    exact ih hput (fun v hv => hnames v (List.mem_cons_of_mem u hv)) hstay
      (Directory.at?_put_above hdir u.fileName _) hrest

/-- Headers can be written into a directory unless another directory has the name of a file. -/
theorem exists_writeHeaders (ht : t.IsLinkless) (hnames : ∀ u ∈ headers, IsEntryName u.fileName)
    (hp : t.landing output = .ok here) (hdir : t.root.at? here = some (.directory inside))
    (hfree : ∀ u ∈ headers, ∀ below, inside.get? u.fileName ≠ some (.directory below)) :
    ∃ t', writeHeaders output headers t =
      (.ok (headers.map fun u => output.join u.fileName), t') := by
  induction headers generalizing t inside with
  | nil => exact ⟨t, rfl⟩
  | cons u headers ih =>
    have hname := hnames u List.mem_cons_self
    have hput := isLinkless_put ht (e := .leaf (.file (Text.encode u.text))) rfl
      (here ++ [u.fileName])
    have hstay := walk_of_directories ht hput (fun _ _ hthere =>
      Directory.at?_put_of_directory hdir (hfree u List.mem_cons_self) hthere) hp hdir
    obtain ⟨t', hrest⟩ := ih hput (fun v hv => hnames v (List.mem_cons_of_mem u hv)) hstay
      (Directory.at?_put_above hdir u.fileName _) fun v hv below => by
        rw [Directory.get?_insert]
        split
        · exact nofun
        · exact hfree v (List.mem_cons_of_mem u hv) below
    exact ⟨t', writeHeaders_cons_iff.2 ⟨_, _, (write_join_iff ht hname).2
      ⟨here, inside, hp, hdir, hfree u List.mem_cons_self, rfl⟩, hrest, rfl⟩⟩

/-- Where a header can be written, the path of the directory leads to a directory. -/
theorem exists_landing_of_writeHeaders (ht : t.IsLinkless)
    (hnames : ∀ u ∈ headers, IsEntryName u.fileName) (hne : headers ≠ [])
    (h : writeHeaders output headers t = (.ok paths, t')) :
    ∃ here inside, t.landing output = .ok here ∧ t.root.at? here = some (.directory inside) := by
  obtain ⟨u, headers, rfl⟩ := List.exists_cons_of_ne_nil hne
  obtain ⟨s, ps, hwrite, -⟩ := writeHeaders_cons_iff.1 h
  obtain ⟨here, inside, hp, hdir, -⟩ := (write_join_iff ht (hnames u List.mem_cons_self)).1 hwrite
  exact ⟨here, inside, hp, hdir⟩

/-! ### Whole runs -/

/-- The headers that are compiled from some sources, one source after the other.  What is written
for a source is there when the next one is read. -/
def compiledHeaders (output : Path) : List Path → FileTree → List GeneratedHeader
  | [], _ => []
  | source :: sources, t =>
    match t.compileFile source output with
    | .error _ => compiledHeaders output sources t
    | .ok headers => headers ++ compiledHeaders output sources (writeHeaders output headers t).2

/-- The headers that a run compiles, in the order in which it writes them. -/
def runHeaders (t : FileTree) (sources : List Path) (output : Path) : List GeneratedHeader :=
  match (t.makeDirectories output).2.collect sources with
  | .error _ => []
  | .ok sources => compiledHeaders output sources (t.makeDirectories output).2

theorem compileFile_of_compile {source : Path} {text includePath : String}
    (hread : t.read source = .ok text) (hinclude : t.includePath source output = .ok includePath)
    (hcompile : compile text.toList source.text ⟨includePath, source.fileName?.getD ""⟩ =
      .ok headers) : t.compileFile source output = .ok headers := by
  simp only [compileFile, hread, hinclude, Except.mapError, bind, Except.bind, hcompile]

theorem isFiled_of_compileFile {source : Path} (h : t.compileFile source output = .ok headers)
    {u : GeneratedHeader} (hu : u ∈ headers) : u.IsFiled := by
  unfold compileFile at h
  simp only [bind, Except.bind] at h
  split at h
  · cases h
  split at h
  · cases h
  next text _ _ includePath _ =>
  cases hcompile : compile text.toList source.text ⟨includePath, source.fileName?.getD ""⟩ with
  | error e => rw [hcompile] at h; cases h
  | ok headers =>
    rw [hcompile] at h
    cases h
    exact isFiled_of_mem_compile hcompile hu

theorem isFiled_of_mem_compiledHeaders {sources : List Path} {u : GeneratedHeader}
    (hu : u ∈ compiledHeaders output sources t) : u.IsFiled := by
  induction sources generalizing t with
  | nil => cases hu
  | cons source sources ih =>
    rw [compiledHeaders] at hu
    split at hu
    · exact ih hu
    · next headers hcompile =>
      rcases List.mem_append.1 hu with hu | hu
      · exact isFiled_of_compileFile hcompile hu
      · exact ih hu

/-- A run that gives a report has written all its headers, one after the other. -/
theorem writeHeaders_of_compileFiles {sources : List Path} {r : Report}
    (h : compileFiles output sources t = (.ok r, t')) :
    writeHeaders output (compiledHeaders output sources t) t = (.ok r.written, t') := by
  induction sources generalizing t r with
  | nil =>
    cases h
    rfl
  | cons source sources ih =>
    rw [compileFiles] at h
    rw [compiledHeaders]
    cases hcompile : t.compileFile source output with
    | error e =>
      simp only [hcompile, Prod.mk.injEq] at h
      obtain ⟨hreport, rfl⟩ := h
      cases hrest : (compileFiles output sources t).1 with
      | error e => rw [hrest] at hreport; cases hreport
      | ok r' =>
        rw [hrest] at hreport
        cases hreport
        have hrun : compileFiles output sources t = (.ok r', _) := Prod.ext hrest rfl
        have hih := ih hrun
        exact hih
    | ok headers =>
      simp only [hcompile] at h
      cases hwrite : writeHeaders output headers t with
      | mk result s =>
        cases result with
        | error e => rw [hwrite] at h; cases h
        | ok ps =>
          simp only [hwrite, Prod.mk.injEq] at h
          obtain ⟨hreport, rfl⟩ := h
          cases hrest : (compileFiles output sources s).1 with
          | error e => rw [hrest] at hreport; cases hreport
          | ok r' =>
            rw [hrest] at hreport
            cases hreport
            have hrun : compileFiles output sources s = (.ok r', _) := Prod.ext hrest rfl
            have hlater : (writeHeaders output headers t).2 = s := by rw [hwrite]
            simp only [hlater]
            exact writeHeaders_append hwrite (ih hrun)

/-- A run that gives a report makes the directory first, and then writes its headers. -/
theorem writeHeaders_of_generate {sources : List Path} {r : Report}
    (h : t.generate sources output = (.ok r, t')) :
    writeHeaders output (t.runHeaders sources output) (t.makeDirectories output).2 =
      (.ok r.written, t') := by
  unfold generate at h
  unfold runHeaders
  cases hmake : t.makeDirectories output with
  | mk result s =>
    cases result with
    | error e => simp [hmake] at h
    | ok _ =>
      simp only [hmake] at h ⊢
      cases hcollect : s.collect sources with
      | error e => simp [hcollect] at h
      | ok found =>
        simp only [hcollect] at h ⊢
        exact writeHeaders_of_compileFiles h

theorem isFiled_of_mem_runHeaders {sources : List Path} {u : GeneratedHeader}
    (hu : u ∈ t.runHeaders sources output) : u.IsFiled := by
  unfold runHeaders at hu
  split at hu
  · cases hu
  · exact isFiled_of_mem_compiledHeaders hu

theorem written_of_generate {sources : List Path} {r : Report}
    (h : t.generate sources output = (.ok r, t')) :
    r.written = (t.runHeaders sources output).map fun u => output.join u.fileName :=
  paths_of_writeHeaders (writeHeaders_of_generate h)

/-- The directory that a run leaves holds its headers, written one after the other. -/
theorem exists_directory_of_generate {sources : List Path} {r : Report} (ht : t.IsLinkless)
    (h : t.generate sources output = (.ok r, t')) (hne : t.runHeaders sources output ≠ []) :
    ∃ (here : Location) (inside : Directory), t'.IsLinkless ∧ t'.landing output = .ok here ∧
      t'.root.at? here = some (.directory (inside.withHeaders (t.runHeaders sources output))) := by
  have hnames : ∀ u ∈ t.runHeaders sources output, IsEntryName u.fileName :=
    fun u hu => (isFiled_of_mem_runHeaders hu).2
  have hwrite := writeHeaders_of_generate h
  have hmade := isLinkless_makeDirectories ht output
  obtain ⟨here, inside, hp, hdir⟩ := exists_landing_of_writeHeaders hmade hnames hne hwrite
  exact ⟨here, inside, at?_of_writeHeaders hmade hnames hp hdir hwrite⟩

theorem read_of_generate {sources : List Path} {r : Report} (ht : t.IsLinkless)
    (h : t.generate sources output = (.ok r, t')) {before after : List GeneratedHeader}
    {u : GeneratedHeader} (hsplit : t.runHeaders sources output = before ++ u :: after)
    (hlast : ∀ v ∈ after, v.className ≠ u.className) :
    t'.read (output.join u.fileName) = .ok u.text := by
  have hfiled : ∀ v ∈ before ++ u :: after, v.IsFiled :=
    fun v hv => isFiled_of_mem_runHeaders (hsplit ▸ hv)
  have hu := hfiled u (by simp)
  have hfiles : ∀ v ∈ after, v.fileName ≠ u.fileName := by
    intro v hv hsame
    rw [(hfiled v (by simp [hv])).1, hu.1] at hsame
    exact hlast v hv (headerFile_injective hsame)
  obtain ⟨here, inside, ht', hp, hdir⟩ := exists_directory_of_generate ht h (by simp [hsplit])
  rw [hsplit] at hdir
  exact read_join ht' hu.2 hp hdir (Directory.get?_withHeaders_last hfiles)

/-- **Of the headers for classes of one name, a run leaves the last one.**  A run that gives a
report tells one path for each header that it compiled, and all these paths lead into one directory.
The text of a header is read from its path when no later header of the run is for a class of the
same name.  So there are as many different paths as names of classes; where no two classes have the
same name, no path is told twice, and every header is found in its file. -/
theorem generate_leaves_last {sources : List Path} {r : Report} (ht : t.IsLinkless)
    (h : t.generate sources output = (.ok r, t')) :
    r.written = (t.runHeaders sources output).map (fun u => output.join u.fileName) ∧
    (∃ here, ∀ u ∈ t.runHeaders sources output,
      t'.locate (output.join u.fileName) = .ok (here ++ [u.fileName])) ∧
    (∀ before u after, t.runHeaders sources output = before ++ u :: after →
      (∀ v ∈ after, v.className ≠ u.className) → t'.read (output.join u.fileName) = .ok u.text) ∧
    r.written.dedup.length =
      ((t.runHeaders sources output).map GeneratedHeader.className).dedup.length ∧
    (((t.runHeaders sources output).map GeneratedHeader.className).Nodup →
      r.written.Nodup ∧
      ∀ u ∈ t.runHeaders sources output, t'.read (output.join u.fileName) = .ok u.text) := by
  have hfiled : ∀ u ∈ t.runHeaders sources output, u.IsFiled := fun u hu =>
    isFiled_of_mem_runHeaders hu
  -- the path of a header is made of the name of its class alone
  have hinj : Function.Injective fun className => output.join (headerFile className) :=
    output.join_injective.comp headerFile_injective
  have hpaths : r.written = ((t.runHeaders sources output).map GeneratedHeader.className).map
      fun className => output.join (headerFile className) := by
    rw [written_of_generate h, List.map_map]
    exact List.map_congr_left fun u hu => by rw [(hfiled u hu).1]; rfl
  refine ⟨written_of_generate h, ?_, fun before u after hsplit hlast =>
    read_of_generate ht h hsplit hlast, ?_, fun hnodup => ⟨?_, fun u hu => ?_⟩⟩
  · by_cases hne : t.runHeaders sources output = []
    · exact ⟨[], by simp [hne]⟩
    · obtain ⟨here, inside, ht', hp, hdir⟩ := exists_directory_of_generate ht h hne
      exact ⟨here, fun u hu => locate_join ht' (hfiled u hu).2 hp hdir
        (Directory.isSome_get?_withHeaders (.inr ⟨u, hu, rfl⟩))⟩
  · rw [hpaths, List.dedup_map_of_injective hinj, List.length_map]
  · rw [hpaths]
    exact hnodup.map hinj
  · obtain ⟨before, after, hsplit⟩ := List.append_of_mem hu
    refine read_of_generate ht h hsplit fun v hv hsame => ?_
    rw [hsplit, List.map_append, List.map_cons] at hnodup
    have hnew := (List.nodup_cons.1 (List.nodup_append.1 hnodup).2.1).1
    exact hnew (hsame ▸ List.mem_map_of_mem hv)

end FileTree

/-! ### The table in a header -/

namespace Mapping

open Text

/-- Quoted texts are equal when texts that begin with them are. -/
theorem eq_of_quote_append_eq {text text' : String} {rest rest' : List Char}
    (h : (quote text).toList ++ rest = (quote text').toList ++ rest') : text = text' := by
  have hquote : ∀ (s : String) (more : List Char), (quote s).toList ++ more =
      '"' :: ((s.toList.flatMap quotedChar ++ ['"']) ++ more) := fun s more => by
    rw [quote, String.toList_ofList]
    rfl
  have htail : ∀ (s : String) (more : List Char),
      Lexeme.literalTail '"' ((s.toList.flatMap quotedChar ++ ['"']) ++ more) =
        (s.toList.flatMap quotedChar ++ ['"'], more) := fun s more =>
    (Lexeme.LiteralTail.closed (Lexeme.escaped_quoted _) more).literalTail_append (.inl rfl)
  rw [hquote, hquote, List.cons.injEq] at h
  have hpair := (htail text rest).symm.trans ((congrArg _ h.2).trans (htail text' rest'))
  refine quote_injective ?_
  rw [quote, quote, List.cons_append, (Prod.mk.inj hpair).1, List.cons_append]

/-- The lines of a generated header in front of the one that names the table. -/
def linesAboveTable (e : Entity) (names : SourceNames) : List String :=
  ["// GENERATED AUTOMATICALLY - DO NOT MODIFY",
    s!"// Source: {names.name}",
    "",
    "#pragma once",
    ""] ++
  includeLines e names ++
  ["",
    "namespace entity::generated \x7b",
    "",
    s!"struct {e.mappingName} \x7b",
    s!"    static constexpr bool read_only = {e.readOnly};"]

theorem exists_headerLines_eq (e : Entity) (names : SourceNames) : ∃ below,
    headerLines e names = linesAboveTable e names ++
      ("    static constexpr const char* table_name = " ++ quote e.table ++ ";") :: below := by
  simp only [headerLines, mappingStruct, linesAboveTable, List.append_assoc, List.cons_append,
    List.nil_append]
  exact ⟨_, rfl⟩

/-- The text of a generated header tells the table. -/
theorem table_eq_of_headerText_eq {e e' : Entity} {names : SourceNames}
    (habove : linesAboveTable e names = linesAboveTable e' names)
    (h : headerText e names = headerText e' names) : e.table = e'.table := by
  obtain ⟨below, hlines⟩ := exists_headerLines_eq e names
  obtain ⟨below', hlines'⟩ := exists_headerLines_eq e' names
  have htext := congrArg String.toList h
  rw [headerText, headerText, toList_lines, toList_lines, hlines, hlines', habove,
    List.flatMap_append, List.flatMap_append, List.append_cancel_left_eq, List.flatMap_cons,
    List.flatMap_cons, String.toList_append, String.toList_append, String.toList_append,
    String.toList_append] at htext
  simp only [List.append_assoc, List.append_cancel_left_eq] at htext
  exact eq_of_quote_append_eq htext

end Mapping

namespace FileTree

/-! ### Two classes of one name -/

/-- A header that declares users in two namespaces. -/
def usersSource : String :=
  "namespace a \x7b\n// @relais table=a_users\nstruct User \x7b\n    int64_t id;\n\x7d;\n" ++
    "// @relais table=groups\nstruct Group \x7b\n    int64_t id;\n\x7d;\n\x7d\n" ++
    "namespace b \x7b\n// @relais table=b_users\nstruct User \x7b\n    int64_t id;\n\x7d;\n\x7d\n"

/-- A tree with nothing but one header. -/
def oneFile (content : List UInt8) : FileTree := ⟨.leaf "User.h" (.file content) .empty, []⟩

/-- The tree that holds the header with the users. -/
def usersTree : FileTree := oneFile (Text.encode usersSource)

/-- One of its classes. -/
def userEntity (scope className table : String) (line : Nat) : Entity where
  className := className
  scope := scope
  table := table
  model := none
  members := [⟨"id", "int64_t", "", line + 1, {}⟩]
  enums := []
  readOnly := false
  tiers := []
  entityName := scope ++ "::" ++ className
  hasStructMeta := false
  file := "User.h"
  line := line

/-- The header that is generated for one of its classes. -/
def userHeader (scope className table : String) (line : Nat) : GeneratedHeader :=
  (userEntity scope className table line).generate ⟨"User.h", "User.h"⟩

/-- The headers that are generated for its three classes. -/
def usersHeaders : List GeneratedHeader :=
  [userHeader "a" "User" "a_users" 3, userHeader "a" "Group" "groups" 7,
    userHeader "b" "User" "b_users" 13]

theorem allEntities_users : allEntities usersSource.toList "User.h" =
    .ok [userEntity "a" "User" "a_users" 3, userEntity "a" "Group" "groups" 7,
      userEntity "b" "User" "b_users" 13] := by
  have hsource : usersSource.toList = _ :=
    Text.toList_append_of_eq
      (Text.toList_append_of_eq String.toList_ofList String.toList_ofList)
      String.toList_ofList
  rw [hsource]
  decide +kernel

theorem join_userHeader (scope className table : String) (line : Nat) :
    (⟨"."⟩ : Path).join (userHeader scope className table line).fileName =
      ⟨"./" ++ headerFile className⟩ := rfl

theorem compile_users : compile usersSource.toList "User.h" ⟨"User.h", "User.h"⟩ =
    .ok usersHeaders := by
  rw [compile, allEntities_users]
  rfl

theorem isLinkless_oneFile (content : List UInt8) : (oneFile content).IsLinkless := rfl

theorem landing_oneFile (content : List UInt8) : (oneFile content).landing ⟨"."⟩ = .ok [] := by
  have hsteps : (⟨"."⟩ : Path).steps = ["."] := by decide
  rw [landing, hsteps, walk_cons (isLinkless_oneFile content)]
  simp [oneFile, start, walk]

theorem locate_oneFile (content : List UInt8) :
    (oneFile content).locate ⟨"User.h"⟩ = .ok ["User.h"] := by
  have hsteps : (⟨"User.h"⟩ : Path).steps = ["User.h"] := by decide
  have hname : IsEntryName "User.h" := ⟨by decide, by decide, by decide, by decide⟩
  have hroot : (oneFile content).root.at? [] = some (.directory (oneFile content).root) := rfl
  rw [locate, follow, hsteps]
  exact walk_name (isLinkless_oneFile content) hroot hname

theorem locate_home_oneFile (content : List UInt8) : (oneFile content).locate ⟨"."⟩ = .ok [] :=
  landing_oneFile content

theorem makeDirectories_oneFile (content : List UInt8) :
    (oneFile content).makeDirectories ⟨"."⟩ = (.ok (), oneFile content) := by
  have hnames : (⟨"."⟩ : Path).lineage = [] := by decide
  rw [makeDirectories, hnames]
  rfl

theorem makeDirectories_users : usersTree.makeDirectories ⟨"."⟩ = (.ok (), usersTree) :=
  makeDirectories_oneFile _

theorem at?_oneFile (content : List UInt8) :
    (oneFile content).root.at? ["User.h"] = some (.leaf (.file content)) := rfl

theorem read_oneFile (text : String) : (oneFile (Text.encode text)).read ⟨"User.h"⟩ = .ok text :=
  read_of_locate (locate_oneFile _) (at?_oneFile _)

theorem includePath_oneFile (content : List UInt8) :
    (oneFile content).includePath ⟨"User.h"⟩ ⟨"."⟩ = .ok "User.h" := by
  simp only [includePath, locate_oneFile, locate_home_oneFile, bind, Except.bind]
  rfl

theorem compileFile_users : usersTree.compileFile ⟨"User.h"⟩ ⟨"."⟩ = .ok usersHeaders := by
  have hname : (⟨"User.h"⟩ : Path).fileName?.getD "" = "User.h" := by decide
  refine compileFile_of_compile (read_oneFile _) (includePath_oneFile _) ?_
  rw [hname]
  exact compile_users

theorem collect_users : usersTree.collect [⟨"User.h"⟩] = .ok [⟨"User.h"⟩] := by
  have hfile : usersTree.isFile ⟨"User.h"⟩ = true := by
    simp only [isFile, entry?, usersTree, locate_oneFile, Except.toOption, Option.bind_some,
      at?_oneFile]
  have hsource : usersTree.sourcesAt ⟨"User.h"⟩ = .ok [⟨"User.h"⟩] := if_pos hfile
  simp [collect, hsource, Except.map, pure, Except.pure, bind, Except.bind]

theorem runHeaders_users : usersTree.runHeaders [⟨"User.h"⟩] ⟨"."⟩ = usersHeaders := by
  simp [runHeaders, makeDirectories_users, collect_users, compiledHeaders, compileFile_users]

theorem exists_generate_users : ∃ t', usersTree.generate [⟨"User.h"⟩] ⟨"."⟩ =
    (.ok ⟨[⟨"./UserWrapper.h"⟩, ⟨"./GroupWrapper.h"⟩, ⟨"./UserWrapper.h"⟩], []⟩, t') := by
  have hroot : usersTree.root.at? [] = some (.directory usersTree.root) := rfl
  have hfree : ∀ u ∈ usersHeaders, ∀ below,
      usersTree.root.get? u.fileName ≠ some (.directory below) := by
    intro u _ below
    by_cases hname : "User.h" = u.fileName <;> simp [usersTree, oneFile, Directory.get?, hname]
  have htree : usersTree.IsLinkless := isLinkless_oneFile _
  obtain ⟨t', hwrite⟩ := exists_writeHeaders htree
    (fun u hu => (isFiled_of_mem_compile compile_users hu).2) (landing_oneFile _) hroot hfree
  refine ⟨t', ?_⟩
  have hpaths : usersHeaders.map (fun u => (⟨"."⟩ : Path).join u.fileName) =
      [⟨"./UserWrapper.h"⟩, ⟨"./GroupWrapper.h"⟩, ⟨"./UserWrapper.h"⟩] := by
    simp [usersHeaders, join_userHeader, headerFile]
  rw [hpaths] at hwrite
  rw [generate, makeDirectories_users]
  dsimp only
  rw [collect_users]
  dsimp only
  rw [compileFiles, compileFile_users]
  dsimp only
  rw [hwrite]
  rfl

theorem generate_leaves_last_users : ∃ r t', usersTree.IsLinkless ∧
    usersTree.generate [⟨"User.h"⟩] ⟨"."⟩ = (.ok r, t') ∧
    r.written = [⟨"./UserWrapper.h"⟩, ⟨"./GroupWrapper.h"⟩, ⟨"./UserWrapper.h"⟩] ∧
    r.written.dedup.length = 2 ∧
    t'.read ⟨"./UserWrapper.h"⟩ = .ok (userHeader "b" "User" "b_users" 13).text ∧
    t'.read ⟨"./GroupWrapper.h"⟩ = .ok (userHeader "a" "Group" "groups" 7).text := by
  obtain ⟨t', hrun⟩ := exists_generate_users
  have htree : usersTree.IsLinkless := isLinkless_oneFile _
  obtain ⟨-, -, hread, hlength, -⟩ := generate_leaves_last htree hrun
  rw [runHeaders_users] at hread hlength
  refine ⟨_, t', htree, hrun, rfl, hlength.trans (by decide), ?_, ?_⟩
  · have hlast := hread [userHeader "a" "User" "a_users" 3, userHeader "a" "Group" "groups" 7] _ []
      rfl nofun
    simpa [join_userHeader, headerFile] using hlast
  · have hgroup := hread [userHeader "a" "User" "a_users" 3] _ [userHeader "b" "User" "b_users" 13]
      rfl (by decide)
    simpa [join_userHeader, headerFile] using hgroup

/-- A header is lost where a later one of the run is for a class of the same name. -/
theorem exists_lost_header : ¬ ∀ (t t' : FileTree) (sources : List Path) (output : Path)
    (r : Report), t.IsLinkless → sources.Nodup → t.generate sources output = (.ok r, t') →
      ∀ u ∈ t.runHeaders sources output, t'.read (output.join u.fileName) = .ok u.text := by
  intro hclaim
  obtain ⟨t', hrun⟩ := exists_generate_users
  have hfirst := hclaim usersTree t' _ _ _ (isLinkless_oneFile _) (by decide) hrun
    (userHeader "a" "User" "a_users" 3) (by rw [runHeaders_users]; exact List.mem_cons_self)
  have hsplit : usersTree.runHeaders [⟨"User.h"⟩] ⟨"."⟩ =
      [userHeader "a" "User" "a_users" 3, userHeader "a" "Group" "groups" 7] ++
        userHeader "b" "User" "b_users" 13 :: [] := runHeaders_users
  have hlast := read_of_generate (isLinkless_oneFile _) hrun hsplit nofun
  have hsame : Mapping.headerText (userEntity "a" "User" "a_users" 3) ⟨"User.h", "User.h"⟩ =
      Mapping.headerText (userEntity "b" "User" "b_users" 13) ⟨"User.h", "User.h"⟩ :=
    Except.ok.inj (hfirst.symm.trans hlast)
  have habove : Mapping.linesAboveTable (userEntity "a" "User" "a_users" 3) ⟨"User.h", "User.h"⟩ =
      Mapping.linesAboveTable (userEntity "b" "User" "b_users" 13) ⟨"User.h", "User.h"⟩ := rfl
  exact absurd (Mapping.table_eq_of_headerText_eq habove hsame) (by decide)

end FileTree

end RowMapping
