import RowMapping.Proofs.ByteOrder
import RowMapping.Proofs.FoundSources
/-!
# What a pruned walk leaves out

The walk below a directory looks at no path through a directory that generated headers are written
to.  Such a directory is told by its path from the start of the walk, as such a file is.  The path
of a file contains those of the directories above it, but its name does not contain theirs: a file
is left out for the name of a directory just when the name is that of a generated header.

* `Directory.files`: all files below a directory, depth first;
* `mem_files_iff`, `pairwise_files`: each file once, in the order of the bytes of the names;
* `IsBelowWrapper`, `IsTaken`: a directory above a file has a name of a generated header, and the
  headers that are taken;
* `Directory.candidates_eq_filter`: the pruned walk and the walk that takes every file in turn;
* `FileTree.collect_directories`: the headers that some directories stand for.
-/

namespace RowMapping

open RowMapping.Path

/-! ### Directories on the way to a file -/

/-- A directory on the way has a name of a generated header. -/
def IsBelowWrapper (names : List String) : Prop := ∃ n ∈ names.dropLast, IsWrapperName n

instance : DecidablePred IsBelowWrapper := fun names =>
  inferInstanceAs (Decidable (∃ n ∈ names.dropLast, IsWrapperName n))

/-- The names lead to a header that was not generated, through no directory with a name of a
generated header. -/
def IsTaken (names : List String) : Prop :=
  (ofNames false names).isCandidate = true ∧ ¬IsBelowWrapper names

instance : DecidablePred IsTaken := fun names =>
  inferInstanceAs (Decidable (_ ∧ ¬IsBelowWrapper names))

/-- Names that come first at the first place where two ways differ, in the order of their bytes. -/
def ComesBefore : List String → List String → Prop :=
  List.Lex fun m n => Text.encode m < Text.encode n

theorem not_comesBefore_self (names : List String) : ¬ComesBefore names names :=
  List.lex_irrefl (fun name => List.lt_irrefl (Text.encode name)) names

section Names

variable {here rel : List String} {name : String}

theorem not_isBelowWrapper_singleton (name : String) : ¬IsBelowWrapper [name] := by
  rintro ⟨n, hn, -⟩
  exact List.not_mem_nil hn

theorem isBelowWrapper_append (hrel : rel ≠ []) :
    IsBelowWrapper (here ++ rel) ↔ (∃ n ∈ here, IsWrapperName n) ∨ IsBelowWrapper rel := by
  rw [IsBelowWrapper, List.dropLast_append_of_ne_nil hrel]
  simp only [List.mem_append, or_and_right, exists_or]
  rfl

/-- A path contains the paths of the directories above. -/
theorem toList_ofNames_append (hhere : here ≠ []) (hrel : rel ≠ []) :
    (ofNames false (here ++ rel)).text.toList =
      (ofNames false here).text.toList ++ '/' :: (ofNames false rel).text.toList := by
  simp only [toList_ofNames, Bool.false_eq_true, if_false, List.nil_append]
  induction here with
  | nil => exact absurd rfl hhere
  | cons n here ih =>
    cases here with
    | nil =>
      obtain ⟨m, rest, rfl⟩ := List.exists_cons_of_ne_nil hrel
      simp
    | cons next here =>
      have hnext := ih (List.cons_ne_nil next here)
      simp only [List.cons_append, List.map_cons, List.intercalate_cons_cons] at hnext ⊢
      rw [hnext]
      simp

/-- What lies below a directory of generated headers is no header to read, or lies below a name of a
generated header. -/
theorem not_isTaken_of_isGenerated (hhere : ∀ n ∈ here ++ [name], FileTree.IsEntryName n)
    (hgenerated : (ofNames false (here ++ [name])).isGenerated = true) (hrel : rel ≠ []) :
    ¬IsTaken (here ++ [name] ++ rel) := by
  rintro ⟨hcandidate, hbelow⟩
  have hnot : (ofNames false (here ++ [name] ++ rel)).isGenerated = false := by
    rw [Bool.eq_false_iff]
    intro h
    rw [isCandidate_eq_false_of_isGenerated h] at hcandidate
    cases hcandidate
  rw [isGenerated, Bool.or_eq_true] at hgenerated
  rcases hgenerated with hoccurs | hname
  · -- the part of the text stays a part of it
    rw [isGenerated, Bool.or_eq_false_iff, occursIn_eq_false_iff] at hnot
    have hsplit : ∃ a b, (ofNames false (here ++ [name])).text.toList =
        a ++ ("generated".toList ++ b) := by
      by_contra hno
      simp only [not_exists] at hno
      rw [occursIn_eq_false_iff.2 hno] at hoccurs
      cases hoccurs
    obtain ⟨a, b, hab⟩ := hsplit
    refine hnot.1 a (b ++ '/' :: (ofNames false rel).text.toList) ?_
    rw [toList_ofNames_append (by simp) hrel, hab]
    simp only [List.append_assoc]
  · rw [fileName?_ofNames hhere, Option.map_some, Option.getD_some] at hname
    exact hbelow ((isBelowWrapper_append hrel).2 (.inl ⟨name, by simp, hname⟩))

end Names

/-! ### All files below a directory -/

namespace Directory

variable {d inside : Directory} {above names : List String} {name : String}

/-- The files below a directory, depth first, each with the names that lead to it. -/
def files : Directory → List Location
  | empty => []
  | leaf _ (.link _) rest => rest.files
  | leaf n (.file _) rest => [n] :: rest.files
  | inner n inside rest => inside.files.map (n :: ·) ++ rest.files

theorem ne_nil_of_mem_files (h : names ∈ d.files) : names ≠ [] := by
  induction d with
  | empty => cases h
  | leaf n l rest ih =>
    cases l with
    | link target => exact ih h
    | file content =>
      rcases List.mem_cons.1 h with rfl | h
      · exact List.cons_ne_nil n []
      · exact ih h
  | inner n inside rest _ ih =>
    rcases List.mem_append.1 h with h | h
    · obtain ⟨rel, -, rfl⟩ := List.mem_map.1 h
      exact List.cons_ne_nil n rel
    · exact ih h

/-- The way to a file starts with the name of an entry. -/
theorem exists_of_mem_files (h : names ∈ d.files) :
    ∃ name rel, names = name :: rel ∧ name ∈ d.names := by
  induction d with
  | empty => cases h
  | leaf n l rest ih =>
    cases l with
    | link target =>
      obtain ⟨name, rel, hnames, hname⟩ := ih h
      exact ⟨name, rel, hnames, List.mem_cons_of_mem n hname⟩
    | file content =>
      rcases List.mem_cons.1 h with rfl | h
      · exact ⟨n, [], rfl, List.mem_cons_self⟩
      · obtain ⟨name, rel, hnames, hname⟩ := ih h
        exact ⟨name, rel, hnames, List.mem_cons_of_mem n hname⟩
  | inner n inside rest _ ih =>
    rcases List.mem_append.1 h with h | h
    · obtain ⟨rel, -, rfl⟩ := List.mem_map.1 h
      exact ⟨n, rel, rfl, List.mem_cons_self⟩
    · obtain ⟨name, rel, hnames, hname⟩ := ih h
      exact ⟨name, rel, hnames, List.mem_cons_of_mem n hname⟩

/-- The names in front of a directory that is in order are not found behind its first entry. -/
theorem not_mem_files_of_cons {e : Entry} (hcons : (cons name e d).IsOrderly) (rel : Location) :
    name :: rel ∉ d.files := by
  intro hmem
  obtain ⟨other, rest, hnames, hother⟩ := exists_of_mem_files hmem
  cases hnames
  exact lt_irrefl name ((isOrderly_cons_iff.1 hcons).2.1 name hother)

/-- The walk that takes every entry comes to the files and to nothing else. -/
theorem mem_files_iff (hd : d.IsOrderly) :
    names ∈ d.files ↔ ∃ content, d.surface names = some (some (.file content)) := by
  cases names with
  | nil =>
    constructor
    · intro h
      exact absurd rfl (ne_nil_of_mem_files h)
    · rintro ⟨content, h⟩
      cases h
  | cons name rel =>
    induction d generalizing name rel with
    | empty => simp [files, surface_cons, get?]
    | leaf n l rest ih =>
      have hcons : (cons n (.leaf l) rest).IsOrderly :=
        isOrderly_cons_iff.2 ⟨hd.1, hd.2.1, trivial, hd.2.2⟩
      have hbehind := not_mem_files_of_cons hcons
      change _ ↔ ∃ content, (cons n (.leaf l) rest).surface (name :: rel) = _
      by_cases hn : n = name
      · subst hn
        rw [surface_cons, get?_cons, if_pos rfl]
        cases l <;> cases rel <;> simp [files, hbehind]
      · rw [surface_cons_of_ne hn, ← ih hd.2.2]
        cases l with
        | link target => rfl
        | file content => simp [files, Ne.symm hn]
    | inner n inside rest ihinside ih =>
      have hbehind := not_mem_files_of_cons (e := .directory inside) hd
      change _ ↔ ∃ content, (cons n (.directory inside) rest).surface (name :: rel) = _
      by_cases hn : n = name
      · subst hn
        rw [surface_cons_directory, files, List.mem_append, or_iff_left (hbehind rel)]
        cases rel with
        | nil =>
          have hnil : [] ∉ inside.files := fun h => ne_nil_of_mem_files h rfl
          simp [hnil]
        | cons next rel => simp [ihinside hd.2.2.1]
      · rw [surface_cons_of_ne hn, ← ih hd.2.2.2, files, List.mem_append]
        simp [hn]

/-- The walk comes to the files in the order of the bytes of their names. -/
theorem pairwise_files (hd : d.IsOrderly) : d.files.Pairwise ComesBefore := by
  -- what is behind the first entry has a greater first name
  have hbehind : ∀ {n : String} {e : Entry} {rest : Directory} (rel : Location),
      (cons n e rest).IsOrderly → ∀ names ∈ rest.files, ComesBefore (n :: rel) names := by
    intro n e rest rel hcons names hmem
    obtain ⟨m, rel', rfl, hm⟩ := exists_of_mem_files hmem
    exact .rel (Text.encode_lt_encode_iff.2 ((isOrderly_cons_iff.1 hcons).2.1 m hm))
  induction d with
  | empty => exact .nil
  | leaf n l rest ih =>
    have hcons : (cons n (.leaf l) rest).IsOrderly :=
      isOrderly_cons_iff.2 ⟨hd.1, hd.2.1, trivial, hd.2.2⟩
    cases l with
    | link target => exact ih hd.2.2
    | file content => exact .cons (hbehind [] hcons) (ih hd.2.2)
  | inner n inside rest ihinside ih =>
    rw [files, List.pairwise_append, List.pairwise_map]
    refine ⟨(ihinside hd.2.2.1).imp fun h => .cons h, ih hd.2.2.2, ?_⟩
    intro a ha b hb
    obtain ⟨rel, -, rfl⟩ := List.mem_map.1 ha
    exact hbehind (e := .directory inside) rel hd b hb

theorem nodup_files (hd : d.IsOrderly) : d.files.Nodup := by
  refine (pairwise_files hd).imp ?_
  rintro names _ h rfl
  exact not_comesBefore_self names h

/-! ### The pruned walk -/

/-- The names on the way to a file are names of entries. -/
theorem isEntryName_of_mem_files (hd : d.IsOrderly) (h : names ∈ d.files) :
    ∀ n ∈ names, FileTree.IsEntryName n := by
  induction d generalizing names with
  | empty => cases h
  | leaf n l rest ih =>
    cases l with
    | link target => exact ih hd.2.2 h
    | file content =>
      rcases List.mem_cons.1 h with rfl | h
      · intro m hm
        rw [List.mem_singleton.1 hm]
        exact hd.1
      · exact ih hd.2.2 h
  | inner n inside rest ihinside ih =>
    rcases List.mem_append.1 h with h | h
    · obtain ⟨rel, hrel, rfl⟩ := List.mem_map.1 h
      exact List.forall_mem_cons.2 ⟨hd.1, ihinside hd.2.2.1 hrel⟩
    · exact ih hd.2.2.2 h

/-- Leaving out a directory leaves out what is not taken. -/
theorem candidates_above (hd : d.IsOrderly) (habove : ∀ n ∈ above, FileTree.IsEntryName n)
    (hplain : ∀ n ∈ above, ¬IsWrapperName n) :
    d.candidates above = (d.files.map (above ++ ·)).filter IsTaken := by
  induction d generalizing above with
  | empty => rfl
  | leaf n l rest ih =>
    have hrest := ih hd.2.2 habove hplain
    cases l with
    | link target => exact hrest
    | file content =>
      have hbelow : ¬IsBelowWrapper (above ++ [n]) := by
        rw [isBelowWrapper_append (List.cons_ne_nil n [])]
        rintro (⟨m, hm, hwrapper⟩ | h)
        · exact hplain m hm hwrapper
        · exact not_isBelowWrapper_singleton n h
      simp only [candidates, files, List.map_cons, List.filter_cons, hrest, IsTaken, hbelow,
        not_false_eq_true, and_true, Bool.decide_eq_true]
  | inner n inside rest ihinside ih =>
    have hhere : ∀ m ∈ above ++ [n], FileTree.IsEntryName m := by
      simpa [or_imp, forall_and, hd.1] using habove
    have hmap : (inside.files.map (n :: ·)).map (above ++ ·) =
        inside.files.map (above ++ [n] ++ ·) := by
      simp [List.map_map, Function.comp_def]
    rw [candidates, files, List.map_append, List.filter_append, ih hd.2.2.2 habove hplain, hmap]
    split
    · next hgenerated =>
      have hnone : (inside.files.map (above ++ [n] ++ ·)).filter IsTaken = [] := by
        rw [List.filter_eq_nil_iff]
        intro names hnames
        obtain ⟨rel, hrel, rfl⟩ := List.mem_map.1 hnames
        simpa using not_isTaken_of_isGenerated hhere hgenerated (ne_nil_of_mem_files hrel)
      rw [hnone, List.nil_append]
    · next hgenerated =>
      have hname : ¬IsWrapperName n := fun h => hgenerated (isGenerated_ofNames false hhere h)
      rw [ihinside hd.2.2.1 hhere]
      simpa [or_imp, forall_and, hname] using hplain

/-- **The pruned walk comes to the files that are taken.** -/
theorem candidates_eq_filter (hd : d.IsOrderly) : d.candidates [] = d.files.filter IsTaken := by
  rw [candidates_above hd (List.forall_mem_nil _) (List.forall_mem_nil _)]
  simp

/-- Nothing is lost just when no header lies below a directory with a name of a generated header. -/
theorem candidates_eq_all_iff (hd : d.IsOrderly) :
    d.candidates [] = d.files.filter (fun names => (ofNames false names).isCandidate) ↔
      ∀ names ∈ d.files, (ofNames false names).isCandidate = true → ¬IsBelowWrapper names := by
  rw [candidates_eq_filter hd]
  constructor
  · intro h names hnames hcandidate
    have hmem : names ∈ d.files.filter (fun names => (ofNames false names).isCandidate) :=
      List.mem_filter.2 ⟨hnames, hcandidate⟩
    rw [← h, List.mem_filter, decide_eq_true_iff] at hmem
    exact hmem.2.2
  · intro h
    refine List.filter_congr fun names hnames => ?_
    rw [Bool.eq_iff_iff, decide_eq_true_iff]
    exact ⟨fun htaken => htaken.1, fun hcandidate => ⟨hcandidate, h names hnames hcandidate⟩⟩

end Directory

/-! ### The directories that are walked -/

namespace FileTree

variable {t : FileTree} {p : Path} {inside : Directory} {walks : List (Path × Directory)}

theorem IsOrderly.directory? (ht : t.IsOrderly) (h : t.directory? p = some inside) :
    inside.IsOrderly := by
  obtain ⟨here, -, hinside⟩ := directory?_eq_some_iff.1 h
  exact ht.at? hinside

theorem sourcesAt_of_directory (h : t.directory? p = some inside) :
    t.sourcesAt p = .ok ((inside.candidates []).map fun names => names.foldl Path.join p) := by
  obtain ⟨here, hp, hinside⟩ := directory?_eq_some_iff.1 h
  have hhere : t.surface here = some none := Directory.surface_eq_directory_iff.2 ⟨_, hinside⟩
  rw [sourcesAt, isFile_of_directory hp hhere, if_neg Bool.false_ne_true, h]

/-- The headers that directories stand for, one directory after the other. -/
theorem collect_of_directories (hwalks : ∀ w ∈ walks, t.directory? w.1 = some w.2) :
    t.collect (walks.map Prod.fst) = .ok (walks.flatMap fun w =>
      (w.2.candidates []).map fun names => names.foldl Path.join w.1) := by
  refine collect_eq_ok_iff.2 ⟨walks.map fun w =>
    (w.2.candidates []).map fun names => names.foldl Path.join w.1, ?_, List.flatMap_def⟩
  induction walks with
  | nil => exact .nil
  | cons w walks ih =>
    obtain ⟨hw, hwalks⟩ := List.forall_mem_cons.1 hwalks
    exact .cons (sourcesAt_of_directory hw) (ih hwalks)

/-! ### A directory of models -/

/-- A tree with a directory of models, where relative paths start. -/
def modelsTree (models : Directory) : FileTree := ⟨.inner "models" models .empty, []⟩

theorem isOrderly_modelsTree {models : Directory} (h : models.IsOrderly) :
    (modelsTree models).IsOrderly :=
  ⟨by decide, nofun, h, trivial⟩

theorem isLinkless_modelsTree {models : Directory} (h : models.hasLink = false) :
    (modelsTree models).IsLinkless := by
  simp [IsLinkless, modelsTree, Directory.hasLink, h]

theorem directory?_modelsTree {models : Directory} (h : models.hasLink = false) :
    (modelsTree models).directory? ⟨"models"⟩ = some models := by
  have hsteps : (⟨"models"⟩ : Path).steps = ["models"] := by decide
  have hroot : (modelsTree models).root.at? [] = some (.directory (modelsTree models).root) := rfl
  refine directory?_eq_some_iff.2 ⟨["models"], ?_, ?_⟩
  · rw [locate, follow, hsteps]
    exact walk_name (isLinkless_modelsTree h) hroot (by decide)
  · simp [modelsTree, Directory.get?]

/-- A directory with one header in a directory of wrappers. -/
def wrappersOnly : Directory := .inner "Wrappers" (.leaf "User.h" (.file []) .empty) .empty

/-- A header is lost for the name of a directory. -/
theorem exists_lost_source : (modelsTree wrappersOnly).IsLinkless ∧
    (modelsTree wrappersOnly).IsOrderly ∧
    (modelsTree wrappersOnly).directory? ⟨"models"⟩ = some wrappersOnly ∧
    wrappersOnly.files = [["Wrappers", "User.h"]] ∧
    (ofNames false ["Wrappers", "User.h"]).isCandidate = true ∧
    (modelsTree wrappersOnly).collect [⟨"models"⟩] = .ok [] := by
  have hdir : ∀ w ∈ [((⟨"models"⟩ : Path), wrappersOnly)],
      (modelsTree wrappersOnly).directory? w.1 = some w.2 :=
    List.forall_mem_singleton.2 (directory?_modelsTree rfl)
  have hcandidates : wrappersOnly.candidates [] = [] := by decide
  refine ⟨isLinkless_modelsTree rfl, isOrderly_modelsTree (by decide), directory?_modelsTree rfl,
    rfl, by decide, ?_⟩
  have hcollect := collect_of_directories hdir
  simpa [hcandidates] using hcollect

/-- **The headers that some directories stand for are their files of headers that were not
generated, depth first in the order of the bytes of the names, but for those below a directory with
a name of a generated header.**  What is taken depends on the names below the directory alone. -/
theorem collect_directories (ht : t.IsOrderly)
    (hwalks : ∀ w ∈ walks, t.directory? w.1 = some w.2) :
    t.collect (walks.map Prod.fst) = .ok (walks.flatMap fun w =>
        (w.2.files.filter IsTaken).map fun names => names.foldl Path.join w.1) ∧
      ∀ w ∈ walks,
        (∀ names, names ∈ w.2.files ↔ ∃ content, w.2.at? names = some (.leaf (.file content))) ∧
        w.2.files.Pairwise ComesBefore ∧ w.2.files.Nodup ∧
        (t.IsLinkless → ∀ names ∈ w.2.files, ∃ here, t.locate w.1 = .ok here ∧
          t.locate (names.foldl Path.join w.1) = .ok (here ++ names)) ∧
        (w.2.files.filter IsTaken =
            w.2.files.filter (fun names => (ofNames false names).isCandidate) ↔
          ∀ names ∈ w.2.files, (ofNames false names).isCandidate = true →
            ¬IsBelowWrapper names) := by
  have horderly : ∀ w ∈ walks, w.2.IsOrderly := fun w hw => ht.directory? (hwalks w hw)
  constructor
  · rw [collect_of_directories hwalks]
    refine congrArg Except.ok (List.flatMap_congr fun w hw => ?_)
    rw [Directory.candidates_eq_filter (horderly w hw)]
  intro w hw
  have hw' := horderly w hw
  refine ⟨fun names => ?_, Directory.pairwise_files hw', Directory.nodup_files hw',
    fun hlinks names hnames => ?_, ?_⟩
  · rw [Directory.mem_files_iff hw']
    simp only [Directory.surface_eq_leaf_iff]
  · obtain ⟨here, hp, hinside⟩ := directory?_eq_some_iff.1 (hwalks w hw)
    obtain ⟨content, hsurface⟩ := (Directory.mem_files_iff hw').1 hnames
    exact ⟨here, hp, locate_foldl_join hlinks hp hinside
      (Directory.isEntryName_of_mem_files hw' hnames) (by rw [hsurface]; rfl)⟩
  · rw [← Directory.candidates_eq_filter hw']
    exact Directory.candidates_eq_all_iff hw'

/-- A directory with headers of all sorts. -/
def models : Directory :=
  .leaf "User.h" (.file []) <| .leaf "UserWrapper.h" (.file []) <|
  .inner "Wrappers" (.leaf "Group.h" (.file []) .empty) <|
  .inner "generated" (.leaf "Other.h" (.file []) .empty) <|
  .inner "sub" (.leaf "Post.hpp" (.file []) .empty) .empty

theorem collect_directories_models :
    (modelsTree models).collect [⟨"models"⟩] = .ok [⟨"models/User.h"⟩, ⟨"models/sub/Post.hpp"⟩] ∧
      ["Wrappers", "Group.h"] ∈ models.files ∧ ["User.h"] ∈ models.files := by
  have hdir : ∀ w ∈ [((⟨"models"⟩ : Path), models)],
      (modelsTree models).directory? w.1 = some w.2 :=
    List.forall_mem_singleton.2 (directory?_modelsTree rfl)
  obtain ⟨hcollect, hfiles⟩ := collect_directories (isOrderly_modelsTree (by decide)) hdir
  obtain ⟨hmem, -, -, -, -⟩ := hfiles _ List.mem_cons_self
  have htaken : models.files.filter IsTaken = [["User.h"], ["sub", "Post.hpp"]] := by decide
  refine ⟨?_, (hmem _).2 ⟨[], rfl⟩, (hmem _).2 ⟨[], rfl⟩⟩
  have hpaths : ([["User.h"], ["sub", "Post.hpp"]].map fun names =>
      names.foldl Path.join ⟨"models"⟩) = [⟨"models/User.h"⟩, ⟨"models/sub/Post.hpp"⟩] := by decide
  rw [← hpaths, ← htaken]
  simpa using hcollect

end FileTree

end RowMapping
