import Mathlib.Data.String.Basic
import RowMapping.Proofs.Linkless
/-!
# What a file tree holds

What a tree shows at a location is nothing, a directory, or a leaf.  Where the names of a directory
are in order, as those of every directory on disk are taken here, what is shown at all locations
determines the directory.

* `Entry.surface`, `Directory.surface`: what is shown of an entry and at a location;
* `Directory.surface_put`: what putting an entry changes;
* `Directory.IsOrderly`: names of entries, in order, here and below;
* `Directory.ext`: directories that show the same are equal;
* `FileTree.Agree`: two trees show the same outside of some locations;
* `FileTree.walk_of_surface`, `FileTree.Agree.locate`, `FileTree.Agree.read`: paths and texts in
  such trees.
-/

namespace RowMapping

/-- What an entry shows from outside: a leaf shows all that it is, and a directory nothing more than
that it is one. -/
def Entry.surface : Entry → Option Leaf
  | .leaf l => some l
  | .directory _ => none

namespace Directory

/-- What is shown at a location: nothing, a directory, or a leaf. -/
def surface (d : Directory) (here : Location) : Option (Option Leaf) :=
  (d.at? here).map Entry.surface

variable {d d' inside : Directory} {e : Entry} {name : String} {here there : Location}

/-! ### What is shown at a location -/

@[simp] theorem surface_nil (d : Directory) : d.surface [] = some none := rfl

theorem surface_cons (d : Directory) (name : String) (names : Location) :
    d.surface (name :: names) =
      match d.get? name with
      | some (.directory inside) => inside.surface names
      | some (.leaf l) => if names.isEmpty then some (some l) else none
      | none => none := by
  rw [surface, at?]
  cases d.get? name with
  | none => rfl
  | some e =>
    cases e with
    | directory inside => rfl
    | leaf l => cases names <;> rfl

theorem surface_singleton (d : Directory) (name : String) :
    d.surface [name] = (d.get? name).map Entry.surface := by
  rw [surface, at?_singleton]

theorem surface_eq_directory_iff :
    d.surface here = some none ↔ ∃ inside, d.at? here = some (.directory inside) := by
  rw [surface, Option.map_eq_some_iff]
  constructor
  · rintro ⟨e, he, hsurface⟩
    cases e with
    | directory inside => exact ⟨inside, he⟩
    | leaf l => cases hsurface
  · rintro ⟨inside, h⟩
    exact ⟨_, h, rfl⟩

theorem surface_eq_leaf_iff {l : Leaf} :
    d.surface here = some (some l) ↔ d.at? here = some (.leaf l) := by
  rw [surface, Option.map_eq_some_iff]
  constructor
  · rintro ⟨e, he, hsurface⟩
    cases e with
    | directory inside => cases hsurface
    | leaf l' =>
      cases hsurface
      exact he
  · intro h
    exact ⟨_, h, rfl⟩

theorem isSome_surface : (d.surface here).isSome = (d.at? here).isSome :=
  Option.isSome_map

theorem surface_append (h : d.at? here = some (.directory inside)) (names : Location) :
    d.surface (here ++ names) = inside.surface names := by
  rw [surface, at?_append h, surface]

theorem surface_concat (h : d.at? here = some (.directory inside)) (name : String) :
    d.surface (here ++ [name]) = (inside.get? name).map Entry.surface := by
  rw [surface_append h, surface_singleton]

/-- What is above an entry is a directory. -/
theorem surface_dropLast (h : (d.surface here).isSome) (hne : here ≠ []) :
    d.surface here.dropLast = some none := by
  induction here generalizing d with
  | nil => exact absurd rfl hne
  | cons name names ih =>
    cases names with
    | nil => rfl
    | cons next names =>
      rw [surface_cons] at h
      rw [List.dropLast_cons_cons, surface_cons]
      split at h
      · exact ih h (List.cons_ne_nil _ _)
      · cases h
      · cases h

/-- An entry with nothing below it is put in no directory's place.  What is shown changes at its
location only. -/
theorem surface_put (h : d.at? here = some (.directory inside))
    (hfree : ∀ below, inside.get? name ≠ some (.directory below))
    (he : ∀ below, e = .directory below → below = .empty) (there : Location) :
    (d.put (here ++ [name]) e).surface there =
      if there = here ++ [name] then some e.surface else d.surface there := by
  induction here generalizing d there with
  | nil =>
    cases h
    cases there with
    | nil => rfl
    | cons m names =>
      rw [List.nil_append, put, surface_cons, get?_insert]
      by_cases hm : name = m
      · subst hm
        cases names with
        | nil =>
          rw [if_pos rfl, if_pos rfl]
          cases e <;> rfl
        | cons next names =>
          have hold : inside.surface (name :: next :: names) = none := by
            rw [surface_cons]
            split
            · next below hbelow => exact absurd hbelow (hfree below)
            · rfl
            · rfl
          rw [if_pos rfl, if_neg (by simp), hold]
          cases e with
          | leaf l => rfl
          | directory below =>
            rw [he below rfl]
            rfl
      · have hne : m :: names ≠ [name] := fun hsame => hm (List.cons.inj hsame).1.symm
        rw [if_neg hm, if_neg hne, surface_cons]
  | cons n here ih =>
    rw [at?] at h
    split at h
    · next inner hinner =>
      rw [List.cons_append, put_cons_of_directory (here ++ [name]) hinner (by simp)]
      cases there with
      | nil => rfl
      | cons m names =>
        rw [surface_cons, get?_insert]
        by_cases hm : n = m
        · subst hm
          simp only [if_true, List.cons.injEq, true_and, surface_cons, hinner]
          exact ih h names
        · have hne : m :: names ≠ n :: (here ++ [name]) := fun hsame =>
            hm (List.cons.inj hsame).1.symm
          rw [if_neg hm, if_neg hne, surface_cons]
    · split at h <;> cases h
    · cases h

/-! ### Names in order -/

/-- The names in a directory. -/
def names : Directory → List String
  | empty => []
  | leaf n _ rest | inner n _ rest => n :: rest.names

/-- All names are names of entries, and those of a directory are in order. -/
def IsOrderly : Directory → Prop
  | empty => True
  | leaf n _ rest => FileTree.IsEntryName n ∧ (∀ m ∈ rest.names, n < m) ∧ rest.IsOrderly
  | inner n inside rest =>
    FileTree.IsEntryName n ∧ (∀ m ∈ rest.names, n < m) ∧ inside.IsOrderly ∧ rest.IsOrderly

instance decidableIsOrderly : DecidablePred IsOrderly
  | empty => isTrue trivial
  | leaf n _ rest =>
    haveI := decidableIsOrderly rest
    inferInstanceAs (Decidable
      (FileTree.IsEntryName n ∧ (∀ m ∈ rest.names, n < m) ∧ rest.IsOrderly))
  | inner n inside rest =>
    haveI := decidableIsOrderly inside
    haveI := decidableIsOrderly rest
    inferInstanceAs (Decidable
      (FileTree.IsEntryName n ∧ (∀ m ∈ rest.names, n < m) ∧ inside.IsOrderly ∧ rest.IsOrderly))

end Directory

/-- The names below an entry are in order. -/
def Entry.IsOrderly : Entry → Prop
  | .leaf _ => True
  | .directory inside => inside.IsOrderly

namespace Directory

variable {d d' inside : Directory} {e : Entry} {name : String} {here there : Location}

theorem names_cons (name : String) (e : Entry) (d : Directory) :
    (cons name e d).names = name :: d.names := by
  cases e <;> rfl

theorem isOrderly_cons_iff : (cons name e d).IsOrderly ↔
    FileTree.IsEntryName name ∧ (∀ m ∈ d.names, name < m) ∧ e.IsOrderly ∧ d.IsOrderly := by
  cases e with
  | leaf l => simp [cons, IsOrderly, Entry.IsOrderly]
  | directory inside => rfl

/-- Every directory is empty or has a first entry. -/
theorem eq_empty_or_cons (d : Directory) :
    d = empty ∨ ∃ name e rest, d = cons name e rest := by
  cases d with
  | empty => exact .inl rfl
  | leaf n l rest => exact .inr ⟨n, .leaf l, rest, rfl⟩
  | inner n inside rest => exact .inr ⟨n, .directory inside, rest, rfl⟩

theorem mem_names_iff : name ∈ d.names ↔ (d.get? name).isSome := by
  induction d with
  | empty => simp [names, get?]
  | leaf n l rest ih | inner n inside rest _ ih =>
    rw [names, List.mem_cons, get?, ih]
    by_cases h : n = name
    · simp [h]
    · simp [h, Ne.symm h]

theorem mem_names_insert {m : String} :
    m ∈ (d.insert name e).names ↔ m = name ∨ m ∈ d.names := by
  rw [mem_names_iff, mem_names_iff, get?_insert]
  by_cases h : name = m
  · simp [h]
  · simp [h, Ne.symm h]

theorem IsOrderly.get? (hd : d.IsOrderly) (h : d.get? name = some e) :
    FileTree.IsEntryName name ∧ e.IsOrderly := by
  induction d with
  | empty => cases h
  | leaf n l rest ih =>
    rw [Directory.get?] at h
    split at h
    · next hn =>
      cases h
      exact ⟨hn ▸ hd.1, trivial⟩
    · exact ih hd.2.2 h
  | inner n inside rest _ ih =>
    rw [Directory.get?] at h
    split at h
    · next hn =>
      cases h
      exact ⟨hn ▸ hd.1, hd.2.2.1⟩
    · exact ih hd.2.2.2 h

theorem IsOrderly.insert (hd : d.IsOrderly) (hname : FileTree.IsEntryName name)
    (he : e.IsOrderly) : (d.insert name e).IsOrderly := by
  have hstep : ∀ {n : String} {x : Entry} {rest : Directory}, (cons n x rest).IsOrderly →
      (rest.insert name e).IsOrderly →
      ((if n = name then cons name e rest
        else if name < n then cons name e (cons n x rest)
        else cons n x (rest.insert name e) : Directory)).IsOrderly := by
    intro n x rest hcons hinsert
    obtain ⟨hn, hless, hx, hrest⟩ := isOrderly_cons_iff.1 hcons
    split
    · next heq => exact isOrderly_cons_iff.2 ⟨hname, heq ▸ hless, he, hrest⟩
    split
    · next hlt =>
      refine isOrderly_cons_iff.2 ⟨hname, fun m hm => ?_, he, hcons⟩
      rw [names_cons, List.mem_cons] at hm
      rcases hm with rfl | hm
      · exact hlt
      · exact hlt.trans (hless m hm)
    · next hne hnot =>
      refine isOrderly_cons_iff.2 ⟨hn, fun m hm => ?_, hx, hinsert⟩
      rcases mem_names_insert.1 hm with rfl | hm
      · exact lt_of_le_of_ne (not_lt.1 hnot) hne
      · exact hless m hm
  induction d with
  | empty => exact isOrderly_cons_iff.2 ⟨hname, nofun, he, trivial⟩
  | leaf n l rest ih =>
    have hcons : (cons n (.leaf l) rest).IsOrderly :=
      isOrderly_cons_iff.2 ⟨hd.1, hd.2.1, trivial, hd.2.2⟩
    exact hstep (x := .leaf l) hcons (ih hd.2.2)
  | inner n inside rest _ ih => exact hstep (x := .directory inside) hd (ih hd.2.2.2)

theorem IsOrderly.put (hd : d.IsOrderly) (he : e.IsOrderly)
    (hhere : ∀ name ∈ here.getLast?, FileTree.IsEntryName name) : (d.put here e).IsOrderly := by
  induction here generalizing d with
  | nil => exact hd
  | cons n names ih =>
    cases names with
    | nil => exact hd.insert (hhere n rfl) he
    | cons m names =>
      rw [Directory.put]
      · split
        · next below hbelow =>
          obtain ⟨hn, hinside⟩ := hd.get? hbelow
          exact hd.insert hn (ih hinside hhere)
        · exact hd
      · exact List.cons_ne_nil m names

theorem IsOrderly.at? (hd : d.IsOrderly) (h : d.at? here = some e) : e.IsOrderly := by
  induction here generalizing d with
  | nil =>
    cases h
    exact hd
  | cons n names ih =>
    rw [Directory.at?] at h
    split at h
    · next below hbelow => exact ih (hd.get? hbelow).2 h
    · split at h
      · cases h
        trivial
      · cases h
    · cases h

/-! ### Directories that show the same -/

theorem surface_of_not_mem (h : name ∉ d.names) (names : Location) :
    d.surface (name :: names) = none := by
  rw [mem_names_iff, Option.not_isSome_iff_eq_none] at h
  rw [surface_cons, h]

theorem surface_cons_of_ne {m : String} (h : name ≠ m) (names : Location) :
    (cons name e d).surface (m :: names) = d.surface (m :: names) := by
  rw [surface_cons, surface_cons, get?_cons, if_neg h]

theorem surface_cons_self (name : String) (e : Entry) (d : Directory) :
    (cons name e d).surface [name] = some e.surface := by
  rw [surface_singleton, get?_cons, if_pos rfl]
  rfl

theorem surface_cons_directory (name : String) (inside d : Directory) (names : Location) :
    (cons name (.directory inside) d).surface (name :: names) = inside.surface names := by
  rw [surface_cons, get?_cons, if_pos rfl]

/-- In order, a first name is shown by another directory at its first place or behind it. -/
theorem le_of_surface_eq {n n' : String} {e e' : Entry}
    (hd' : (cons n' e' d').IsOrderly)
    (h : ∀ here, (cons n e d).surface here = (cons n' e' d').surface here) : n' ≤ n := by
  have hmem : n ∈ (cons n' e' d').names := by
    rw [mem_names_iff, ← at?_singleton, ← isSome_surface, ← h, surface_cons_self]
    rfl
  rw [names_cons, List.mem_cons] at hmem
  rcases hmem with rfl | hmem
  · exact le_rfl
  · exact ((isOrderly_cons_iff.1 hd').2.1 n hmem).le

theorem surface_rest_of_eq {e e' : Entry} (hd : (cons name e d).IsOrderly)
    (hd' : (cons name e' d').IsOrderly)
    (h : ∀ here, (cons name e d).surface here = (cons name e' d').surface here)
    (here : Location) : d.surface here = d'.surface here := by
  have hnot : ∀ {x : Entry} {rest : Directory}, (cons name x rest).IsOrderly →
      name ∉ rest.names := fun hx hmem =>
    lt_irrefl name ((isOrderly_cons_iff.1 hx).2.1 name hmem)
  cases here with
  | nil => rfl
  | cons m names =>
    by_cases hm : name = m
    · subst hm
      rw [surface_of_not_mem (hnot hd), surface_of_not_mem (hnot hd')]
    · rw [← surface_cons_of_ne hm, h, surface_cons_of_ne hm]

/-- Directories with names in order that show the same are equal. -/
theorem ext (hd : d.IsOrderly) (hd' : d'.IsOrderly) (h : ∀ here, d.surface here = d'.surface here) :
    d = d' := by
  -- a first entry comes first in the other directory too
  have hfirst : ∀ {n : String} {x : Entry} {rest d' : Directory}, (cons n x rest).IsOrderly →
      d'.IsOrderly → (∀ here, (cons n x rest).surface here = d'.surface here) →
      ∃ x' rest', d' = cons n x' rest' ∧ x'.surface = x.surface ∧
        ∀ here, rest.surface here = rest'.surface here := by
    intro n x rest d' hd hd' h
    rcases eq_empty_or_cons d' with rfl | ⟨n', x', rest', rfl⟩
    · have hself := surface_cons_self n x rest
      rw [h] at hself
      cases hself
    · obtain rfl : n' = n := le_antisymm (le_of_surface_eq hd' h)
        (le_of_surface_eq hd fun here => (h here).symm)
      have hself := surface_cons_self n' x' rest'
      rw [← h, surface_cons_self] at hself
      exact ⟨x', rest', rfl, (Option.some.inj hself).symm, surface_rest_of_eq hd hd' h⟩
  induction d generalizing d' with
  | empty =>
    rcases eq_empty_or_cons d' with rfl | ⟨n, x, rest, rfl⟩
    · rfl
    · have hself := surface_cons_self n x rest
      rw [← h] at hself
      cases hself
  | leaf n l rest ih =>
    have hcons : (cons n (.leaf l) rest).IsOrderly :=
      isOrderly_cons_iff.2 ⟨hd.1, hd.2.1, trivial, hd.2.2⟩
    obtain ⟨x', rest', rfl, hx, hrest⟩ := hfirst hcons hd' h
    cases x' with
    | directory inside => cases hx
    | leaf l' =>
      cases hx
      rw [ih hd.2.2 (isOrderly_cons_iff.1 hd').2.2.2 hrest]
      rfl
  | inner n inside rest ihinside ih =>
    obtain ⟨x', rest', rfl, hx, hrest⟩ := hfirst (x := .directory inside) hd hd' h
    cases x' with
    | leaf l => cases hx
    | directory inside' =>
      have hinside : ∀ here, inside.surface here = inside'.surface here := fun here => by
        rw [← surface_cons_directory n inside rest, ← surface_cons_directory n inside' rest']
        exact h _
      obtain ⟨-, -, horderly, horderly'⟩ := isOrderly_cons_iff.1 hd'
      rw [ihinside hd.2.2.1 horderly hinside, ih hd.2.2.2 horderly' hrest]
      rfl

end Directory

/-! ### Paths -/

namespace FileTree

variable {t s t' : FileTree} {root root' inside : Directory} {here there : Location} {links : Nat}
  {steps : List String} {p : Path}

/-- All names in the tree are names of entries, and those of a directory are in order. -/
def IsOrderly (t : FileTree) : Prop := t.root.IsOrderly

/-- What the tree shows at a location. -/
def surface (t : FileTree) (here : Location) : Option (Option Leaf) := t.root.surface here

/-- Trees with names in order that show the same are equal. -/
theorem ext_of_surface (ht : t.IsOrderly) (hs : s.IsOrderly) (hhome : t.home = s.home)
    (h : ∀ here, t.surface here = s.surface here) : t = s := by
  obtain ⟨root, home⟩ := t
  obtain ⟨root', home'⟩ := s
  obtain rfl : root = root' := Directory.ext ht hs h
  obtain rfl : home = home' := hhome
  rfl

/-- Where a walk ends, there is something. -/
theorem isSome_surface_of_walk (hroot : root.hasLink = false) (hne : steps ≠ [])
    (h : walk root false links here steps = .ok there) : (root.surface there).isSome := by
  induction steps generalizing here with
  | nil => exact absurd rfl hne
  | cons step rest ih =>
    rw [walk_cons hroot] at h
    split at h
    · cases h
    · cases h
    · next inside hinside =>
      simp only [Bool.false_and, Bool.false_eq_true, if_false] at h
      -- the walk ends at the next location, or else goes on from there
      have hnext : ∀ next, (root.surface next).isSome →
          walk root false links next rest = .ok there → (root.surface there).isSome := by
        intro next hnext hrest
        cases rest with
        | nil =>
          rw [walk] at hrest
          cases hrest
          exact hnext
        | cons step' rest => exact ih (List.cons_ne_nil _ _) hrest
      have hhere : (root.surface here).isSome := by
        rw [Directory.isSome_surface, hinside]
        rfl
      split at h
      · exact hnext here hhere h
      split at h
      · refine hnext _ ?_ h
        cases here with
        | nil => exact hhere
        | cons n names =>
          rw [Directory.surface_dropLast hhere (List.cons_ne_nil _ _)]
          rfl
      split at h
      · next hstep =>
        refine hnext _ ?_ h
        rw [Directory.surface_concat hinside, Option.isSome_map]
        exact hstep
      · cases h

/-- A walk leads to the same location in every tree that has the directories on its way and
something at its end. -/
theorem walk_of_surface (hroot : root.hasLink = false) (hroot' : root'.hasLink = false)
    (hdirs : ∀ here, root.surface here = some none → root'.surface here = some none)
    (h : walk root false links here steps = .ok there) (hthere : (root'.surface there).isSome) :
    walk root' false links here steps = .ok there := by
  induction steps generalizing here with
  | nil => rwa [walk] at h ⊢
  | cons step rest ih =>
    rw [walk_cons hroot] at h
    rw [walk_cons hroot']
    split at h
    · cases h
    · cases h
    · next below hbelow =>
      obtain ⟨below', hbelow'⟩ := Directory.surface_eq_directory_iff.1
        (hdirs here (Directory.surface_eq_directory_iff.2 ⟨below, hbelow⟩))
      simp only [hbelow', Bool.false_and, Bool.false_eq_true, if_false] at h ⊢
      split at h
      · next hstays => rw [if_pos hstays]; exact ih h
      next hstays =>
      rw [if_neg hstays]
      split at h
      · next hup => rw [if_pos hup]; exact ih h
      next hup =>
      rw [if_neg hup]
      split at h
      · -- the name is the end, or else the walk goes on from a directory
        have hnext : (root'.surface (here ++ [step])).isSome := by
          cases rest with
          | nil =>
            rw [walk] at h
            cases h
            exact hthere
          | cons step' rest =>
            rw [walk_cons hroot] at h
            split at h
            · cases h
            · cases h
            · next next hnext =>
              rw [hdirs _ (Directory.surface_eq_directory_iff.2 ⟨next, hnext⟩)]
              rfl
        rw [Directory.surface_concat hbelow', Option.isSome_map] at hnext
        rw [hnext, if_pos rfl]
        exact ih h
      · cases h

theorem steps_ne_nil (p : Path) : p.steps ≠ [] := by
  rw [Path.steps, ne_eq, List.map_eq_nil_iff]
  exact List.splitOn_ne_nil _ _

/-- A path that leads somewhere is not empty, and its steps lead there. -/
theorem locate_eq_ok_iff : t.locate p = .ok here ↔
    p.text.isEmpty = false ∧ t.landing p = .ok here := by
  rw [locate, follow, landing]
  cases p.text.isEmpty with
  | true => simp
  | false => simp

theorem isSome_surface_of_locate (ht : t.IsLinkless) (h : t.locate p = .ok here) :
    (t.surface here).isSome :=
  isSome_surface_of_walk ht (steps_ne_nil p) (locate_eq_ok_iff.1 h).2

theorem isDirectory_iff : t.isDirectory p = true ↔
    ∃ here, t.locate p = .ok here ∧ t.surface here = some none := by
  unfold isDirectory directory? entry?
  cases hp : t.locate p with
  | error e => simp [Except.toOption]
  | ok here =>
    simp only [Except.toOption, Option.bind_some, Except.ok.injEq, exists_eq_left', surface,
      Directory.surface_eq_directory_iff]
    cases t.root.at? here with
    | none => simp
    | some e => cases e <;> simp

theorem isFile_iff : t.isFile p = true ↔
    ∃ here content, t.locate p = .ok here ∧ t.surface here = some (some (.file content)) := by
  unfold isFile entry?
  cases hp : t.locate p with
  | error e => simp [Except.toOption]
  | ok here =>
    simp only [Except.toOption, Option.bind_some, Except.ok.injEq, surface,
      Directory.surface_eq_leaf_iff]
    cases hat : t.root.at? here with
    | none => simp [hat]
    | some e =>
      cases e with
      | directory inside => simp [hat]
      | leaf l => cases l <;> simp [hat]

/-! ### Trees that agree outside of some locations -/

/-- Two trees without links show the same outside of the locations `X`, none of which is a
directory in the first tree. -/
structure Agree (X : Location → Prop) (t s : FileTree) : Prop where
  linkless : t.IsLinkless
  linkless' : s.IsLinkless
  home : s.home = t.home
  surface : ∀ here, ¬X here → s.surface here = t.surface here
  free : ∀ here, X here → t.surface here ≠ some none

namespace Agree

variable {X : Location → Prop}

theorem refl (ht : t.IsLinkless) (hX : ∀ here, X here → t.surface here ≠ some none) :
    Agree X t t :=
  ⟨ht, ht, rfl, fun _ _ => rfl, hX⟩

theorem directory (h : Agree X t s) (hdir : t.surface here = some none) :
    s.surface here = some none := by
  by_cases hX : X here
  · exact absurd hdir (h.free here hX)
  · rw [h.surface here hX, hdir]

theorem walk (h : Agree X t s) (hwalk : walk t.root false links here steps = .ok there)
    (hthere : (s.surface there).isSome) :
    FileTree.walk s.root false links here steps = .ok there :=
  walk_of_surface h.linkless h.linkless' (fun _ => h.directory) hwalk hthere

/-- A path leads to where it led before, if something is still there. -/
theorem locate (h : Agree X t s) (hp : t.locate p = .ok here) (hhere : (s.surface here).isSome) :
    s.locate p = .ok here := by
  rw [locate_eq_ok_iff] at hp ⊢
  refine ⟨hp.1, ?_⟩
  rw [landing, h.home]
  exact h.walk hp.2 hhere

/-- A path that leads outside of the locations leads there in both trees. -/
theorem locate_of_not (h : Agree X t s) (hp : t.locate p = .ok here) (hX : ¬X here) :
    s.locate p = .ok here := by
  refine h.locate hp ?_
  rw [h.surface here hX]
  exact isSome_surface_of_locate h.linkless hp

theorem isFile (h : Agree X t s) (hp : t.locate p = .ok here) (hX : ¬X here) :
    s.isFile p = t.isFile p := by
  rw [Bool.eq_iff_iff, isFile_iff, isFile_iff, hp, h.locate_of_not hp hX]
  simp only [Except.ok.injEq, exists_and_left, exists_eq_left', h.surface here hX]

theorem isDirectory (h : Agree X t s) (hdir : t.isDirectory p = true) : s.isDirectory p = true := by
  obtain ⟨here, hp, hhere⟩ := isDirectory_iff.1 hdir
  have hX : ¬X here := fun hX => h.free here hX hhere
  exact isDirectory_iff.2 ⟨here, h.locate_of_not hp hX, h.directory hhere⟩

/-- A text outside of the locations is read in both trees. -/
theorem read (h : Agree X t s) (hp : t.locate p = .ok here) (hX : ¬X here) :
    s.read p = t.read p := by
  have hsurface := h.surface here hX
  unfold FileTree.surface Directory.surface at hsurface
  rw [FileTree.read, FileTree.read, hp, h.locate_of_not hp hX]
  simp only [bind, Except.bind]
  -- what is read depends on what is shown only
  cases ht : t.root.at? here with
  | none =>
    rw [ht, Option.map_none, Option.map_eq_none_iff] at hsurface
    rw [hsurface]
  | some e =>
    rw [ht, Option.map_some, Option.map_eq_some_iff] at hsurface
    obtain ⟨e', he', hsame⟩ := hsurface
    rw [he']
    cases e <;> cases e' <;> cases hsame <;> rfl

end Agree

end FileTree

end RowMapping
