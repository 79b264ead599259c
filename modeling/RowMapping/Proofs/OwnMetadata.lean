import Mathlib.Data.List.Forall2
import RowMapping.Proofs.Declared
import RowMapping.Proofs.MetadataText
/-!
# Metadata that a class writes for itself

The specializations that are written for a class and its enums may be put below the header.  The
class is then resolved as before, but all of its types are specialized, so that nothing is written a
second time.

* `EnumMapping.resolve_append`: resolving a mapping against a longer text;
* `Entity.metadataLines`, `Entity.specialized`: what is written, and the entity that has it;
* `Entity.IsSearchable`: names and pairs that the search can tell apart;
* `Entity.exists_form_of_mem_metaEnums`: what is written for an enum, and what stands in front;
* `DeclaredClass.exists_pairs_ne_written`: a pair that is written and not read;
* `DeclaredClass.resolve_textWith`: the written metadata is recognized.
-/

namespace RowMapping

open Text RowMapping.Specialization Mapping

/-! ### Longer headers -/

section

variable {source ext : List Char} {scope file type : String} {d m : EnumMapping}

theorem Specialization.occurs_append (h : occurs source type = true) (ext : List Char) :
    occurs (source ++ ext) type = true :=
  occursFor_append_right h ext

/-- Pairs that a header gives for a type are those of every longer header. -/
theorem Specialization.pairs_append (ht : IsPlain type.toList)
    (h : Specialization.pairs source type ≠ []) (ext : List Char) :
    Specialization.pairs (source ++ ext) type = Specialization.pairs source type ∧
      occurs source type = true := by
  unfold Specialization.pairs at h ⊢
  cases hbody : firstBody? type.toList source with
  | none => exact absurd (by rw [hbody]; rfl) h
  | some body =>
    exact ⟨by rw [firstBody?_append_right ht hbody], occursFor_of_firstBody? ht hbody⟩

namespace EnumMapping

/-- A mapping keeps the pairs of its tags or else takes those of the header, of which there are
some. -/
theorem resolve_eq_ok_iff : resolve source scope file d = .ok m ↔
    m = { d with
      pairs := if d.pairs = [] then Specialization.pairs source (Name.bare d.type) else d.pairs
      hasMeta := occurs source (Name.bare d.type) } ∧ m.pairs ≠ [] := by
  unfold resolve
  simp only [List.isEmpty_iff]
  generalize (if d.pairs = [] then _ else _) = pairs
  by_cases hpairs : pairs = []
  · rw [if_pos hpairs]
    constructor
    · intro h
      cases h
    · rintro ⟨hm, hne⟩
      exact absurd (hm ▸ hpairs) hne
  · rw [if_neg hpairs, Except.ok.injEq, eq_comm]
    exact ⟨fun h => ⟨h, h ▸ hpairs⟩, fun h => h.1⟩

/-- Against a longer header in which its type is specialized, a mapping is resolved as before. -/
theorem resolve_append (ht : IsPlain (Name.bare d.type).toList)
    (h : resolve source scope file d = .ok m)
    (hoccurs : occurs (source ++ ext) (Name.bare d.type) = true) :
    resolve (source ++ ext) scope file d = .ok { m with hasMeta := true } := by
  obtain ⟨rfl, hne⟩ := resolve_eq_ok_iff.1 h
  refine resolve_eq_ok_iff.2 ⟨?_, hne⟩
  rw [hoccurs]
  by_cases hpairs : d.pairs = []
  · simp only [hpairs, if_true] at hne ⊢
    rw [(pairs_append ht hne ext).1]
  · simp only [hpairs, if_false]

/-- A mapping whose type is not specialized has its pairs from tags. -/
theorem pairs_eq_of_hasMeta (ht : IsPlain (Name.bare d.type).toList)
    (h : resolve source scope file d = .ok m) (hmeta : m.hasMeta = false) : m.pairs = d.pairs := by
  obtain ⟨rfl, hne⟩ := resolve_eq_ok_iff.1 h
  by_cases hpairs : d.pairs = []
  · simp only [hpairs, if_true] at hne
    rw [(pairs_append ht hne []).2] at hmeta
    cases hmeta
  · simp only [hpairs, if_false]

end EnumMapping

end

/-! ### The types that are written -/

namespace Mapping

variable {l : List (String × List EnumPair)} {seen : List String} {type : String}
  {pairs : List EnumPair}

theorem of_mem_firstOfType {g : String × List EnumPair} (h : g ∈ firstOfType seen l) :
    g ∈ l ∧ g.1 ∉ seen := by
  fun_induction firstOfType seen l with
  | case1 => cases h
  | case2 seen type pairs rest hseen ih => exact (ih h).imp_left (List.mem_cons_of_mem _)
  | case3 seen type pairs rest hseen ih =>
    rcases List.mem_cons.1 h with rfl | h
    · exact ⟨List.mem_cons_self, by simpa using hseen⟩
    · obtain ⟨hmem, hnot⟩ := ih h
      exact ⟨List.mem_cons_of_mem _ hmem, fun hin => hnot (List.mem_cons_of_mem _ hin)⟩

/-- No type is written twice. -/
theorem pairwise_firstOfType (seen : List String) (l : List (String × List EnumPair)) :
    (firstOfType seen l).Pairwise fun g h => g.1 ≠ h.1 := by
  fun_induction firstOfType seen l with
  | case1 => exact .nil
  | case2 seen type pairs rest hseen ih => exact ih
  | case3 seen type pairs rest hseen ih =>
    refine List.pairwise_cons.2 ⟨fun h hh heq => ?_, ih⟩
    exact (of_mem_firstOfType hh).2 (heq ▸ List.mem_cons_self)

/-- Every type is written. -/
theorem exists_mem_firstOfType {g : String × List EnumPair} (h : g ∈ l) (hseen : g.1 ∉ seen) :
    ∃ pairs, (g.1, pairs) ∈ firstOfType seen l := by
  fun_induction firstOfType seen l with
  | case1 => cases h
  | case2 seen type pairs rest hin ih =>
    rcases List.mem_cons.1 h with rfl | h
    · exact absurd (by simpa using hin) hseen
    · exact ih h hseen
  | case3 seen type pairs rest hin ih =>
    rcases List.mem_cons.1 h with rfl | h
    · exact ⟨pairs, List.mem_cons_self⟩
    · by_cases heq : g.1 = type
      · exact ⟨pairs, heq ▸ List.mem_cons_self⟩
      · obtain ⟨pairs', hmem⟩ := ih h (by simp [heq, hseen])
        exact ⟨pairs', List.mem_cons_of_mem _ hmem⟩

/-- In a list with something between two parts, a part has parts in front. -/
theorem exists_intersperse {α : Type} (sep x : α) (front back : List α) :
    ∃ a z, (front ++ x :: back).intersperse sep = a ++ x :: z ∧ ∀ y ∈ a, y = sep ∨ y ∈ front := by
  induction front with
  | nil =>
    cases back with
    | nil => exact ⟨[], [], rfl, by simp⟩
    | cons b back => exact ⟨[], _, List.intersperse_cons_cons, by simp⟩
  | cons w front ih =>
    obtain ⟨a, z, hall, hfront⟩ := ih
    obtain ⟨u, us, hus⟩ : ∃ u us, front ++ x :: back = u :: us :=
      List.exists_cons_of_ne_nil (by simp)
    refine ⟨w :: sep :: a, z, ?_, ?_⟩
    · rw [List.cons_append, hus, List.intersperse_cons_cons, ← hus, hall]
      rfl
    · rintro y hy
      rcases List.mem_cons.1 hy with rfl | hy
      · exact .inr List.mem_cons_self
      rcases List.mem_cons.1 hy with rfl | hy
      · exact .inl rfl
      · exact (hfront y hy).imp_right (List.mem_cons_of_mem w)

/-- The lines of blocks with an empty line between two are empty or come from a block. -/
theorem mem_flatten_intersperse {blocks : List (List String)} {line : String}
    (h : line ∈ (blocks.intersperse [""]).flatten) : line = "" ∨ ∃ block ∈ blocks, line ∈ block := by
  induction blocks with
  | nil => cases h
  | cons block blocks ih =>
    cases blocks with
    | nil => exact .inr ⟨block, List.mem_cons_self, by simpa using h⟩
    | cons next blocks =>
      rw [List.intersperse_cons_cons, List.flatten_cons, List.flatten_cons, List.mem_append,
        List.mem_append] at h
      rcases h with h | h | h
      · exact .inr ⟨block, List.mem_cons_self, h⟩
      · exact .inl (List.mem_singleton.1 h)
      · exact (ih h).imp_right fun ⟨b, hb, hline⟩ => ⟨b, List.mem_cons_of_mem block hb, hline⟩

theorem mem_enumMetas {e : Entity} {line : String} (h : line ∈ enumMetas e) :
    line = "" ∨ ∃ type pairs, (type, pairs) ∈ e.metaEnums ∧ line ∈ enumMeta type pairs := by
  refine (mem_flatten_intersperse h).imp_right ?_
  rintro ⟨block, hblock, hline⟩
  obtain ⟨⟨type, pairs⟩, hmem, rfl⟩ := List.mem_map.1 hblock
  exact ⟨type, pairs, hmem, hline⟩

end Mapping

/-! ### The entity with its metadata -/

namespace Entity

variable {e : Entity} {type : String} {pairs : List EnumPair}

/-- The specializations for the class and for its enums. -/
def metadataLines (e : Entity) : List String := structMeta e ++ enumMetas e

/-- A header with the specializations for a class below it. -/
def textWith (e : Entity) (source after : List Char) : List Char :=
  source ++ '\n' :: (['\n'].intercalate (e.metadataLines.map String.toList) ++ after)

/-- The entity whose types are all specialized. -/
def specialized (e : Entity) : Entity :=
  { e with
    enums := e.enums.map fun m => { m with hasMeta := true }
    hasStructMeta := true }

/-- The names of the class and of its enums are paths of identifiers, by whose last ones they can be
told apart, and the pairs can be read off. -/
structure IsSearchable (e : Entity) : Prop where
  className : Name.IsPlainPath e.className.toList
  scope : e.scope = "" ∨ Name.IsPlainPath e.scope.toList
  types : ∀ m ∈ e.enums, Name.IsPlainPath m.type.toList
  eq_of_bare : ∀ m ∈ e.enums, ∀ n ∈ e.enums, Name.bare m.type = Name.bare n.type →
    Name.qualify e.scope m.type = Name.qualify e.scope n.type
  bare_ne : ∀ m ∈ e.enums, Name.bare m.type ≠ Name.bare e.className
  readable : ∀ m ∈ e.enums, ∀ p ∈ m.pairs, p.IsReadable

theorem enumMetas_specialized (e : Entity) : enumMetas e.specialized = [] := by
  have hnone : (e.specialized.enums.filter fun m => !m.hasMeta) = [] := by
    simp [specialized]
  rw [enumMetas, metaEnums, hnone]
  rfl

theorem exists_of_mem_metaEnums (h : (type, pairs) ∈ e.metaEnums) :
    ∃ m ∈ e.enums, m.hasMeta = false ∧ Name.qualify e.scope m.type = type ∧ m.pairs = pairs := by
  obtain ⟨m, hm, hpair⟩ := List.mem_map.1 (of_mem_firstOfType h).1
  obtain ⟨hmem, hmeta⟩ := List.mem_filter.1 hm
  cases hpair
  exact ⟨m, hmem, by simpa using hmeta, rfl, rfl⟩

theorem exists_mem_metaEnums {m : EnumMapping} (hm : m ∈ e.enums) (hmeta : m.hasMeta = false) :
    ∃ pairs, (Name.qualify e.scope m.type, pairs) ∈ e.metaEnums :=
  exists_mem_firstOfType (g := (Name.qualify e.scope m.type, m.pairs)) (List.mem_map.2
    ⟨m, List.mem_filter.2 ⟨hm, by simp [hmeta]⟩, rfl⟩) List.not_mem_nil

/-! ### What is written for an enum -/

variable {source after : List Char}

/-- The last segment of a qualified name, with the path in front of it. -/
theorem IsSearchable.exists_path (hs : e.IsSearchable) {name : String}
    (hname : Name.IsPlainPath name.toList) : ∃ path, IsPath path ∧
      (Name.qualify e.scope name).toList = path ++ (Name.bare name).toList ∧
      IsPlain (Name.bare name).toList ∧ Name.bare (Name.qualify e.scope name) = Name.bare name := by
  obtain ⟨path, type, heq, hpath, htype⟩ :=
    (Name.IsPlainPath.qualify hs.scope hname).exists_last
  have hbare := Name.bare_of_qualify hpath htype heq
  refine ⟨path, hpath.isPath, ?_, ?_, ?_⟩
  · rw [hbare, String.toList_ofList, heq]
  · rwa [hbare, String.toList_ofList]
  · rw [hbare, Name.bare_of_path hpath htype heq]

theorem IsSearchable.all_isPathChar (hs : e.IsSearchable) {name : String}
    (hname : Name.IsPlainPath name.toList) :
    (Name.qualify e.scope name).toList.all isPathChar = true :=
  (Name.IsPlainPath.qualify hs.scope hname).all_isPathChar

/-- A qualified name is one of a type only when both have the same last segment. -/
theorem IsSearchable.bare_eq_of_isNameOf (hs : e.IsSearchable) {name other : String}
    (hname : Name.IsPlainPath name.toList) (hother : Name.IsPlainPath other.toList)
    (h : IsNameOf (Name.bare (Name.qualify e.scope other)).toList
      (Name.qualify e.scope name).toList) : Name.bare name = Name.bare other := by
  obtain ⟨-, -, -, -, hbare⟩ := hs.exists_path hname
  obtain ⟨-, -, -, hplain, hbare'⟩ := hs.exists_path hother
  rw [hbare'] at h
  have heq := Name.bare_of_isNameOf (Name.IsPlainPath.qualify hs.scope hname) hplain h
  rw [← hbare, heq, String.ofList_toList]

theorem opened_structMeta (hname : e.structName.toList.all isPathChar = true)
    (hmembers : ∀ m ∈ e.members, m.name.toList.all isNamePart = true) :
    Opened [e.structName.toList] (below (structMeta e)) := by
  cases hmeta : e.hasStructMeta with
  | true =>
    rw [structMeta, hmeta, if_pos rfl]
    exact opened_of_not_mem List.not_mem_nil
  | false =>
    obtain ⟨back, hlines, hback⟩ := exists_below_structMeta hmeta hname hmembers
    rw [hlines]
    exact (opened_templateLine _).append (opened_headLine hname hback)

theorem below_flatten (blocks : List (List String)) :
    below blocks.flatten = blocks.flatMap below := by
  induction blocks with
  | nil => rfl
  | cons b blocks ih => rw [List.flatten_cons, below_append, ih, List.flatMap_cons]

/-- The lines for the enums, split at one of them. -/
theorem exists_enumMetas_eq {front rest : List (String × List EnumPair)}
    (h : e.metaEnums = front ++ (type, pairs) :: rest) : ∃ a z,
      enumMetas e = (a ++ enumMeta type pairs :: z).flatten ∧
        ∀ y ∈ a, y = [""] ∨ ∃ g ∈ front, enumMeta g.1 g.2 = y := by
  obtain ⟨a, z, hlines, ha⟩ := exists_intersperse [""] (enumMeta type pairs)
    (front.map fun g => enumMeta g.1 g.2) (rest.map fun g => enumMeta g.1 g.2)
  refine ⟨a, z, ?_, fun y hy => (ha y hy).imp_right List.mem_map.1⟩
  rw [enumMetas, h, List.map_append, List.map_cons]
  exact congrArg List.flatten hlines

/-- **What is written for an enum is a specialization with its pairs**, and the heads in front of it
have other names. -/
theorem exists_form_of_mem_metaEnums (hs : e.IsSearchable)
    (hmembers : ∀ m ∈ e.members, m.name.toList.all isNamePart = true)
    (hfree : ∀ g ∈ e.metaEnums, ∀ p ∈ g.2, p.IsUnbroken) (h : (type, pairs) ∈ e.metaEnums) :
    ∃ (f : Form (Name.bare type).toList) (names : List (List Char)) (between back : List Char),
      below e.metadataLines = between ++ (f.text ++ back) ∧
      (arguments? f.body).map pairsIn = some (pairs.filter (·.enumerator ≠ "")) ∧
      Opened names between ∧
      ∀ n ∈ names, n.all isPathChar = true ∧ ¬IsNameOf (Name.bare type).toList n := by
  have hreadable : ∀ g ∈ e.metaEnums, ∀ p ∈ g.2, p.IsReadable := by
    rintro ⟨t, ps⟩ hg
    obtain ⟨m, hm, -, -, rfl⟩ := exists_of_mem_metaEnums hg
    exact hs.readable m hm
  have hname : ∀ g ∈ e.metaEnums, g.1.toList.all isPathChar = true := by
    rintro ⟨t, ps⟩ hg
    obtain ⟨m, hm, -, rfl, -⟩ := exists_of_mem_metaEnums hg
    exact hs.all_isPathChar (hs.types m hm)
  obtain ⟨m, hm, -, rfl, -⟩ := exists_of_mem_metaEnums h
  obtain ⟨front, rest, hsplit⟩ := List.append_of_mem h
  have hsub : front ⊆ e.metaEnums := hsplit ▸ List.subset_append_left _ _
  obtain ⟨a, z, hall, ha⟩ := exists_enumMetas_eq hsplit
  obtain ⟨path, hpath, hqualified, hplain, hbare⟩ := hs.exists_path (hs.types m hm)
  rw [← hbare] at hqualified hplain
  obtain ⟨f, hf, hpairs⟩ := exists_enumForm hqualified hpath hplain (hreadable _ h) (hfree _ h)
  refine ⟨f, e.structName.toList :: front.map (·.1.toList),
    below (structMeta e) ++ (below a.flatten ++ (templateLine ++ ['\n'])), below z.flatten,
    ?_, hpairs, ?_, ?_⟩
  · rw [metadataLines, hall, List.flatten_append, List.flatten_cons, below_append, below_append,
      below_append, hf]
    simp only [List.append_assoc, List.cons_append, List.nil_append]
  · have hstruct := opened_structMeta (hs.all_isPathChar hs.className) hmembers
    have henums : Opened (e.structName.toList :: front.map (·.1.toList)) (below a.flatten) := by
      rw [below_flatten]
      refine Opened.flatMap fun y hy => ?_
      rcases ha y hy with rfl | ⟨g, hg, rfl⟩
      · exact opened_of_not_mem (by decide)
      · have hmem := hsub hg
        refine (opened_enumMeta (hname g hmem) (hreadable g hmem) (hfree g hmem)).mono ?_
        exact List.cons_subset.2 ⟨List.mem_cons_of_mem _ (List.mem_map.2 ⟨g, hg, rfl⟩),
          List.nil_subset _⟩
    exact (hstruct.mono (List.cons_subset.2 ⟨List.mem_cons_self, List.nil_subset _⟩)).append
      (henums.append ((opened_templateLine _).append (opened_of_not_mem (by decide))))
  · refine List.forall_mem_cons.2 ⟨⟨hs.all_isPathChar hs.className, fun hnameOf => ?_⟩, ?_⟩
    · exact hs.bare_ne m hm (hs.bare_eq_of_isNameOf hs.className (hs.types m hm) hnameOf).symm
    · rintro n hn
      obtain ⟨g, hg, rfl⟩ := List.mem_map.1 hn
      refine ⟨hname g (hsub hg), fun hnameOf => ?_⟩
      obtain ⟨m', hm', -, hg', -⟩ := exists_of_mem_metaEnums (hsub hg)
      rw [← hg'] at hnameOf
      -- an enum of the same last segment is the same type, which is written once
      have hsame := hs.eq_of_bare m' hm' m hm
        (hs.bare_eq_of_isNameOf (hs.types m' hm') (hs.types m hm) hnameOf)
      have hdistinct := pairwise_firstOfType [] ((e.enums.filter fun m => !m.hasMeta).map fun m =>
        (Name.qualify e.scope m.type, m.pairs))
      rw [← metaEnums, hsplit, List.pairwise_append] at hdistinct
      exact hdistinct.2.2 g hg _ List.mem_cons_self (hg'.symm.trans hsame)

/-! ### The header with what is written -/

/-- Below a header the lines stand as they are written. -/
theorem textWith_eq (h : e.metadataLines ≠ []) (source after : List Char) :
    e.textWith source after = source ++ (below e.metadataLines ++ after) := by
  have hlines : ∀ lines : List String, lines ≠ [] →
      '\n' :: ['\n'].intercalate (lines.map String.toList) = below lines := by
    intro lines hne
    induction lines with
    | nil => exact absurd rfl hne
    | cons l lines ih =>
      cases lines with
      | nil => simp [List.intercalate]
      | cons l' lines =>
        rw [below_cons, ← ih (List.cons_ne_nil _ _)]
        simp [List.intercalate]
  rw [textWith, ← List.cons_append, hlines _ h]

theorem metadataLines_ne_nil_of_mem (h : (type, pairs) ∈ e.metaEnums) : e.metadataLines ≠ [] := by
  obtain ⟨front, rest, hsplit⟩ := List.append_of_mem h
  obtain ⟨a, z, hall, -⟩ := exists_enumMetas_eq hsplit
  rw [metadataLines, hall]
  simp [enumMeta]

/-- What is written starts with the line in front of a head. -/
theorem startsOpen_metadataLines (h : e.metadataLines ≠ []) (after : List Char) :
    StartsOpen (below e.metadataLines ++ after) := by
  have hfirst : ∃ lines, e.metadataLines = "template<>" :: lines := by
    cases hmeta : e.hasStructMeta with
    | false => exact ⟨_, by rw [metadataLines, structMeta, hmeta]; rfl⟩
    | true =>
      rw [metadataLines, structMeta, hmeta, if_pos rfl, List.nil_append] at h ⊢
      rw [enumMetas] at h ⊢
      cases hall : e.metaEnums with
      | nil =>
        rw [hall] at h
        exact absurd rfl h
      | cons g gs =>
        obtain ⟨type, pairs⟩ := g
        cases gs with
        | nil => exact ⟨_, rfl⟩
        | cons g gs => exact ⟨_, rfl⟩
  obtain ⟨lines, hlines⟩ := hfirst
  refine ⟨'\n' :: "template".toList, '>' :: (below lines ++ after), ?_, by decide⟩
  have hline : "template<>".toList = "template".toList ++ ['<', '>'] := rfl
  rw [hlines, below_cons, hline]
  simp only [List.append_assoc, List.cons_append, List.nil_append]

end Entity

/-! ### The class that is resolved again -/

namespace DeclaredClass

variable {c : DeclaredClass} {e : Entity} {origin source : List Char} {file : String}

theorem resolve_of_attempts {enums : List EnumMapping}
    (h : c.attempts source file = .ok enums) : c.resolve source file = .ok {
      className := c.name
      scope := c.scope
      table := c.table
      model := c.model?
      members := c.members
      enums
      readOnly := c.tags.contains .readOnly
      tiers := c.tiers
      entityName := c.entityName
      hasStructMeta := occurs source c.name
      file
      line := c.line } := by
  unfold attempts at h
  unfold resolve
  rw [h]
  rfl

theorem eq_of_resolve (h : c.resolve source file = .ok e) : e = {
    className := c.name
    scope := c.scope
    table := c.table
    model := c.model?
    members := c.members
    enums := e.enums
    readOnly := c.tags.contains .readOnly
    tiers := c.tiers
    entityName := c.entityName
    hasStructMeta := occurs source c.name
    file
    line := c.line } :=
  Except.ok.inj (h.symm.trans (resolve_of_attempts (attempts_of_resolve h)))

/-- Every mapping of a resolved class comes from the tags. -/
theorem exists_draft_of_mem_enums (h : c.resolve source file = .ok e) {m : EnumMapping}
    (hm : m ∈ e.enums) : ∃ d ∈ c.enumDrafts, EnumMapping.resolve source c.scope file d = .ok m :=
  exists_of_mem_forall₂ (mapM_eq_ok_iff.1 (attempts_of_resolve h)).flip hm

section

variable (hc : c ∈ declaredClasses origin) (he : c.resolve source file = .ok e)
  (hs : e.IsSearchable) {type : String} {pairs : List EnumPair} (after : List Char)

include he in
theorem hasMeta_of_mem_enums {m : EnumMapping} (hm : m ∈ e.enums) :
    m.hasMeta = occurs source (Name.bare m.type) := by
  obtain ⟨d, -, hresolve⟩ := exists_draft_of_mem_enums he hm
  obtain ⟨rfl, -⟩ := EnumMapping.resolve_eq_ok_iff.1 hresolve
  rfl

include hc he in
theorem isNamePart_of_resolve {m : Member} (hm : m ∈ e.members) :
    m.name.toList.all isNamePart = true := by
  rw [members_of_resolve he] at hm
  exact List.all_eq_true.2 (isNamePart_of_mem_members hc hm)

include hc he hs in
/-- The pairs that are written come from tags. -/
theorem isUnbroken_of_mem_metaEnums {g : String × List EnumPair} (hg : g ∈ e.metaEnums) :
    ∀ p ∈ g.2, p.IsUnbroken := by
  obtain ⟨m, hm, hmeta, -, hpairs⟩ := Entity.exists_of_mem_metaEnums hg
  obtain ⟨d, hd, hresolve⟩ := exists_draft_of_mem_enums he hm
  have htype : m.type = d.type := by rw [(EnumMapping.resolve_eq_ok_iff.1 hresolve).1]
  obtain ⟨-, -, -, hplain, -⟩ := hs.exists_path (hs.types m hm)
  rw [← hpairs, EnumMapping.pairs_eq_of_hasMeta (htype ▸ hplain) hresolve hmeta]
  exact isUnbroken_of_mem_enumDrafts hc hd

include hc he hs in
/-- The search in the header with what is written finds what is written for an enum. -/
theorem firstBody?_textWith (h : (type, pairs) ∈ e.metaEnums) : ∃ f : Form (Name.bare type).toList,
    firstBody? (Name.bare type).toList (e.textWith source after) = some f.body ∧
    (arguments? f.body).map pairsIn = some (pairs.filter (·.enumerator ≠ "")) := by
  obtain ⟨f, names, between, back, hlines, hpairs, hbetween, hnames⟩ :=
    Entity.exists_form_of_mem_metaEnums hs (fun m hm => isNamePart_of_resolve hc he hm)
      (fun g hg => isUnbroken_of_mem_metaEnums hc he hs hg) h
  obtain ⟨m, hm, hmeta, rfl, -⟩ := Entity.exists_of_mem_metaEnums h
  obtain ⟨-, -, -, hplain, hbare⟩ := hs.exists_path (hs.types m hm)
  rw [hasMeta_of_mem_enums he hm, ← hbare] at hmeta
  rw [← hbare] at hplain
  have hstart := Entity.startsOpen_metadataLines (Entity.metadataLines_ne_nil_of_mem h) after
  rw [hlines, List.append_assoc, List.append_assoc] at hstart
  refine ⟨f, ?_, hpairs⟩
  rw [Entity.textWith_eq (Entity.metadataLines_ne_nil_of_mem h), hlines, List.append_assoc,
    List.append_assoc]
  exact firstBody?_behind hplain hmeta hbetween hnames f hstart

include hc he hs in
/-- The pairs of an enum are read from what is written for it, but for those without an
enumerator. -/
theorem pairs_textWith (h : (type, pairs) ∈ e.metaEnums) :
    Specialization.pairs (e.textWith source after) (Name.bare type) =
      pairs.filter (·.enumerator ≠ "") := by
  obtain ⟨f, hf, hpairs⟩ := firstBody?_textWith hc he hs after h
  rw [Specialization.pairs, hf, Option.bind_some, hpairs, Option.getD_some]

include hc he hs in
/-- The types of all enums are specialized in the header with what is written. -/
theorem occurs_textWith {m : EnumMapping} (hm : m ∈ e.enums) :
    occurs (e.textWith source after) (Name.bare m.type) = true := by
  cases hmeta : m.hasMeta with
  | true =>
    rw [hasMeta_of_mem_enums he hm] at hmeta
    exact occurs_append hmeta _
  | false =>
    obtain ⟨pairs, hmem⟩ := Entity.exists_mem_metaEnums hm hmeta
    obtain ⟨-, -, -, hplain, hbare⟩ := hs.exists_path (hs.types m hm)
    obtain ⟨f, hf, -⟩ := firstBody?_textWith hc he hs after hmem
    rw [← hbare] at hplain ⊢
    exact occursFor_of_firstBody? hplain hf

include hc he hs in
/-- The class is specialized in the header with what is written. -/
theorem occurs_textWith_className : occurs (e.textWith source after) c.name = true := by
  have hclass : e.className = c.name := by rw [eq_of_resolve he]
  cases hmeta : e.hasStructMeta with
  | true =>
    have hoccurs : occurs source c.name = true := by
      rw [← hmeta, eq_of_resolve he]
    exact occurs_append hoccurs _
  | false =>
    obtain ⟨back, hlines, -⟩ := exists_below_structMeta hmeta (hs.all_isPathChar hs.className)
      fun m hm => isNamePart_of_resolve hc he hm
    obtain ⟨path, hpath, hqualified, hplain, hbare⟩ := hs.exists_path hs.className
    have hne : e.metadataLines ≠ [] := by
      rw [Entity.metadataLines, structMeta, hmeta]
      exact List.cons_ne_nil _ _
    have hname : Name.bare e.className = c.name := by
      have hword : c.name.toList.all isNamePart = true :=
        List.all_eq_true.2 (isNamePart_of_className hc)
      have hplain' : IsPlain c.name.toList :=
        ⟨hclass ▸ hs.className.ne_nil, Name.all_isWord hword⟩
      rw [hclass, Name.bare_of_path ⟨rfl, .inl rfl⟩ hplain' rfl, String.ofList_toList]
    have htext : e.textWith source after = (source ++ (templateLine ++ ['\n'])) ++
        ((writtenHead c.name.toList path hpath).text ++ (back ++ (below (enumMetas e) ++ after))) := by
      rw [Entity.textWith_eq hne, Entity.metadataLines, below_append, hlines, text_writtenHead,
        Entity.structName, hqualified, hname]
      simp only [List.append_assoc, List.cons_append, List.nil_append]
    exact occursFor_iff.2 ⟨_, _, _, htext⟩

end

/-! ### A pair that is not read -/

/-- A header with an enum whose second pair lacks its enumerator. -/
def stoveHeader : List Char := (
  "namespace app \x7b\n" ++
  "// @relais table=stoves\n" ++
  "struct Stove \x7b\n" ++
  "    Heat heat; // @relais enum=hot:Hot,cold:\n" ++
  "\x7d;\n" ++
  "\x7d\n").toList

/-- The pairs of the enum. -/
def heatPairs : List EnumPair := [⟨"hot", "Hot"⟩, ⟨"cold", ""⟩]

/-- The class in the header. -/
def stove : DeclaredClass where
  name := "Stove"
  scope := "app"
  isStruct := true
  line := 3
  tags := [.table "stoves"]
  members := [⟨"heat", "Heat", "", 4, { pairs := heatPairs }⟩]

/-- The entity of the class. -/
def stoveEntity : Entity where
  className := "Stove"
  scope := "app"
  table := "stoves"
  model := none
  members := stove.members
  enums := [⟨"heat", "Heat", heatPairs, false⟩]
  readOnly := false
  tiers := []
  entityName := "app::Stove"
  hasStructMeta := false
  file := "Stove.h"
  line := 3

/-- The class is read from the header and resolved against it. -/
theorem stove_read : stove ∈ declaredClasses stoveHeader ∧
    stove.resolve stoveHeader "Stove.h" = .ok stoveEntity := by
  have hsource : stoveHeader = _ :=
    toList_append_of_eq (toList_append_of_eq (toList_append_of_eq (toList_append_of_eq
      (toList_append_of_eq String.toList_ofList String.toList_ofList) String.toList_ofList)
      String.toList_ofList) String.toList_ofList) String.toList_ofList
  rw [hsource]
  constructor <;> decide +kernel

theorem isSearchable_stove : stoveEntity.IsSearchable where
  className := .last (by decide) (by decide)
  scope := .inr (.last (by decide) (by decide))
  types := by
    rintro m (_ | ⟨_, ⟨⟩⟩)
    exact .last (by decide) (by decide)
  eq_of_bare := by
    rintro m (_ | ⟨_, ⟨⟩⟩) n (_ | ⟨_, ⟨⟩⟩) -
    rfl
  bare_ne := by decide
  readable := by
    rintro m (_ | ⟨_, ⟨⟩⟩) p (_ | ⟨_, _ | ⟨_, ⟨⟩⟩⟩)
    · exact ⟨by decide, by simp, by decide⟩
    · exact ⟨by decide, by simp, by decide⟩

/-- **A pair without an enumerator is written and not read.** -/
theorem exists_pairs_ne_written : ∃ (c : DeclaredClass) (source : List Char) (e : Entity),
    c ∈ declaredClasses source ∧ c.resolve source "Stove.h" = .ok e ∧ e.IsSearchable ∧
    e.metaEnums = [("app::Heat", [⟨"hot", "Hot"⟩, ⟨"cold", ""⟩])] ∧
    Specialization.pairs (e.textWith source []) (Name.bare "app::Heat") = [⟨"hot", "Hot"⟩] := by
  obtain ⟨hmem, hresolve⟩ := stove_read
  have henums : stoveEntity.metaEnums = [("app::Heat", heatPairs)] := by decide +kernel
  refine ⟨stove, stoveHeader, stoveEntity, hmem, hresolve, isSearchable_stove, henums, ?_⟩
  rw [pairs_textWith hmem hresolve isSearchable_stove [] (henums ▸ List.mem_cons_self)]
  rfl

/-- **A class recognizes the metadata that it wrote.**  Resolved against a header with the
specializations for the class and its enums below, and whatever text behind them, a declared class
gives the same entity with all of its types specialized, for which nothing is written.  For each
enum that was written, the pairs are read in order, but for those without an enumerator. -/
theorem resolve_textWith (hc : c ∈ declaredClasses origin) (he : c.resolve source file = .ok e)
    (hs : e.IsSearchable) (after : List Char) :
    c.resolve (e.textWith source after) file = .ok e.specialized ∧
    structMeta e.specialized = [] ∧ enumMetas e.specialized = [] ∧
    ∀ type pairs, (type, pairs) ∈ e.metaEnums →
      Specialization.pairs (e.textWith source after) (Name.bare type) =
        pairs.filter (·.enumerator ≠ "") := by
  refine ⟨?_, rfl, Entity.enumMetas_specialized e, fun type pairs h => ?_⟩
  · have hattempts : c.attempts (e.textWith source after) file = .ok e.specialized.enums := by
      have hdraft : ∀ d ∈ c.enumDrafts, IsPlain (Name.bare d.type).toList ∧
          occurs (e.textWith source after) (Name.bare d.type) = true := by
        intro d hd
        obtain ⟨m, hm, hresolve⟩ := exists_enum_of_mem_enumDrafts he hd
        have htype : m.type = d.type := by rw [(EnumMapping.resolve_eq_ok_iff.1 hresolve).1]
        obtain ⟨-, -, -, hplain, -⟩ := hs.exists_path (hs.types m hm)
        exact htype ▸ ⟨hplain, occurs_textWith hc he hs after hm⟩
      rw [attempts, mapM_eq_ok_iff, Entity.specialized, List.forall₂_map_right_iff]
      refine ((List.forall₂_and_left _ _).2
        ⟨hdraft, mapM_eq_ok_iff.1 (attempts_of_resolve he)⟩).imp ?_
      rintro d m ⟨⟨hplain, hoccurs⟩, hresolve⟩
      exact EnumMapping.resolve_append hplain hresolve hoccurs
    have hentity := resolve_of_attempts hattempts
    rw [occurs_textWith_className hc he hs after] at hentity
    rw [hentity, Entity.specialized, eq_of_resolve he]
  · exact pairs_textWith hc he hs after h

/-- The class is resolved again from the header with what it wrote, and one pair is read. -/
theorem resolve_textWith_stove :
    stove ∈ declaredClasses stoveHeader ∧
    stove.resolve stoveHeader "Stove.h" = .ok stoveEntity ∧ stoveEntity.IsSearchable ∧
    stove.resolve (stoveEntity.textWith stoveHeader ['\n']) "Stove.h" = .ok stoveEntity.specialized ∧
    Specialization.pairs (stoveEntity.textWith stoveHeader ['\n']) (Name.bare "app::Heat") =
      [⟨"hot", "Hot"⟩] := by
  obtain ⟨hmem, hresolve⟩ := stove_read
  obtain ⟨hentity, -, -, hpairs⟩ := resolve_textWith hmem hresolve isSearchable_stove ['\n']
  refine ⟨hmem, hresolve, isSearchable_stove, hentity, ?_⟩
  rw [hpairs "app::Heat" heatPairs (by decide +kernel)]
  rfl

end DeclaredClass

end RowMapping
