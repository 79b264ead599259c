import RowMapping.Mapping.Header
import RowMapping.Proofs.ClassAttributes
import RowMapping.Proofs.SpecializedTypes
/-!
# Names of nested classes

An annotated class may stand inside of the bodies of other classes.  Its name is qualified with the
namespaces around it all the same, and the classes around it are left out of the name.

The walk over a header jumps over the heads of the classes that it finds, so that braces in them
open and close nothing.

* `headless`, `headlessTokens`: the tokens without the heads of some classes;
* `classSites`: the classes that the walk finds;
* `namespacesAround`, `classesAround`: the names of what is open at a place;
* `fullName`: the name of a class with all that is around it;
* `PassedTo`, `PassedTo.step`, `PassedTo.scope_of_mem_sites`: what holds when the walk comes to a
  place, and the namespace of a class that it finds from there on;
* `Entity.IsCalled`: the name that the generated code gives to the class;
* `exists_nested_without_outer_name`: two nested classes with one name;
* `structName_around`: the name of every annotated class.
-/

namespace RowMapping

open Declaration Mapping Text Token

/-! ### What is around a place -/

/-- The tokens without the heads of the classes with these names: of a head, the tokens from the
name up to the brace that opens the body are left out. -/
def headless (names : List Token) : List Token → List Token
  | [] => []
  | t :: ts =>
    if t ∈ names then headless names ((bodyOf? 0 ts).getD ts) else t :: headless names ts
termination_by ts => ts.length
decreasing_by
  · cases h : bodyOf? 0 ts with
    | none => simp
    | some body =>
      have hbody := length_bodyOf?_le h
      simp only [Option.getD_some, List.length_cons]
      omega
  · simp

/-- The annotated classes of a header, as the walk finds them. -/
def classSites (source : List Char) : List ClassSite := WalkState.start.sites (Token.ofText source)

/-- The tokens of a header without the heads of its annotated classes. -/
def headlessTokens (source : List Char) : List Token :=
  headless ((classSites source).map ClassSite.name) (Token.ofText source)

/-- The names of the namespaces that are open at a token of a header, the outermost first. -/
def namespacesAround (source : List Char) (place : Token) : List String :=
  (scopesAround [] ((headlessTokens source).takeWhile (· ≠ place))).filterMap Scope.name?

/-- The names of the classes whose bodies are opened by the tokens behind `front` and not closed by
them, the outermost first. -/
def classesBehind (front : List Token) : List Token → List String
  | [] => []
  | t :: ts =>
    (match if t.isClassKeyword then classHead? (lastCode front) ts else none with
      | some (name, body) => if StaysOpen body.tail then [name.text] else []
      | none => []) ++ classesBehind (front ++ [t]) ts

/-- The names of the classes whose bodies are open at a token of a header, the outermost first. -/
def classesAround (source : List Char) (place : Token) : List String :=
  classesBehind [] ((Token.ofText source).takeWhile (· ≠ place))

/-- The name of a class with the namespaces and the classes around its keyword. -/
def fullName (source : List Char) (keyword name : Token) : String :=
  "::".intercalate (namespacesAround source keyword ++ classesAround source keyword ++ [name.text])

/-- The definition of the class begins with this keyword. -/
def ClassSite.BeginsAt (s : ClassSite) (source : List Char) (keyword : Token) : Prop :=
  [keyword, s.name] <:+: Token.ofText source ∧ keyword.isClassKeyword = true ∧
    s.isStruct = keyword.reads "struct"

instance (s : ClassSite) (source : List Char) (keyword : Token) :
    Decidable (s.BeginsAt source keyword) :=
  inferInstanceAs (Decidable (_ ∧ _ ∧ _))

section

variable {names ts a : List Token} {t : Token} {source : List Char}

theorem headless_append_of_not_mem (h : ∀ t ∈ a, t ∉ names) (ts : List Token) :
    headless names (a ++ ts) = a ++ headless names ts := by
  induction a with
  | nil => rfl
  | cons t a ih =>
    obtain ⟨ht, ha⟩ := List.forall_mem_cons.1 h
    rw [List.cons_append, headless, if_neg ht, ih ha, List.cons_append]

theorem headless_sublist (names ts : List Token) : (headless names ts).Sublist ts := by
  fun_induction headless names ts with
  | case1 => exact .slnil
  | case2 t ts _ ih =>
    refine ih.trans (List.Sublist.cons t ?_)
    cases h : bodyOf? 0 ts with
    | none => exact .refl ts
    | some body =>
      obtain ⟨front, rfl, -⟩ := exists_bodyOf? h
      exact List.sublist_append_right front body
  | case3 t ts _ ih => exact ih.cons_cons t

/-- What is left in front of a token that is left. -/
theorem takeWhile_headlessTokens {front back : List Token}
    (h : headlessTokens source = front ++ t :: back) :
    (headlessTokens source).takeWhile (· ≠ t) = front := by
  have hnodup : (headlessTokens source).Nodup :=
    (nodup_ofText source).sublist (headless_sublist _ _)
  rw [h, List.nodup_append] at hnodup
  have hfront : ∀ u ∈ front, decide (u ≠ t) = true := fun u hu =>
    decide_eq_true (hnodup.2.2 u hu t List.mem_cons_self)
  rw [h, List.takeWhile_append_of_pos hfront, List.takeWhile_cons_of_neg (by simp),
    List.append_nil]

/-- A class begins at one keyword only. -/
theorem ClassSite.BeginsAt.keyword_eq {s : ClassSite} {keyword keyword' : Token}
    (h : s.BeginsAt source keyword) (h' : s.BeginsAt source keyword') : keyword = keyword' := by
  obtain ⟨⟨a, b, hab⟩, -⟩ := h
  obtain ⟨⟨a', b', hab'⟩, -⟩ := h'
  rw [List.append_assoc, List.cons_append, List.singleton_append, List.append_cons] at hab hab'
  obtain ⟨hfront, -⟩ := append_cons_inj_of_ofText hab.symm hab'.symm
  exact List.singleton_inj.1 (List.append_inj_right' hfront rfl)

end

/-! ### The walk -/

/-- What holds when the walk over a header has passed the tokens `passed` and `ts` are next: without
the heads of the annotated classes, `front` is what has been passed.  The names of these classes are
behind the walk or in front of it. -/
structure PassedTo (source : List Char) (s : WalkState) (passed front ts : List Token) : Prop where
  text : Token.ofText source = passed ++ ts
  rest : headlessTokens source = front ++ headless ((classSites source).map ClassSite.name) ts
  walked : Walked s.before s.scopes front ts
  placed : ∀ n ∈ (classSites source).map ClassSite.name,
    n ∈ passed ∨ n ∈ (s.sites ts).map ClassSite.name
  found : ∀ site ∈ s.sites ts, site.name ∈ (classSites source).map ClassSite.name

section

variable {source : List Char} {passed front ts ts' a : List Token} {s s' : WalkState}
  {found : List Finding} {site : ClassSite}

/-- The head of a class is its name and the tokens up to its body. -/
theorem exists_bodyOf?_of_classHead? {before : Option Token} {name : Token} {body : List Token}
    (h : classHead? before ts = some (name, body)) :
    ∃ rest, ts = name :: rest ∧ bodyOf? 0 rest = some body := by
  cases ts with
  | nil => cases h
  | cons t rest =>
    rw [classHead?] at h
    split at h
    · cases h
    · obtain ⟨body, hbody, hpair⟩ := Option.map_eq_some_iff.1 h
      cases hpair
      exact ⟨rest, rfl, hbody⟩

theorem name_mem_of_mem_sites (h : site ∈ s.sites ts) : site.name ∈ ts :=
  (word_of_mem_findings (WalkState.mem_sites.1 h)).1

/-- The tokens of a step that finds no class are no names of classes. -/
theorem PassedTo.not_mem_names (h : PassedTo source s passed front (a ++ ts))
    (hsites : ∀ site ∈ s.sites (a ++ ts), site.name ∈ ts) :
    ∀ t ∈ a, t ∉ (classSites source).map ClassSite.name := by
  have hnodup := nodup_ofText source
  rw [h.text, List.nodup_append, List.nodup_append] at hnodup
  obtain ⟨-, ⟨-, -, hapart⟩, hpassed⟩ := hnodup
  intro t ht hname
  rcases h.placed t hname with hbefore | hbehind
  · exact hpassed t hbefore t (List.mem_append_left ts ht) rfl
  · obtain ⟨site, hsite, rfl⟩ := List.mem_map.1 hbehind
    exact hapart _ ht _ (hsites site hsite) rfl

/-- Behind a step that finds no class. -/
theorem PassedTo.behind (h : PassedTo source s passed front (a ++ ts))
    (hsites : s.sites (a ++ ts) = s'.sites ts)
    (hwalked : Walked s'.before s'.scopes (front ++ a) ts) :
    PassedTo source s' (passed ++ a) (front ++ a) ts where
  text := by rw [h.text, List.append_assoc]
  rest := by
    have hnames := h.not_mem_names fun site hsite => name_mem_of_mem_sites (hsites ▸ hsite)
    rw [h.rest, headless_append_of_not_mem hnames, List.append_assoc]
  walked := hwalked
  placed n hn := (hsites ▸ h.placed n hn).imp_left (List.mem_append_left a)
  found := hsites ▸ h.found

/-- A class keyword is passed, and the head of its class is left out. -/
theorem Walked.keyword {before : Option Token} {scopes : List Scope} {t : Token}
    {body : List Token} (h : Walked before scopes front (t :: ts))
    (ht : t.isClassKeyword = true) : Walked (some t) scopes (front ++ [t]) body where
  stack := by
    have hplain : ∀ u ∈ [t], u.isOpen = false ∧ u.isClose = false := by
      simp only [List.mem_singleton, forall_eq]
      exact ⟨reads_of_isClassKeyword ht (by decide) (by decide),
        reads_of_isClassKeyword ht (by decide) (by decide)⟩
    rw [scopesBehind_append, ← h.stack, scopesBehind_of_plain hplain]
  head := .inl (.concat (h.head.imp_right fun hnext => (hnext t rfl).1)
    (reads_of_isClassKeyword ht (by decide) (by decide)))
  code := .inl (by rw [lastCode_concat (isComment_of_isClassKeyword ht)])

/-- The keyword of a class that is found is no name of a class. -/
theorem PassedTo.keyword_not_mem {keyword name : Token} {body : List Token} {block : List TagLine}
    (h : PassedTo source s passed front (keyword :: ts))
    (hkeyword : keyword.isClassKeyword = true) (hwaiting : s.waiting = some block)
    (hhead : classHead? s.before ts = some (name, body)) :
    keyword ∉ (classSites source).map ClassSite.name := by
  refine h.not_mem_names (a := [keyword]) (fun site hsite => ?_) keyword List.mem_cons_self
  rw [List.singleton_append, (Step.defined hkeyword hwaiting hhead).sites_eq] at hsite
  rcases List.mem_append.1 hsite with hself | hbehind
  · cases List.mem_singleton.1 hself
    obtain ⟨rest, rfl, -⟩ := exists_bodyOf?_of_classHead? hhead
    exact List.mem_cons_self
  · exact classHead?_subset hhead (name_mem_of_mem_sites hbehind)

/-- Behind a step that finds a class. -/
theorem PassedTo.defined {keyword name : Token} {body : List Token} {block : List TagLine}
    (h : PassedTo source s passed front (keyword :: ts))
    (hkeyword : keyword.isClassKeyword = true) (hwaiting : s.waiting = some block)
    (hhead : classHead? s.before ts = some (name, body)) :
    ∃ passed', PassedTo source (s.behindClass keyword) passed' (front ++ [keyword]) body := by
  have hsites := (Step.defined hkeyword hwaiting hhead).sites_eq
  have hname : name ∈ (classSites source).map ClassSite.name :=
    h.found (s.site keyword name block body) (hsites ▸ List.mem_append_left _ List.mem_cons_self)
  obtain ⟨rest, rfl, hbody⟩ := exists_bodyOf?_of_classHead? hhead
  obtain ⟨head, rfl, -⟩ := exists_bodyOf? hbody
  have hkeywordName := h.keyword_not_mem hkeyword hwaiting hhead
  refine ⟨passed ++ keyword :: name :: head, by rw [h.text]; simp, ?_, h.walked.keyword hkeyword,
    fun n hn => ?_, fun site hsite => h.found site (hsites ▸ List.mem_append_right _ hsite)⟩
  · rw [h.rest, headless, if_neg hkeywordName, headless, if_pos hname, hbody, Option.getD_some,
      List.append_assoc]
    rfl
  · rcases h.placed n hn with hbefore | hmem
    · exact .inl (List.mem_append_left _ hbefore)
    rw [hsites, List.map_append, List.mem_append] at hmem
    rcases hmem with hself | hbehind
    · cases List.mem_singleton.1 hself
      exact .inl (List.mem_append_right _ (List.mem_cons_of_mem keyword List.mem_cons_self))
    · exact .inr hbehind

/-- One step of the walk. -/
theorem PassedTo.step (h : PassedTo source s passed front ts)
    (hstep : Step s ts found s' ts') : ∃ passed' front', PassedTo source s' passed' front' ts' := by
  have hsites := hstep.sites_eq
  cases hstep with
  | @comment t ts hcomment hline =>
    have hwalked := h.walked.comments (a := [t]) (by simpa using hcomment)
    exact ⟨_, _, h.behind (a := [t]) hsites hwalked⟩
  | @stray t ts line block hcomment hline hwaiting =>
    have hwalked := h.walked.comments (a := [t]) (by simpa using hcomment)
    exact ⟨_, _, h.behind (a := [t]) hsites hwalked⟩
  | @opened t ts line hcomment hline hwaiting =>
    have hrun : t :: ts = (t :: ts.takeWhile isTagLine) ++ (tagRun ts).2 := by
      rw [tagRun_eq, List.cons_append, List.takeWhile_append_dropWhile]
    have hall : ∀ u ∈ t :: ts.takeWhile isTagLine, u.isComment = true :=
      List.forall_mem_cons.2 ⟨hcomment, fun u hu => isComment_of_tagLine?
        (List.mem_takeWhile_imp (p := isTagLine) hu)⟩
    rw [hrun] at h hsites
    exact ⟨_, _, h.behind hsites (h.walked.comments hall)⟩
  | @namespaceHead t ts hspace =>
    have hsub : t :: ts ⊆ Token.ofText source := by
      rw [h.text]
      exact List.subset_append_right _ _
    obtain ⟨a, hts, hwalked⟩ := h.walked.namespaceHead hspace hsub
    have hall : t :: ts = (t :: a) ++ (Declaration.namespaceHead "" ts).2 :=
      congrArg (t :: ·) hts
    rw [hall] at h hsites
    exact ⟨_, _, h.behind hsites hwalked⟩
  | @code t ts hcomment hspace hhead =>
    exact ⟨_, _, h.behind (a := [t]) hsites (h.walked.step hcomment hspace)⟩
  | @defined keyword name ts body block hkeyword hwaiting hhead =>
    obtain ⟨passed', h'⟩ := h.defined hkeyword hwaiting hhead
    exact ⟨passed', _, h'⟩

/-- A class that is found from here on has the namespace that is made of those around its
keyword. -/
theorem PassedTo.scope_of_mem_sites (h : PassedTo source s passed front ts)
    (hsite : site ∈ s.sites ts) : ∃ keyword, site.BeginsAt source keyword ∧
      site.scope = "::".intercalate (namespacesAround source keyword) := by
  induction s, ts using WalkState.walk_induction generalizing passed front with
  | nil s =>
    rw [WalkState.sites_nil] at hsite
    cases hsite
  | step hstep ih =>
    rw [hstep.sites_eq, List.mem_append] at hsite
    rcases hsite with hself | hbehind
    · cases hstep with
      | @defined keyword name ts body block hkeyword hwaiting hhead =>
        cases List.mem_singleton.1 hself
        have hleft := h.rest
        rw [headless, if_neg (h.keyword_not_mem hkeyword hwaiting hhead)] at hleft
        obtain ⟨rest, rfl, -⟩ := exists_bodyOf?_of_classHead? hhead
        refine ⟨keyword, ⟨⟨passed, rest, ?_⟩, hkeyword, rfl⟩, ?_⟩
        · rw [h.text, List.append_assoc]
          rfl
        · rw [namespacesAround, takeWhile_headlessTokens hleft, ← path_scopesBehind,
            ← h.walked.stack]
          rfl
      | comment | stray | opened | namespaceHead | code => cases hself
    · obtain ⟨passed', front', h'⟩ := h.step hstep
      exact ih h' hbehind

theorem passedTo_start (source : List Char) : PassedTo source .start [] [] (Token.ofText source) :=
  ⟨rfl, rfl, walked_nil _, fun _ => .inr, fun _ => List.mem_map_of_mem⟩

/-- The namespace of an annotated class is made of those that are open at its keyword. -/
theorem scope_of_beginsAt {keyword : Token} (hsite : site ∈ classSites source)
    (hkeyword : site.BeginsAt source keyword) :
    site.scope = "::".intercalate (namespacesAround source keyword) := by
  obtain ⟨keyword', hkeyword', hscope⟩ := (passedTo_start source).scope_of_mem_sites hsite
  rwa [hkeyword.keyword_eq hkeyword']

end

/-! ### Qualified names -/

section

variable {spaces : List String} {scope scope' name name' : String}

theorem isQualified_eq_false (h : ∀ c ∈ name.toList, isNamePart c) :
    Name.isQualified name = false := by
  refine occursIn_eq_false_iff.2 fun a b hab => ?_
  have hcolon : ':' ∈ name.toList := by simp [hab, Name.scopeSign]
  exact absurd (h ':' hcolon) (by decide)

theorem intercalate_ne_empty (h : ∀ s ∈ spaces, s ≠ "") (hne : spaces ≠ []) :
    "::".intercalate spaces ≠ "" := by
  obtain ⟨s, spaces, rfl⟩ := List.exists_cons_of_ne_nil hne
  have hs := h s List.mem_cons_self
  cases spaces with
  | nil => rwa [String.intercalate_singleton]
  | cons s' spaces =>
    rw [String.intercalate_cons_cons]
    simp [hs]

/-- A name is put behind the names of the namespaces. -/
theorem qualify_intercalate (hname : Name.isQualified name = false) (h : ∀ s ∈ spaces, s ≠ "") :
    Name.qualify ("::".intercalate spaces) name = "::".intercalate (spaces ++ [name]) := by
  by_cases hne : spaces = []
  · simp [hne]
  · have hempty : ("::".intercalate spaces).isEmpty = false := by
      simpa [String.isEmpty_iff] using intercalate_ne_empty h hne
    rw [String.intercalate_append_of_ne_nil hne (List.cons_ne_nil _ _),
      String.intercalate_singleton, Name.qualify, hname, hempty]
    rfl

theorem bare_qualify_of_isNamePart (scope : String) (h : ∀ c ∈ name.toList, isNamePart c) :
    Name.bare (Name.qualify scope name) = name := by
  have hcolon : name.toList.head? ≠ some ':' := fun hhead =>
    absurd (h ':' (List.mem_of_mem_head? hhead)) (by decide)
  rw [Name.bare_qualify fun hhead => absurd hhead hcolon,
    Name.bare_of_not_isQualified (isQualified_eq_false h)]

theorem ne_append_sign_append (front name : String) : name ≠ front ++ "::" ++ name := by
  intro h
  have hlength := congrArg String.length h
  have hsign : "::".length = 2 := rfl
  rw [String.length_append, String.length_append, hsign] at hlength
  omega

/-- A qualified name tells the namespace and the name. -/
theorem qualify_inj (h : ∀ c ∈ name.toList, isNamePart c) (h' : ∀ c ∈ name'.toList, isNamePart c) :
    Name.qualify scope name = Name.qualify scope' name' ↔ name = name' ∧ scope = scope' := by
  refine ⟨fun heq => ?_, fun ⟨hname, hscope⟩ => by rw [hname, hscope]⟩
  obtain rfl : name = name' := by
    rw [← bare_qualify_of_isNamePart scope h, heq, bare_qualify_of_isNamePart scope' h']
  simp only [Name.qualify, isQualified_eq_false h, Bool.false_or, String.isEmpty_iff] at heq
  refine ⟨rfl, ?_⟩
  split at heq <;> split at heq
  · next hempty hempty' => rw [hempty, hempty']
  · exact absurd heq (ne_append_sign_append scope' name)
  · exact absurd heq.symm (ne_append_sign_append scope name)
  · simpa using heq

/-- More names between those of the namespaces and the last one make another name. -/
theorem intercalate_eq_iff (spaces more : List String) (name : String) :
    "::".intercalate (spaces ++ [name]) = "::".intercalate (spaces ++ more ++ [name]) ↔
      more = [] := by
  refine ⟨fun heq => Classical.byContradiction fun hmore => ?_, fun hmore => by
    rw [hmore, List.append_nil]⟩
  have hrest : name ≠ "::".intercalate (more ++ [name]) := by
    rw [String.intercalate_append_of_ne_nil hmore (List.cons_ne_nil _ _),
      String.intercalate_singleton]
    exact ne_append_sign_append _ name
  by_cases hspaces : spaces = []
  · rw [hspaces, List.nil_append, List.nil_append, String.intercalate_singleton] at heq
    exact hrest heq
  · rw [List.append_assoc, String.intercalate_append_of_ne_nil hspaces (List.cons_ne_nil _ _),
      String.intercalate_append_of_ne_nil hspaces (by simp), String.intercalate_singleton] at heq
    exact hrest (by simpa using heq)

end

/-! ### Nested classes -/

/-- The generated code calls the class by this name: in the alias of the wrapper, in the description
of lists and in the metadata. -/
structure Entity.IsCalled (e : Entity) (name : String) : Prop where
  structName : e.structName = name
  wrapperAliases : wrapperAliases e =
    [sectionRule,
      s!"// {e.wrapperName}: public API type",
      sectionRule,
      "",
      s!"using {e.wrapperName} = jcailloux::relais::wrapper::EntityWrapper<",
      s!"    {name}, {e.mappingName}>;"] ++
    linesIf e.hasList [
      "",
      s!"using {e.className}ListWrapper = jcailloux::relais::wrapper::ListWrapper<{e.wrapperName}>;"]
  listDescriptor : listDescriptor e =
    if !e.hasList then []
    else
      "    struct ListDescriptor \x7b" ::
        entryTuple "filters" (e.sortedFilters.map fun f =>
          let arguments := ", ".intercalate
            ([quote f.param, s!"&{name}::{f.field}", quote (e.columnOf f.field)] ++
              operatorArgument f.op)
          s!"{declScope}::Filter<{arguments}>\x7b\x7d") ++
        entryTuple "sorts" (e.sorts.map fun k =>
          let arguments := ", ".intercalate
            [quote k.param, s!"&{name}::{k.field}", quote (e.columnOf k.field),
              s!"{declScope}::SortDirection::{k.direction.capitalName}"]
          s!"{declScope}::Sort<{arguments}>\x7b\x7d") ++
        ["",
          s!"        static constexpr uint16_t defaultLimit = {e.pageLimits.1};",
          s!"        static constexpr uint16_t maxLimit = {e.pageLimits.2};",
          "    \x7d;"]
  structMeta : structMeta e =
    if e.hasStructMeta then []
    else
      ["template<>",
        s!"struct glz::meta<{name}> \x7b",
        s!"    using T = {name};",
        "    static constexpr auto value = glz::object("] ++
      commaLines "        " (objectEntries e) ++
      ["    );",
        "\x7d;"]

theorem Entity.isCalled_structName (e : Entity) : e.IsCalled e.structName := ⟨rfl, rfl, rfl, rfl⟩

/-- No namespace around a class is without a name. -/
theorem ne_empty_of_mem_namespacesAround {source : List Char} {place : Token} :
    ∀ space ∈ namespacesAround source place, space ≠ "" := by
  intro space hspace
  obtain ⟨scope, -, hname⟩ := List.mem_filterMap.1 hspace
  cases scope with
  | block => cases hname
  | named name =>
    rw [Scope.name?, Option.ite_none_left_eq_some, Option.some.injEq] at hname
    rintro rfl
    exact hname.1 (by rw [hname.2]; rfl)

/-- **The name of an annotated class has the namespaces around it.**  Every annotated class begins
at one keyword.  Its qualified name, and so each name that the generated code has for it, is made of
the names of the namespaces that are open at this keyword, the outermost first, and of its own name.
The classes around it are left out: the name is the full one just when there are none, and two
annotated classes have the same name just when they have the same own name in the same namespace,
whatever classes they stand in. -/
theorem structName_around (source : List Char) :
    declaredClasses source = (classSites source).map (ClassSite.declared source) ∧
    ∀ s ∈ classSites source, ∃ keyword, s.BeginsAt source keyword ∧
      (∀ keyword', s.BeginsAt source keyword' → keyword' = keyword) ∧
      ∀ file e, (s.declared source).resolve source file = .ok e →
        e.IsCalled ("::".intercalate (namespacesAround source keyword ++ [s.name.text])) ∧
        (e.structName = fullName source keyword s.name ↔ classesAround source keyword = []) ∧
        ∀ s' ∈ classSites source, ∀ keyword', s'.BeginsAt source keyword' →
          ∀ e', (s'.declared source).resolve source file = .ok e' →
            (e.structName = e'.structName ↔ s.name.text = s'.name.text ∧
              "::".intercalate (namespacesAround source keyword) =
                "::".intercalate (namespacesAround source keyword')) := by
  have hword : ∀ s ∈ classSites source, ∀ c ∈ s.name.text.toList, isNamePart c := fun s hs =>
    isNamePart_of_className (c := s.declared source) (List.mem_map_of_mem hs)
  have hqualified : ∀ s ∈ classSites source, ∀ keyword, s.BeginsAt source keyword → ∀ file e,
      (s.declared source).resolve source file = .ok e → e.structName =
        Name.qualify ("::".intercalate (namespacesAround source keyword)) s.name.text := by
    intro s hs keyword hkeyword file e he
    rw [← scope_of_beginsAt hs hkeyword, DeclaredClass.eq_of_resolve he]
    rfl
  refine ⟨rfl, fun s hs => ?_⟩
  obtain ⟨keyword, hkeyword, -⟩ := (passedTo_start source).scope_of_mem_sites hs
  refine ⟨keyword, hkeyword, fun keyword' hkeyword' => hkeyword'.keyword_eq hkeyword,
    fun file e he => ?_⟩
  have hname : e.structName =
      "::".intercalate (namespacesAround source keyword ++ [s.name.text]) := by
    rw [hqualified s hs keyword hkeyword file e he]
    exact qualify_intercalate (isQualified_eq_false (hword s hs)) ne_empty_of_mem_namespacesAround
  refine ⟨hname ▸ e.isCalled_structName, ?_, fun s' hs' keyword' hkeyword' e' he' => ?_⟩
  · rw [hname]
    exact intercalate_eq_iff ..
  · rw [hqualified s hs keyword hkeyword file e he,
      hqualified s' hs' keyword' hkeyword' file e' he']
    exact qualify_inj (hword s hs) (hword s' hs')

/-- A header in which two classes of a namespace hold an annotated class each. -/
def cartSource : List Char := (
  "namespace shop \x7b\n" ++
  "struct Order \x7b\n" ++
  "    // @relais table=order_items\n" ++
  "    struct Item \x7b\n        int64_t id;\n    \x7d;\n\x7d;\n" ++
  "class Cart \x7b\n" ++
  "    // @relais table=cart_items\n" ++
  "    struct Item \x7b\n        int64_t id;\n    \x7d;\n\x7d;\n\x7d\n").toList

/-- The entity of one of the two classes. -/
def cartItem (table : String) (line : Nat) : Entity where
  className := "Item"
  scope := "shop"
  table
  model := none
  members := [⟨"id", "int64_t", "", line + 1, {}⟩]
  enums := []
  readOnly := false
  tiers := []
  entityName := "shop::Item"
  hasStructMeta := false
  file := "Cart.h"
  line

/-- The class around an annotated class does not show in its name, and so two of them can have one
name. -/
theorem exists_nested_without_outer_name :
    (∃ s ∈ classSites cartSource, ∃ keyword ∈ Token.ofText cartSource,
      s.BeginsAt cartSource keyword ∧ classesAround cartSource keyword = ["Order"] ∧
      fullName cartSource keyword s.name = "shop::Order::Item" ∧
      (s.declared cartSource).resolve cartSource "Cart.h" = .ok (cartItem "order_items" 4) ∧
      (cartItem "order_items" 4).structName = "shop::Item") ∧
    ∃ s ∈ classSites cartSource, ∃ keyword ∈ Token.ofText cartSource,
      s.BeginsAt cartSource keyword ∧ classesAround cartSource keyword = ["Cart"] ∧
      fullName cartSource keyword s.name = "shop::Cart::Item" ∧
      (s.declared cartSource).resolve cartSource "Cart.h" = .ok (cartItem "cart_items" 10) ∧
      (cartItem "cart_items" 10).structName = "shop::Item" := by
  have hsource : cartSource = _ :=
    toList_append_of_eq (toList_append_of_eq (toList_append_of_eq (toList_append_of_eq
      (toList_append_of_eq (toList_append_of_eq String.toList_ofList String.toList_ofList)
      String.toList_ofList) String.toList_ofList) String.toList_ofList) String.toList_ofList)
      String.toList_ofList
  rw [hsource]
  constructor <;> decide +kernel

end RowMapping
