import Mathlib.Data.List.DropRight
import RowMapping.Proofs.TokenMaps
/-!
# What the walk reads of a token

The walk over a header does not read the columns of its tokens, and of the texts of comments and of
literals it reads less than there is.

* `Token.core`: a token without its column and its positions, and without the carriage returns that
  a line end can leave in a comment or in a literal;
* `Token.keeps_core`: the walk does not notice the difference;
* `ClassSummary`, `ClassSite.summary`: what a header says of a class, but for initial values and the
  texts of types that hold a literal;
* `classSummaries_eq_of_cores`: the cores of the tokens of a header decide what it says of its
  classes.
-/

namespace RowMapping

open Declaration Text Token

/-! ### Carriage returns at the end of a comment -/

section

variable {d : Char} {p cs : List Char}

theorem trim_append_blank (hd : isBlank d = true) (cs : List Char) : trim (cs ++ [d]) = trim cs := by
  simp only [trim, trimStart, List.dropWhile_append]
  split
  · next hempty =>
    rw [List.isEmpty_iff] at hempty
    simp [hempty, hd]
  · simp [hd]

theorem isPrefixOf?_append_of_not_mem (hd : d ∉ p) (cs : List Char) :
    p.isPrefixOf? (cs ++ [d]) = (p.isPrefixOf? cs).map (· ++ [d]) := by
  induction p generalizing cs with
  | nil => rfl
  | cons a p ih =>
    rw [List.mem_cons, not_or] at hd
    cases cs with
    | nil => simp [List.isPrefixOf?, Ne.symm hd.1]
    | cons c cs =>
      rw [List.cons_append, List.isPrefixOf?, List.isPrefixOf?]
      split
      · exact ih hd.2 cs
      · rfl

theorem memberText?_append_return (cs : List Char) :
    memberText? (cs ++ ['\r']) = memberText? cs := by
  induction cs with
  | nil => decide
  | cons c cs ih =>
    have hprefix := isPrefixOf?_append_of_not_mem (p := marker) (d := '\r') (by decide) (c :: cs)
    rw [List.cons_append, memberText?, ← List.cons_append, hprefix, memberText?]
    cases marker.isPrefixOf? (c :: cs) with
    | none => exact ih
    | some rest =>
      have hword : (((rest ++ ['\r']).head?.map isWord).getD false) =
          ((rest.head?.map isWord).getD false) := by
        cases rest <;> rfl
      simp only [Option.map_some, hword, ih, trim_append_blank (d := '\r') rfl]

/-- What a carriage return at the end does not change, all of them do not change. -/
theorem eq_of_append_return {α : Type} {g : List Char → α}
    (h : ∀ cs, g (cs ++ ['\r']) = g cs) (cs : List Char) :
    g (cs.rdropWhile (· == '\r')) = g cs := by
  induction cs using List.reverseRecOn with
  | nil => rfl
  | append_singleton cs c ih =>
    by_cases hc : c = '\r'
    · rw [List.rdropWhile_concat_pos _ _ _ (by simpa using hc), ih, hc, h]
    · rw [List.rdropWhile_concat_neg _ _ _ (by simpa using hc)]

end

/-! ### Cores -/

/-- The text of a token of some kind, without the carriage returns at the end of a comment or in a
literal. -/
def coreText : Token.Kind → List Char → List Char
  | .comment, cs => cs.rdropWhile (· == '\r')
  | .string, cs | .character, cs => if cs.any isQuote then cs.filter (· != '\r') else cs
  | _, cs => cs

namespace Token

/-- A token without its column and its positions, and without these carriage returns. -/
def core (t : Token) : Token :=
  { t with text := String.ofList (coreText t.kind t.text.toList), column := 0, start := 0, stop := 0 }

variable (t : Token) {text : String}

@[simp] theorem kind_core : t.core.kind = t.kind := rfl

theorem toList_text_core : t.core.text.toList = coreText t.kind t.text.toList :=
  String.toList_ofList

theorem coreText_eq_iff {kind : Token.Kind} (hkind : kind ≠ .comment) {cs ds : List Char}
    (hds : ds.any isQuote = false) : coreText kind cs = ds ↔ cs = ds := by
  have hliteral : (if cs.any isQuote then cs.filter (· != '\r') else cs) = ds ↔ cs = ds := by
    split
    · next hquote =>
      -- neither the literal nor what is left of it is free of quotes
      obtain ⟨q, hq, hisQuote⟩ := List.any_eq_true.1 hquote
      have hreturn : q ≠ '\r' := by
        rintro rfl
        exact absurd hisQuote (by decide)
      have hnone := List.any_eq_false.1 hds q
      exact iff_of_false
        (fun h => hnone (h ▸ List.mem_filter.2 ⟨hq, bne_iff_ne.2 hreturn⟩) hisQuote)
        (fun h => hnone (h ▸ hq) hisQuote)
    · rfl
  cases kind with
  | comment => exact absurd rfl hkind
  | string => exact hliteral
  | character => exact hliteral
  | _ => rfl

/-- A text without quotes is read alike. -/
theorem reads_core (h : text.toList.any isQuote = false) : t.core.reads text = t.reads text := by
  by_cases hkind : t.kind = .comment
  · rw [reads, reads, kind_core, hkind]
    rfl
  · have hiff : t.core.text = text ↔ t.text = text := by
      rw [← String.toList_inj, toList_text_core, coreText_eq_iff hkind h, String.toList_inj]
    rw [reads, reads, kind_core, Bool.eq_iff_iff]
    simp [hiff]

theorem tagLine?_core : t.core.tagLine? = t.tagLine? := by
  have hcomment : t.core.isComment = t.isComment := rfl
  have hfirst : t.core.firstOnLine = t.firstOnLine := rfl
  rw [tagLine?, tagLine?, hcomment, hfirst]
  split
  · next hcomment =>
    simp only [Bool.and_eq_true, isComment, beq_iff_eq] at hcomment
    rw [toList_text_core, hcomment.1]
    exact eq_of_append_return (fun cs => by
      rw [TagLine.ofComment?, trim_append_blank rfl, TagLine.ofComment?]) _
  · rfl

theorem memberText?_core (h : t.isComment = true) :
    memberText? t.core.text.toList = memberText? t.text.toList := by
  rw [toList_text_core, beq_iff_eq.1 h]
  exact eq_of_append_return memberText?_append_return _

theorem text_core (hliteral : t.isLiteral = false) (hcomment : t.isComment = false) :
    t.core.text = t.text := by
  rw [← String.toList_inj, toList_text_core]
  simp only [isLiteral, isComment, Bool.or_eq_false_iff, beq_eq_false_iff_ne] at hliteral hcomment
  cases hkind : t.kind with
  | string => exact absurd hkind hliteral.1
  | character => exact absurd hkind hliteral.2
  | comment => exact absurd hkind hcomment
  | _ => rfl

/-- The walk does not notice the difference between a token and its core. -/
theorem keeps_core : Keeps core id where
  kind _ := rfl
  line _ := rfl
  reads t _ := t.reads_core
  firstOnLine _ _ := rfl
  tagLine? := tagLine?_core
  memberText? := memberText?_core
  text := text_core

end Token

/-- The cores of tokens. -/
def cores (ts : List Token) : List Token := ts.map Token.core

theorem cores_append (a b : List Token) : cores (a ++ b) = cores a ++ cores b := List.map_append

/-! ### What a header says -/

/-- What a header says of a member, but for its initial value; the type is left out where it holds a
literal. -/
structure MemberSummary where
  name : String
  line : Nat
  tags : MemberTags
  type? : Option String
  deriving DecidableEq, Repr

namespace MemberSite

/-- The tokens of the type of the member. -/
def typeTokens (s : MemberSite) : List Token :=
  ((declarator? 0 s.code).map fun parts => parts.1.dropLast).getD []

/-- What is said of the member that a statement declares. -/
def summary? (source : List Char) (s : MemberSite) : Option MemberSummary :=
  (s.member? source).map fun m => {
    name := m.name
    line := m.line
    tags := m.tags
    type? := if s.typeTokens.any isLiteral then none else some m.type }

variable {source source' : List Char} {s : MemberSite}

/-- A statement and its core say the same, whatever the sources are. -/
theorem summary?_core (h : ∀ t ∈ s.trailing, t.isComment = true) :
    (s.map core id).summary? source' = s.summary? source := by
  have hcode : ∀ t ∈ s.code, t.isComment = false := fun t ht => isComment_of_mem_code t ht
  have htags : tagText? (s.map core id).trailing = tagText? s.trailing := tagText?_map keeps_core h
  rw [summary?, summary?, typeTokens, typeTokens, member?, member?, Member.ofCode?_eq,
    Member.ofCode?_eq, code_map keeps_core, htags, declarator?_map keeps_core]
  cases hparts : declarator? 0 s.code with
  | none => rfl
  | some parts =>
    simp only [Option.map_some, Option.bind_some, Option.getD_some, List.getLast?_map]
    cases hname : parts.1.getLast? with
    | none => rfl
    | some name =>
      simp only [Option.map_some, Option.bind_some, declaresMember_map keeps_core hcode]
      by_cases hdeclares : declaresMember s.code parts name = true
      · have htext : name.core.text = name.text :=
          keeps_core.text_of_word name (kind_of_declaresMember hdeclares)
        have htype : parts.1.dropLast ⊆ s.code :=
          List.Subset.trans (List.dropLast_subset _) (declarator?_subset hparts)
        have hliterals : (parts.1.dropLast.map core).any isLiteral = parts.1.dropLast.any isLiteral := by
          rw [List.any_map]
          rfl
        have hline : name.core.line = name.line := rfl
        simp only [if_pos hdeclares, Option.map_some, htext, hline, ← List.map_dropLast, hliterals]
        split
        · rfl
        · next hliteral =>
          have hplain : ∀ t ∈ parts.1.dropLast, t.isLiteral = false := by simpa using hliteral
          rw [spelling_map keeps_core _ fun t ht => t.text_core (hplain t ht) (hcode t (htype ht))]
      · simp only [if_neg hdeclares, Option.map_none]

end MemberSite

/-- What a header says of an annotated class, but for what is left out of its members. -/
structure ClassSummary where
  name : String
  scope : String
  isStruct : Bool
  line : Nat
  tags : List ClassTag
  members : List MemberSummary
  deriving DecidableEq, Repr

/-- What is said of the class that a site declares. -/
def ClassSite.summary (source : List Char) (s : ClassSite) : ClassSummary where
  name := (s.declared source).name
  scope := (s.declared source).scope
  isStruct := (s.declared source).isStruct
  line := (s.declared source).line
  tags := (s.declared source).tags
  members := s.sites.filterMap (MemberSite.summary? source)

/-- What a header says of its annotated classes, in order. -/
def classSummaries (source : List Char) : List ClassSummary :=
  ((sourceFindings source).filterMap Finding.site?).map (ClassSite.summary source)

section

variable {source source' : List Char} {ts : List Token}

/-- A class and its core say the same. -/
theorem ClassSite.summary_core {s : ClassSite} (hname : s.name.kind = .word)
    (hsites : ∀ m ∈ s.sites, ∀ t ∈ m.trailing, t.isComment = true) :
    (s.map core id).summary source' = s.summary source := by
  have hmembers : (s.sites.map (MemberSite.map core id)).filterMap (MemberSite.summary? source') =
      s.sites.filterMap (MemberSite.summary? source) := by
    rw [List.filterMap_map]
    exact List.filterMap_congr fun m hm => m.summary?_core (hsites m hm)
  have htext : s.name.core.text = s.name.text := keeps_core.text_of_word _ hname
  have hline : s.name.core.line = s.name.line := rfl
  simp only [summary, declared, map, hmembers, htext, hline]

/-- The walk over the cores of tokens finds classes of which the same is said. -/
theorem summaries_cores (before : Option Token) (scopes : List Scope)
    (waiting : Option (List TagLine)) (ts : List Token) :
    ((findings (before.map core) scopes waiting (cores ts)).filterMap Finding.site?).map
        (ClassSite.summary source') =
      ((findings before scopes waiting ts).filterMap Finding.site?).map
        (ClassSite.summary source) := by
  have hsites : ∀ fs : List Finding, (fs.map (Finding.map core id)).filterMap Finding.site? =
      (fs.filterMap Finding.site?).map (ClassSite.map core id) := by
    intro fs
    rw [List.filterMap_map, List.map_filterMap]
    refine List.filterMap_congr fun finding _ => ?_
    cases finding <;> rfl
  rw [cores, findings_map keeps_core, hsites, List.map_map]
  refine List.map_congr_left fun site hsite => ?_
  obtain ⟨finding, hfinding, hdefined⟩ := List.mem_filterMap.1 hsite
  cases finding with
  | defined site' =>
    cases hdefined
    obtain ⟨body, -, hbody⟩ := exists_body_of_mem_findings hfinding
    exact ClassSite.summary_core (word_of_mem_findings hfinding).2 fun m hm =>
      isComment_of_mem_memberSites (hbody ▸ hm)
  | _ => cases hdefined

/-- **What a header says of its classes is decided by the cores of its tokens.** -/
theorem classSummaries_eq_of_cores
    (h : cores (Token.ofText source) = cores (Token.ofText source')) :
    classSummaries source = classSummaries source' := by
  have hcores : ∀ text other : List Char,
      ((findings none [] none (cores (Token.ofText text))).filterMap Finding.site?).map
        (ClassSite.summary other) = classSummaries text := fun _ _ => summaries_cores none [] none _
  rw [← hcores source source, h, hcores]

end

end RowMapping
