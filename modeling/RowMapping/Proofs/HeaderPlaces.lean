import Mathlib.Data.List.Nodup
import RowMapping.Proofs.AnnotationRuns
import RowMapping.Proofs.EnclosingNamespace
import RowMapping.Proofs.InsertedText
/-!
# Places in a header

The walk over a header comes to every annotated class at its keyword.  What the walk does in front
of such a place depends on what stands behind it only as far as the heads of classes do that are
looked for in front of it, and the statements of the classes around it.

* `WalkState`, `Step`: what one step of the walk does;
* `Comes`: the walk comes to a place;
* `Comes.findings_eq`: what the walk meets is what it has met in front of the place and what it
  meets from there on;
* `WalkState.exists_defines`: an annotated class is found at a place that the walk comes to;
* `Comes.exists_append`: other tokens behind a class keyword;
* `KeptInFront`: what becomes of the classes in front of it.
-/

namespace RowMapping

open Declaration Token

/-- What the walk over a header knows at a place: the last token of code, the open scopes, and the
block that waits for its class. -/
structure WalkState where
  before : Option Token
  scopes : List Scope
  waiting : Option (List TagLine)
  deriving DecidableEq, Repr

namespace WalkState

/-- At the beginning of a header. -/
def start : WalkState := ⟨none, [], none⟩

/-- What the walk meets from here on. -/
def findings (s : WalkState) (ts : List Token) : List Finding :=
  RowMapping.findings s.before s.scopes s.waiting ts

theorem findings_nil (s : WalkState) : s.findings [] = finishing s.waiting := by
  rw [findings, RowMapping.findings.eq_def]

/-- The classes that are defined from here on. -/
def sites (s : WalkState) (ts : List Token) : List ClassSite :=
  (s.findings ts).filterMap Finding.site?

@[simp] theorem sites_nil (s : WalkState) : s.sites [] = [] := by
  rw [sites, findings_nil, site?_finishing]

theorem mem_sites {s : WalkState} {ts : List Token} {site : ClassSite} :
    site ∈ s.sites ts ↔ .defined site ∈ s.findings ts := by
  refine List.mem_filterMap.trans ⟨?_, fun h => ⟨_, h, rfl⟩⟩
  rintro ⟨f, hf, hsite⟩
  cases f with
  | defined site' =>
    cases hsite
    exact hf
  | opened | stray | dangling => cases hsite

/-- The classes of a header are those that are defined from its beginning on. -/
theorem declaredClasses_eq (source : List Char) :
    declaredClasses source = (start.sites (Token.ofText source)).map (ClassSite.declared source) :=
  rfl

/-- Behind a token of code. -/
def passing (s : WalkState) (t : Token) : WalkState where
  before := some t
  scopes := if t.isOpen then .block :: s.scopes else if t.isClose then s.scopes.tail else s.scopes
  waiting := s.waiting

/-- Behind the head of a class that takes the block. -/
def behindClass (s : WalkState) (keyword : Token) : WalkState := ⟨some keyword, s.scopes, none⟩

end WalkState

/-- The class that a keyword defines, in this state of the walk. -/
def WalkState.site (s : WalkState) (keyword name : Token) (block : List TagLine)
    (body : List Token) : ClassSite where
  name
  isStruct := keyword.reads "struct"
  scope := Scope.path s.scopes
  block
  sites := memberSites (keyword.reads "struct") body.tail

variable {s s' : WalkState} {t keyword name : Token} {ts ts' rest rest' front body : List Token}
  {found : List Finding} {block : List TagLine}

/-- One step of the walk: the tokens in front of it and behind it, and what it meets. -/
inductive Step : WalkState → List Token → List Finding → WalkState → List Token → Prop
  | comment {s : WalkState} {t : Token} {ts : List Token} (hcomment : t.isComment = true)
      (hline : t.tagLine? = none) : Step s (t :: ts) [] s ts
  | stray {s : WalkState} {t : Token} {ts : List Token} {line : TagLine} {block : List TagLine}
      (hcomment : t.isComment = true) (hline : t.tagLine? = some line)
      (hwaiting : s.waiting = some block) : Step s (t :: ts) [.stray t.line] s ts
  | opened {s : WalkState} {t : Token} {ts : List Token} {line : TagLine}
      (hcomment : t.isComment = true) (hline : t.tagLine? = some line)
      (hwaiting : s.waiting = none) :
      Step s (t :: ts) [.opened (line :: (tagRun ts).1)]
        { s with waiting := some (line :: (tagRun ts).1) } (tagRun ts).2
  | namespaceHead {s : WalkState} {t : Token} {ts : List Token}
      (hspace : t.reads "namespace" = true) :
      Step s (t :: ts) []
        ⟨none, ((namespaceHead "" ts).1.map Scope.named).toList ++ s.scopes, s.waiting⟩
        (namespaceHead "" ts).2
  | code {s : WalkState} {t : Token} {ts : List Token} (hcomment : t.isComment = false)
      (hspace : t.reads "namespace" = false)
      (hhead : t.isClassKeyword = true → s.waiting.isSome = true → classHead? s.before ts = none) :
      Step s (t :: ts) [] (s.passing t) ts
  | defined {s : WalkState} {keyword name : Token} {ts body : List Token} {block : List TagLine}
      (hkeyword : keyword.isClassKeyword = true) (hwaiting : s.waiting = some block)
      (hhead : classHead? s.before ts = some (name, body)) :
      Step s (keyword :: ts) [.defined (s.site keyword name block body)]
        (s.behindClass keyword) body

/-- A class keyword reads nothing else. -/
theorem reads_of_isClassKeyword (h : t.isClassKeyword = true) {text : String}
    (hstruct : text ≠ "struct") (hclass : text ≠ "class") : t.reads text = false := by
  rcases Bool.or_eq_true_iff.1 h with h | h
  · exact reads_of_ne h hstruct.symm
  · exact reads_of_ne h hclass.symm

theorem isComment_of_isClassKeyword (h : t.isClassKeyword = true) : t.isComment = false :=
  (Bool.or_eq_true_iff.1 h).elim isComment_of_reads isComment_of_reads

namespace Step

/-- **What the walk meets** is what it meets in a step, and what it meets behind it. -/
theorem findings_eq (h : Step s ts found s' ts') : s.findings ts = found ++ s'.findings ts' := by
  cases h with
  | comment hcomment hline =>
    rw [WalkState.findings, findings.eq_def]
    simp [hcomment, hline, WalkState.findings]
  | stray hcomment hline hwaiting =>
    rw [WalkState.findings, findings.eq_def]
    simp [hcomment, hline, hwaiting, WalkState.findings]
  | opened hcomment hline hwaiting =>
    rw [WalkState.findings, findings.eq_def]
    simp [hcomment, hline, hwaiting, WalkState.findings]
  | namespaceHead hspace =>
    rw [WalkState.findings, findings.eq_def]
    simp [isComment_of_reads hspace, hspace, WalkState.findings]
  | @code t ts hcomment hspace hhead =>
    rw [WalkState.findings, findings.eq_def]
    simp only [hcomment, hspace, Bool.false_eq_true, if_false, List.nil_append,
      WalkState.findings, WalkState.passing]
    split_ifs with hopen hclose hkeyword
    · rfl
    · rfl
    · -- a class keyword that defines no class, or with no block that waits
      split
      · next block name body hwaiting hdefined =>
        rw [hhead hkeyword (by rw [hwaiting]; rfl)] at hdefined
        cases hdefined
      · rfl
    · rfl
  | @defined keyword name ts body block hkeyword hwaiting hhead =>
    have hspace : keyword.reads "namespace" = false :=
      reads_of_isClassKeyword hkeyword (by decide) (by decide)
    have hopen : keyword.isOpen = false :=
      reads_of_isClassKeyword hkeyword (by decide) (by decide)
    have hclose : keyword.isClose = false :=
      reads_of_isClassKeyword hkeyword (by decide) (by decide)
    rw [WalkState.findings, findings.eq_def]
    simp only [isComment_of_isClassKeyword hkeyword, hspace, hopen, hclose, Bool.false_eq_true,
      if_false]
    rw [if_pos (show (keyword.reads "struct" || keyword.reads "class") = true from hkeyword)]
    split
    · next block' name' body' hwaiting' hhead' =>
      cases hwaiting.symm.trans hwaiting'
      cases hhead.symm.trans hhead'
      rfl
    · next hno => exact absurd hhead (hno block name _ hwaiting)

theorem sites_eq (h : Step s ts found s' ts') :
    s.sites ts = found.filterMap Finding.site? ++ s'.sites ts' := by
  rw [WalkState.sites, h.findings_eq, List.filterMap_append]
  rfl

/-- A walk over tokens makes a step. -/
theorem exists_step (s : WalkState) (t : Token) (ts : List Token) :
    ∃ found s' ts', Step s (t :: ts) found s' ts' := by
  cases hcomment : t.isComment with
  | true =>
    cases hline : t.tagLine? with
    | none => exact ⟨_, _, _, .comment hcomment hline⟩
    | some line =>
      cases hwaiting : s.waiting with
      | none => exact ⟨_, _, _, .opened hcomment hline hwaiting⟩
      | some block => exact ⟨_, _, _, .stray hcomment hline hwaiting⟩
  | false =>
    cases hspace : t.reads "namespace" with
    | true => exact ⟨_, _, _, .namespaceHead hspace⟩
    | false =>
      by_cases hdefines : t.isClassKeyword = true ∧ s.waiting.isSome = true ∧
          classHead? s.before ts ≠ none
      · obtain ⟨hkeyword, hwaiting, hhead⟩ := hdefines
        obtain ⟨block, hwaiting⟩ := Option.isSome_iff_exists.1 hwaiting
        obtain ⟨⟨name, body⟩, hhead⟩ := Option.ne_none_iff_exists'.1 hhead
        exact ⟨_, _, _, .defined hkeyword hwaiting hhead⟩
      · refine ⟨_, _, _, .code hcomment hspace fun hkeyword hwaiting => ?_⟩
        exact Classical.not_not.1 fun hhead => hdefines ⟨hkeyword, hwaiting, hhead⟩

/-- While a block waits, a step finds the class that takes it, or no class. -/
theorem waiting_cases (h : Step s ts found s' ts') (hwaiting : s.waiting = some block) :
    (∃ site, found = [.defined site] ∧ site.block = block) ∨
      found.filterMap Finding.site? = [] ∧ s'.waiting = some block := by
  cases h with
  | comment | stray | namespaceHead | code => exact .inr ⟨rfl, hwaiting⟩
  | opened _ _ hnone =>
    rw [hwaiting] at hnone
    cases hnone
  | defined _ hwaiting' _ =>
    cases hwaiting.symm.trans hwaiting'
    exact .inl ⟨_, rfl, rfl⟩

theorem length_lt (h : Step s ts found s' ts') : ts'.length < ts.length := by
  cases h with
  | comment | stray | code => simp
  | opened => exact Nat.lt_succ_of_le (length_tagRun_le _)
  | namespaceHead => exact Nat.lt_succ_of_le (length_namespaceHead_le "" _)
  | defined _ _ hhead => exact Nat.lt_succ_of_lt (length_classHead?_lt hhead)

end Step

/-- The walk comes to a place, and has met `found` on its way. -/
inductive Comes : WalkState → List Token → List Finding → WalkState → List Token → Prop
  | here {s : WalkState} {ts : List Token} : Comes s ts [] s ts
  | step {s s' s'' : WalkState} {ts ts' rest : List Token} {found more : List Finding}
      (hstep : Step s ts found s' ts') (h : Comes s' ts' more s'' rest) :
      Comes s ts (found ++ more) s'' rest

namespace Comes

theorem findings_eq (h : Comes s ts found s' rest) : s.findings ts = found ++ s'.findings rest := by
  induction h with
  | here => rfl
  | step hstep _ ih => rw [hstep.findings_eq, ih, List.append_assoc]

/-- The classes that are defined are those on the way to a place and those from there on. -/
theorem sites_eq (h : Comes s ts found s' rest) :
    s.sites ts = found.filterMap Finding.site? ++ s'.sites rest := by
  rw [WalkState.sites, h.findings_eq, List.filterMap_append]
  rfl

theorem trans {s'' : WalkState} {more : List Finding} (h : Comes s ts found s' ts')
    (h' : Comes s' ts' more s'' rest) : Comes s ts (found ++ more) s'' rest := by
  induction h with
  | here => exact h'
  | step hstep _ ih =>
    rw [List.append_assoc]
    exact .step hstep (ih h')

end Comes

/-- What holds at the end of the tokens, and in front of a step when it holds behind it, holds
everywhere. -/
theorem WalkState.walk_induction {P : WalkState → List Token → Prop} (nil : ∀ s, P s [])
    (step : ∀ {s ts found s' ts'}, Step s ts found s' ts' → P s' ts' → P s ts) (s : WalkState)
    (ts : List Token) : P s ts := by
  induction hn : ts.length using Nat.strongRecOn generalizing s ts with
  | ind n ih =>
    cases ts with
    | nil => exact nil s
    | cons t ts =>
      obtain ⟨found, s', ts', hstep⟩ := Step.exists_step s t ts
      exact step hstep (ih _ (hn ▸ hstep.length_lt) s' ts' rfl)

/-- While a block waits, the first class that is defined takes it. -/
theorem WalkState.block_of_sites {site : ClassSite} (hwaiting : s.waiting = some block)
    (h : site ∈ (s.sites ts).head?) : site.block = block := by
  induction s, ts using WalkState.walk_induction with
  | nil s =>
    rw [sites_nil] at h
    cases h
  | step hstep ih =>
    rw [hstep.sites_eq] at h
    rcases hstep.waiting_cases hwaiting with ⟨site', rfl, hblock⟩ | ⟨hnone, hwaiting'⟩
    · cases h
      exact hblock
    · rw [hnone, List.nil_append] at h
      exact ih hwaiting' h

/-- The walk comes to the keyword of an annotated class, with its block. -/
structure Defines (s : WalkState) (ts : List Token) (found : List Finding) (s' : WalkState)
    (keyword : Token) (rest body : List Token) (site : ClassSite) : Prop where
  comes : Comes s ts found s' (keyword :: rest)
  isClassKeyword : keyword.isClassKeyword = true
  waiting : s'.waiting = some site.block
  head : classHead? s'.before rest = some (site.name, body)
  site_eq : site = s'.site keyword site.name site.block body

/-- **An annotated class is found at its keyword.** -/
theorem WalkState.exists_defines {site : ClassSite} (h : site ∈ s.sites ts) :
    ∃ found s' keyword rest body, Defines s ts found s' keyword rest body site := by
  induction s, ts using WalkState.walk_induction with
  | nil s =>
    rw [sites_nil] at h
    cases h
  | step hstep ih =>
    rw [hstep.sites_eq, List.mem_append] at h
    rcases h with h | h
    · cases hstep with
      | defined hkeyword hwaiting hhead =>
        cases List.mem_singleton.1 h
        exact ⟨_, _, _, _, _, .here, hkeyword, hwaiting, hhead, rfl⟩
      | comment | namespaceHead | code | stray | opened => cases h
    · obtain ⟨more, s'', keyword, rest, body, hdefines⟩ := ih h
      exact ⟨_, _, _, _, _, { hdefines with comes := .step hstep hdefines.comes }⟩

theorem exists_defines_of_mem {source : List Char} {site : ClassSite}
    (h : .defined site ∈ sourceFindings source) : ∃ found s' keyword rest body,
      Defines .start (Token.ofText source) found s' keyword rest body site :=
  WalkState.exists_defines (WalkState.mem_sites.2 (show _ ∈ WalkState.start.findings _ from h))

/-- It comes behind the classes on the way, and in front of those that the walk meets from its
body on. -/
theorem Defines.sites_eq {site : ClassSite} (h : Defines s ts found s' keyword rest body site) :
    s.sites ts = found.filterMap Finding.site? ++ site :: (s'.behindClass keyword).sites body := by
  rw [h.comes.sites_eq, (Step.defined h.isClassKeyword h.waiting h.head).sites_eq, ← h.site_eq]
  rfl

/-! ### Other tokens behind a class keyword -/

/-- A body that is found begins where it does, whatever is behind its brace. -/
theorem exists_bodyOf?_append {depth : Nat} {o : Token} {us : List Token}
    (h : bodyOf? depth ts = some (o :: us)) :
    ∃ front, ts = front ++ o :: us ∧
      ∀ us', bodyOf? depth (front ++ o :: us') = some (o :: us') := by
  induction ts generalizing depth with
  | nil => cases h
  | cons t ts ih =>
    have hcons : ∀ depth', (∀ us, bodyOf? depth (t :: us) = bodyOf? depth' us) →
        ∃ front, t :: ts = front ++ o :: us ∧
          ∀ us', bodyOf? depth (front ++ o :: us') = some (o :: us') := by
      intro depth' hstep
      obtain ⟨front, rfl, hfront⟩ := ih (hstep ts ▸ h)
      exact ⟨t :: front, rfl, fun us' => (hstep _).trans (hfront us')⟩
    rw [bodyOf?] at h
    split_ifs at h with hopen hclose hbody hend
    · exact hcons (depth + 1) fun us => by rw [bodyOf?, if_pos hopen]
    · exact hcons (depth - 1) fun us => by rw [bodyOf?, if_neg hopen, if_pos hclose]
    · cases h
      exact ⟨[], rfl, fun us' => by
        rw [List.nil_append, bodyOf?, if_neg hopen, if_neg hclose, if_pos hbody]⟩
    · exact hcons depth fun us => by
        rw [bodyOf?, if_neg hopen, if_neg hclose, if_neg hbody, if_neg hend]

/-- The head of a class that is found is the same, whatever is behind its brace. -/
theorem exists_classHead?_append {before : Option Token} {o : Token} {us : List Token}
    (h : classHead? before ts = some (name, o :: us)) :
    ∃ front, ts = name :: (front ++ o :: us) ∧
      bodyOf? 0 (front ++ o :: us) = some (o :: us) ∧
      ∀ us', classHead? before (name :: (front ++ o :: us')) = some (name, o :: us') := by
  cases ts with
  | nil => cases h
  | cons n ts =>
    rw [classHead?] at h
    split_ifs at h with hno
    obtain ⟨body, hbody, hpair⟩ := Option.map_eq_some_iff.1 h
    cases hpair
    obtain ⟨front, rfl, hfront⟩ := exists_bodyOf?_append hbody
    refine ⟨front, rfl, hbody, fun us' => ?_⟩
    have hhead : (front ++ o :: us').head? = (front ++ o :: us).head? := by cases front <;> rfl
    rw [classHead?, hhead, if_neg hno, hfront]
    rfl

/-- Where no body is found behind some tokens, none is found in front of them. -/
theorem bodyOf?_append_eq_none (h : ∀ depth, bodyOf? depth rest = none → bodyOf? depth rest' = none)
    {depth : Nat} (hfront : bodyOf? depth (front ++ rest) = none) :
    bodyOf? depth (front ++ rest') = none := by
  induction front generalizing depth with
  | nil => exact h depth hfront
  | cons t front ih =>
    rw [List.cons_append, bodyOf?] at hfront ⊢
    split_ifs at hfront ⊢ <;> first | exact ih hfront | rfl

/-- The head of a namespace ends where it does in front of other tokens that start alike. -/
theorem exists_namespaceHead_append {text : String} (hrest : (namespaceHead text ts).2 ≠ []) :
    ∃ front, ts = front ++ (namespaceHead text ts).2 ∧
      ∀ rest', rest'.head? = (namespaceHead text ts).2.head? →
        namespaceHead text (front ++ rest') = ((namespaceHead text ts).1, rest') := by
  fun_induction namespaceHead text ts with
  | case1 => exact absurd rfl hrest
  | case2 text t ts hopen =>
    exact ⟨[t], rfl, fun rest' _ => by rw [List.singleton_append, namespaceHead, if_pos hopen]⟩
  | case3 text t ts hopen hword ih =>
    obtain ⟨front, hts, hfront⟩ := ih hrest
    refine ⟨t :: front, congrArg (t :: ·) hts, fun rest' hhead => ?_⟩
    rw [List.cons_append, namespaceHead, if_neg hopen, if_pos hword, hfront rest' hhead]
  | case4 text t ts hopen hword hcomment ih =>
    obtain ⟨front, hts, hfront⟩ := ih hrest
    refine ⟨t :: front, congrArg (t :: ·) hts, fun rest' hhead => ?_⟩
    rw [List.cons_append, namespaceHead, if_neg hopen, if_neg hword, if_pos hcomment,
      hfront rest' hhead]
  | case5 text t ts hopen hword hcomment =>
    refine ⟨[], rfl, fun rest' hhead => ?_⟩
    cases rest' with
    | nil => cases hhead
    | cons u us =>
      cases hhead
      rw [List.nil_append, namespaceHead, if_neg hopen, if_neg hword, if_neg hcomment]

/-- A run of annotations ends where it does in front of other tokens that start alike. -/
theorem exists_tagRun_append (hrest : (tagRun ts).2 ≠ []) :
    ∃ front, ts = front ++ (tagRun ts).2 ∧
      ∀ rest', rest'.head? = (tagRun ts).2.head? →
        tagRun (front ++ rest') = ((tagRun ts).1, rest') := by
  rw [tagRun_eq] at hrest ⊢
  refine ⟨ts.takeWhile isTagLine, List.takeWhile_append_dropWhile.symm, fun rest' hhead => ?_⟩
  have hall : ∀ t ∈ ts.takeWhile isTagLine, t.isTagLine = true := fun t ht =>
    List.mem_takeWhile_imp ht
  cases rest' with
  | nil => exact absurd (List.head?_eq_none_iff.1 hhead.symm) hrest
  | cons u us =>
    have hu : ¬ u.isTagLine = true := by
      have hdrop := List.head?_dropWhile_not isTagLine ts
      rw [show (ts.dropWhile isTagLine).head? = some u from hhead.symm] at hdrop
      simpa using hdrop
    rw [tagRun_eq, List.takeWhile_append_of_pos hall, List.dropWhile_append_of_pos hall,
      List.takeWhile_cons_of_neg hu, List.dropWhile_cons_of_neg hu, List.append_nil]

/-- The tokens `rest'` look to the heads in front of them as `rest` does: a head without a body
stays one, and a name is followed by a scope sign in both or in none. -/
structure HeadsAlike (rest rest' : List Token) : Prop where
  bodyOf? : ∀ depth, Declaration.bodyOf? depth rest = none → Declaration.bodyOf? depth rest' = none
  scopeSign : (rest.head?.map (·.reads "::")).getD false =
    (rest'.head?.map (·.reads "::")).getD false

theorem HeadsAlike.refl (rest : List Token) : HeadsAlike rest rest := ⟨fun _ h => h, rfl⟩

/-- With the same tokens in front. -/
theorem HeadsAlike.append (h : HeadsAlike rest rest') (front : List Token) :
    HeadsAlike (front ++ rest) (front ++ rest') where
  bodyOf? _ := bodyOf?_append_eq_none h.bodyOf?
  scopeSign := by
    cases front with
    | nil => exact h.scopeSign
    | cons t front => rfl

theorem HeadsAlike.classHead? (h : HeadsAlike rest rest') (before : Option Token) (name : Token)
    (hnone : Declaration.classHead? before (name :: rest) = none) :
    Declaration.classHead? before (name :: rest') = none := by
  rw [Declaration.classHead?] at hnone ⊢
  rw [← h.scopeSign]
  split_ifs at hnone ⊢ with hno
  · rfl
  · rw [Option.map_eq_none_iff] at hnone ⊢
    exact h.bodyOf? 0 hnone

/-- The statements of a body do not depend on what is behind the brace that closes it. -/
theorem memberSites_append_close {inner : List Token} {c : Token} (h : Nested inner)
    (hc : c.isClose = true) (isPublic : Bool) (rest : List Token) :
    memberSites isPublic (inner ++ c :: rest) = memberSites isPublic inner := by
  rw [memberSites_eq_walk, memberSites_eq_walk, memberWalk_append_close h hc]

/-- The tokens close the brace in front of them. -/
def ClosesBody (ts : List Token) : Prop :=
  ∃ inner c more, ts = inner ++ c :: more ∧ Nested inner ∧ c.isClose = true

/-- The class stands in `front`, and its body is not closed there, but goes on in `rest`. -/
def ClassSite.GoesOn (site : ClassSite) (front rest : List Token) : Prop :=
  ∃ (head : List Token) (o : Token) (inner : List Token),
    site.name :: (head ++ o :: inner) <:+ front ∧
    bodyOf? 0 (head ++ o :: (inner ++ rest)) = some (o :: (inner ++ rest)) ∧ ¬ ClosesBody inner

/-- A body that goes on at a token which closes no brace goes on behind it. -/
theorem ClassSite.GoesOn.behind {site : ClassSite} (h : site.GoesOn front (t :: rest))
    (ht : t.isClose = false) : site.GoesOn (front ++ [t]) rest := by
  obtain ⟨head, o, inner, ⟨more, rfl⟩, hbody, hopen⟩ := h
  refine ⟨head, o, inner ++ [t], ⟨more, by simp⟩, by simpa using hbody, ?_⟩
  rintro ⟨nested, c, tail, hinner, hnested, hc⟩
  obtain rfl | ⟨tail, last, rfl⟩ := List.eq_nil_or_concat' tail
  · obtain ⟨-, hlast⟩ := List.append_inj' hinner rfl
    cases hlast
    rw [ht] at hc
    cases hc
  · rw [← List.cons_append, ← List.append_assoc] at hinner
    exact hopen ⟨nested, c, tail, (List.append_inj' hinner rfl).1, hnested, hc⟩

/-- What is met in front of a place when other tokens are behind it.  Only a class whose body goes
on there may have other statements. -/
inductive Finding.Alike (front rest : List Token) : Finding → Finding → Prop
  | other {f : Finding} (h : f.site? = none) : Alike front rest f f
  | closed {site : ClassSite}
      (h : ∀ s ∈ site.sites, s.tokens ⊆ front ∧ ∀ t ∈ s.trailing, t.isComment = true) :
      Alike front rest (.defined site) (.defined site)
  | around {site : ClassSite} {sites : List MemberSite} (h : site.GoesOn front rest) :
      Alike front rest (.defined site) (.defined { site with sites })

theorem Finding.Alike.mono {f f' : Finding} (h : Finding.Alike front rest f f')
    (hfront : front <:+ ts) : Finding.Alike ts rest f f' := by
  cases h with
  | other h => exact .other h
  | closed h =>
    exact .closed fun s hs => ⟨List.Subset.trans (h s hs).1 hfront.subset, (h s hs).2⟩
  | around h =>
    obtain ⟨head, o, inner, hsuffix, hbody, hopen⟩ := h
    exact .around ⟨head, o, inner, hsuffix.trans hfront, hbody, hopen⟩

/-- The class at a keyword, with other tokens behind a place in or behind its body. -/
theorem alike_site (s : WalkState) (keyword : Token) (block : List TagLine) {o : Token}
    {head inner : List Token} (hfront : name :: (head ++ o :: inner) <:+ front)
    (hbody : bodyOf? 0 (head ++ o :: (inner ++ rest)) = some (o :: (inner ++ rest)))
    (rest' : List Token) :
    Finding.Alike front rest (.defined (s.site keyword name block (o :: (inner ++ rest))))
      (.defined (s.site keyword name block (o :: (inner ++ rest')))) := by
  by_cases hclosed : ClosesBody inner
  · obtain ⟨inner, c, more, rfl, hinner, hc⟩ := hclosed
    have hsites : ∀ rest, memberSites (keyword.reads "struct") (inner ++ c :: more ++ rest) =
        memberSites (keyword.reads "struct") inner := fun rest => by
      rw [List.append_assoc, List.cons_append]
      exact memberSites_append_close hinner hc _ _
    have hsame : s.site keyword name block (o :: (inner ++ c :: more ++ rest')) =
        s.site keyword name block (o :: (inner ++ c :: more ++ rest)) := by
      simp only [WalkState.site, List.tail_cons, hsites]
    have hsubset : inner ⊆ front := by
      refine List.Subset.trans ?_ hfront.subset
      intro t ht
      simp [ht]
    rw [hsame]
    refine .closed fun site hsite => ?_
    rw [WalkState.site, List.tail_cons, hsites] at hsite
    exact ⟨List.Subset.trans (tokens_memberSites_subset hsite) hsubset,
      isComment_of_mem_memberSites hsite⟩
  · exact .around ⟨head, o, inner, hfront, hbody, hclosed⟩

/-- **A step is the same with other tokens behind a class keyword**, but for the statements of a
class around it. -/
theorem Step.exists_append (h : Step s ts found s' ts') (hts : ts' = front ++ keyword :: rest)
    (hkeyword : keyword.isClassKeyword = true) (halike : HeadsAlike rest rest') :
    ∃ more found', ts = more ++ ts' ∧
      Step s (more ++ (front ++ keyword :: rest')) found' s' (front ++ keyword :: rest') ∧
      List.Forall₂ (Finding.Alike (more ++ front) (keyword :: rest)) found found' := by
  have hhead : (front ++ keyword :: rest').head? = ts'.head? := by
    rw [hts]
    cases front <;> rfl
  have hne : ts' ≠ [] := by simp [hts]
  cases h with
  | comment hcomment hline => exact ⟨[_], [], rfl, .comment hcomment hline, .nil⟩
  | @stray t _ line block hcomment hline hwaiting =>
    exact ⟨[_], [.stray t.line], rfl, .stray hcomment hline hwaiting, .cons (.other rfl) .nil⟩
  | @opened t ts line hcomment hline hwaiting =>
    obtain ⟨more, hmore, hrun⟩ := exists_tagRun_append hne
    have hrun := hrun _ hhead
    have hstep : Step s (t :: (more ++ (front ++ keyword :: rest'))) _ _ _ :=
      .opened hcomment hline hwaiting
    rw [hrun] at hstep
    exact ⟨t :: more, _, congrArg (t :: ·) hmore, hstep, .cons (.other rfl) .nil⟩
  | @namespaceHead t ts hspace =>
    obtain ⟨more, hmore, hrun⟩ := exists_namespaceHead_append hne
    have hrun := hrun _ hhead
    have hstep : Step s (t :: (more ++ (front ++ keyword :: rest'))) _ _ _ := .namespaceHead hspace
    rw [hrun] at hstep
    exact ⟨t :: more, _, congrArg (t :: ·) hmore, hstep, .nil⟩
  | @code t _ hcomment hspace hclass =>
    refine ⟨[t], [], rfl, .code hcomment hspace fun hkeyword hwaiting => ?_, .nil⟩
    have hclass := hclass hkeyword hwaiting
    rw [hts] at hclass
    cases front with
    | nil => exact halike.classHead? s.before keyword hclass
    | cons name front =>
      have halike' := (halike.append (front ++ [keyword])).classHead? s.before name
      rw [List.append_assoc, List.append_assoc, List.singleton_append] at halike'
      exact halike' hclass
  | @defined keyword' name ts _ block hkeyword' hwaiting hhead' =>
    obtain ⟨-, -, -, hbrace⟩ := exists_classHead? hhead'
    cases front with
    | nil =>
      have hreads := hbrace keyword (by rw [hts]; rfl)
      rw [reads_of_isClassKeyword hkeyword (by decide) (by decide)] at hreads
      cases hreads
    | cons o front =>
      rw [hts, List.cons_append] at hhead'
      obtain ⟨more, hmore, hbody, hfound⟩ := exists_classHead?_append hhead'
      refine ⟨keyword' :: name :: more, _, ?_, .defined hkeyword' hwaiting (hfound _), ?_⟩
      · rw [hmore, hts]
        rfl
      · rw [hts]
        exact .cons ((alike_site s keyword' block List.suffix_rfl hbody _).mono
          (List.suffix_cons keyword' _)) .nil

/-- **The walk comes to a class keyword in the same way** when other tokens are behind it, but for
the statements of the classes around it. -/
theorem Comes.exists_append {all : List Token} (h : Comes s ts found s' all)
    (hall : all = keyword :: rest) (hkeyword : keyword.isClassKeyword = true)
    (halike : HeadsAlike rest rest') :
    ∃ front found', ts = front ++ keyword :: rest ∧
      Comes s (front ++ keyword :: rest') found' s' (keyword :: rest') ∧
      List.Forall₂ (Finding.Alike front (keyword :: rest)) found found' := by
  induction h with
  | here => exact ⟨[], [], hall, .here, .nil⟩
  | step hstep _ ih =>
    obtain ⟨front, found', hts, hcomes, hfound⟩ := ih hall
    obtain ⟨more, found'', hmore, hstep', hfound'⟩ := hstep.exists_append hts hkeyword halike
    refine ⟨more ++ front, found'' ++ found', ?_, ?_, ?_⟩
    · rw [hmore, hts, List.append_assoc]
    · rw [List.append_assoc]
      exact .step hstep' hcomes
    · exact List.rel_append hfound'
        (hfound.imp fun _ _ h => h.mono (List.suffix_append more front))

/-! ### The classes in front of a place -/

/-- A class without its members. -/
def DeclaredClass.withoutMembers (c : DeclaredClass) : DeclaredClass := { c with members := [] }

/-- The classes that are found in `front` are kept when other tokens than `rest` are behind it, but
for the members of a class whose body goes on there. -/
def KeptInFront (source : List Char) (front rest : List Token) :
    List ClassSite → List DeclaredClass → Prop :=
  List.Forall₂ fun site c =>
    c.withoutMembers = (site.declared source).withoutMembers ∧
      (¬ site.GoesOn front rest → c = site.declared source)

/-- What a class in front of a place declares does not depend on what is behind the place. -/
theorem declared_in_front {a : List Char} {site : ClassSite} (hfront : front ⊆ Token.ofText a)
    (h : ∀ s ∈ site.sites, s.tokens ⊆ front ∧ ∀ t ∈ s.trailing, t.isComment = true)
    (b b' : List Char) : site.declared (a ++ b) = site.declared (a ++ b') := by
  have hmembers : site.sites.filterMap (MemberSite.member? (a ++ b)) =
      site.sites.filterMap (MemberSite.member? (a ++ b')) := List.filterMap_congr fun s hs =>
    member?_in_front (List.Subset.trans (h s hs).1 hfront) (h s hs).2 b b'
  rw [ClassSite.declared, ClassSite.declared, hmembers]

theorem keptInFront {a : List Char} (hfront : front ⊆ Token.ofText a) {found' : List Finding}
    (h : List.Forall₂ (Finding.Alike front rest) found found') (b b' : List Char) :
    KeptInFront (a ++ b) front rest (found.filterMap Finding.site?)
      ((found'.filterMap Finding.site?).map (ClassSite.declared (a ++ b'))) := by
  induction h with
  | nil => exact .nil
  | cons hf _ ih =>
    cases hf with
    | other hnone =>
      rw [List.filterMap_cons_none hnone, List.filterMap_cons_none hnone]
      exact ih
    | closed hsites =>
      have hsame := declared_in_front hfront hsites b' b
      exact .cons ⟨congrArg _ hsame, fun _ => hsame⟩ ih
    | around hgoes =>
      refine .cons ⟨?_, fun hno => absurd hgoes hno⟩ ih
      simp only [DeclaredClass.withoutMembers, ClassSite.declared]

theorem KeptInFront.behind {source : List Char} {sites : List ClassSite}
    {classes : List DeclaredClass} (h : KeptInFront source front (t :: rest) sites classes)
    (ht : t.isClose = false) : KeptInFront source (front ++ [t]) rest sites classes :=
  h.imp fun _ _ hkept => ⟨hkept.1, fun hno => hkept.2 fun hgoes => hno (hgoes.behind ht)⟩

/-- The classes in front of the place are the same but for their members. -/
theorem KeptInFront.map_withoutMembers {source : List Char} {sites : List ClassSite}
    {classes : List DeclaredClass} (h : KeptInFront source front rest sites classes) :
    classes.map DeclaredClass.withoutMembers =
      (sites.map (ClassSite.declared source)).map DeclaredClass.withoutMembers := by
  induction h with
  | nil => rfl
  | cons h _ ih => rw [List.map_cons, List.map_cons, List.map_cons, h.1, ih]

end RowMapping
