import Mathlib.Data.List.Flatten
import RowMapping.Proofs.Declared
import RowMapping.Proofs.Nested
import RowMapping.Proofs.Tiling
/-!
# Runs of annotations and their classes

Annotations that follow each other make a run.  The walk over a header gives every annotated class
one run in front of its keyword as a whole, and no run to two classes.

* `annotationRuns`: the maximal runs among tokens;
* `Binding`: a class with its run and its keyword;
* `Bound`: the tokens as a walk divides them: a run, the keyword and the name of its class, and so
  on behind the name;
* `reached_findings`: the classes that a walk finds are those of such a division;
* `declaredClasses_own_runs`: the classes of a header own runs of it, in order.
-/

namespace RowMapping

open Declaration

/-- The token is an annotation: a comment that is first on its line and has the marker. -/
def Token.isTagLine (t : Token) : Bool := t.tagLine?.isSome

/-- The tags in an annotation. -/
def Token.lineTags (t : Token) : List ClassTag := (t.tagLine?.map TagLine.tags).getD []

/-- The maximal runs of annotations among tokens, in order. -/
def annotationRuns (ts : List Token) : List (List Token) :=
  (ts.splitOnP fun t => !t.isTagLine).filter fun run => !run.isEmpty

/-! ### Places between runs -/

section

variable {t : Token} {a b ts run : List Token} {text : String}

theorem isTagLine_of_reads (h : t.reads text = true) : t.isTagLine = false := by
  rw [Token.isTagLine, Token.tagLine?, Token.isComment_of_reads h]
  rfl

theorem isTagLine_of_word (h : t.kind = .word) : t.isTagLine = false := by
  rw [Token.isTagLine, Token.tagLine?, Token.isComment, h]
  rfl

theorem isTagLine_of_isComment (h : t.isComment = false) : t.isTagLine = false := by
  rw [Token.isTagLine, Token.tagLine?, h]
  rfl

theorem annotationRuns_append_cons (h : t.isTagLine = false) (a b : List Token) :
    annotationRuns (a ++ t :: b) = annotationRuns a ++ annotationRuns b := by
  rw [annotationRuns, List.splitOnP_append_cons a b (by rw [h]; rfl), List.filter_append]
  rfl

theorem annotationRuns_append_of_getLast? (h : ∀ t ∈ a.getLast?, t.isTagLine = false)
    (b : List Token) : annotationRuns (a ++ b) = annotationRuns a ++ annotationRuns b := by
  rcases List.eq_nil_or_concat a with rfl | ⟨a, t, rfl⟩
  · rfl
  · have ht : t.isTagLine = false := h t (by simp)
    rw [List.concat_eq_append, List.append_assoc, List.singleton_append,
      annotationRuns_append_cons ht, annotationRuns_append_cons ht a []]
    simp [annotationRuns]

theorem annotationRuns_append_of_head? (h : ∀ t ∈ b.head?, t.isTagLine = false) (a : List Token) :
    annotationRuns (a ++ b) = annotationRuns a ++ annotationRuns b := by
  cases b with
  | nil => simp [annotationRuns]
  | cons t b =>
    have ht : t.isTagLine = false := h t rfl
    rw [annotationRuns_append_cons ht]
    exact congrArg _ (annotationRuns_append_cons ht [] b).symm

theorem annotationRuns_of_all (h : ∀ t ∈ run, t.isTagLine = true) (hne : run ≠ []) :
    annotationRuns run = [run] := by
  rw [annotationRuns, List.splitOnP_eq_singleton fun t ht => by rw [h t ht]; rfl]
  simpa using hne

/-- The runs hold all annotations. -/
theorem flatten_annotationRuns (ts : List Token) :
    (annotationRuns ts).flatten = ts.filter Token.isTagLine := by
  rw [annotationRuns, List.flatten_filter_not_isEmpty]
  induction ts with
  | nil => rfl
  | cons t ts ih =>
    rw [List.splitOnP_cons_eq_if_modifyHead, List.filter_cons]
    obtain ⟨run, runs, hruns⟩ := List.exists_cons_of_ne_nil
      (List.splitOnP_ne_nil (fun t : Token => !t.isTagLine) ts)
    rw [← ih, hruns]
    cases t.isTagLine <;> rfl

end

/-! ### Runs and their classes -/

/-- An annotated class of a header, with its run of annotations and its keyword. -/
structure Binding where
  run : List Token
  keyword : Token
  site : ClassSite

/-- The class is read from its run and its keyword. -/
structure Binding.IsRead (b : Binding) : Prop where
  keyword : b.keyword.reads "struct" = true ∨ b.keyword.reads "class" = true
  isStruct : b.site.isStruct = b.keyword.reads "struct"
  name : b.site.name.kind = .word
  block : b.site.block = b.run.filterMap Token.tagLine?

/-- The tags of the class are those of the annotations of its run, in order. -/
theorem Binding.IsRead.blockTags {b : Binding} (h : b.IsRead) :
    TagLine.blockTags b.site.block = b.run.flatMap Token.lineTags := by
  rw [TagLine.blockTags, h.block]
  induction b.run with
  | nil => rfl
  | cons t run ih =>
    rw [List.filterMap_cons, List.flatMap_cons, ← ih, Token.lineTags]
    cases t.tagLine? <;> rfl

/-- Tokens as a walk divides them that looks for annotations first: a run, the keyword and the name
of its class, no other class being between them, and so on behind the name. -/
inductive Bound : List Token → List Binding → Prop
  | nil (ts : List Token) : Bound ts []
  | cons {skipped between rest : List Token} {b : Binding} {bs : List Binding}
      (hskipped : ∀ t ∈ skipped.getLast?, t.isTagLine = false) (hne : b.run ≠ [])
      (hrun : ∀ t ∈ b.run, t.isTagLine = true)
      (hbetween : ∀ t ∈ (between ++ [b.keyword]).head?, t.isTagLine = false) (hread : b.IsRead)
      (hrest : Bound rest bs) :
      Bound (skipped ++ (b.run ++ (between ++ b.keyword :: b.site.name :: rest))) (b :: bs)

/-- The tokens as a walk divides them that looks for the class of a run. -/
inductive Sought (run : List Token) : List Token → List ClassSite → Prop
  | nil (ts : List Token) : Sought run ts []
  | cons {between rest : List Token} {b : Binding} {bs : List Binding} (hrun : b.run = run)
      (hread : b.IsRead) (hrest : Bound rest bs) :
      Sought run (between ++ b.keyword :: b.site.name :: rest) (b.site :: bs.map Binding.site)

/-- The classes that a walk over `ts` finds, where `waiting` is the block whose class is sought. -/
def Reached (ts : List Token) (sites : List ClassSite) : Option (List TagLine) → Prop
  | none => ∃ bs, Bound ts bs ∧ sites = bs.map Binding.site
  | some block => ∀ run, block = run.filterMap Token.tagLine? → Sought run ts sites

/-- No run goes on from the end of `a` to the beginning of `b`: code stands at one of the two. -/
def Apart (a b : List Token) : Prop :=
  (∃ t ∈ a.getLast?, t.isTagLine = false) ∨ ∀ t ∈ b.head?, t.isTagLine = false

section

variable {front ts : List Token} {bs : List Binding} {sites : List ClassSite}
  {waiting : Option (List TagLine)}

theorem Bound.append (h : Bound ts bs) (hfront : Apart front ts) : Bound (front ++ ts) bs := by
  cases h with
  | nil => exact .nil _
  | @cons skipped between rest b bs hskipped hne hrun hbetween hread hrest =>
    rw [← List.append_assoc]
    refine .cons (fun t ht => ?_) hne hrun hbetween hread hrest
    rcases List.eq_nil_or_concat skipped with rfl | ⟨skipped, u, rfl⟩
    · -- the run comes next, so the tokens in front of it end in code
      obtain ⟨u, us, hus⟩ := List.exists_cons_of_ne_nil hne
      rw [List.append_nil] at ht
      rcases hfront with ⟨v, hv, hcode⟩ | hfront
      · rwa [Option.mem_unique ht hv]
      · have hu := hfront u (by simp [hus])
        rw [hrun u (by simp [hus])] at hu
        cases hu
    · exact hskipped t (by simpa using ht)

theorem Sought.append {run : List Token} (h : Sought run ts sites) (front : List Token) :
    Sought run (front ++ ts) sites := by
  cases h with
  | nil => exact .nil _
  | cons hrun hread hrest =>
    rw [← List.append_assoc]
    exact .cons hrun hread hrest

/-- The class of the run is defined here. -/
theorem Sought.head {b : Binding} (hread : b.IsRead) (hrest : Bound ts bs) :
    Sought b.run (b.keyword :: b.site.name :: ts) (b.site :: bs.map Binding.site) := by
  rw [← List.nil_append (b.keyword :: _)]
  exact .cons rfl hread hrest

theorem Reached.append (h : Reached ts sites waiting) (hfront : Apart front ts) :
    Reached (front ++ ts) sites waiting := by
  cases waiting with
  | none =>
    obtain ⟨bs, hbs, hsites⟩ := h
    exact ⟨bs, hbs.append hfront, hsites⟩
  | some block => exact fun run hrun => (h run hrun).append front

/-- A token that is no annotation is passed over. -/
theorem Reached.cons {t : Token} (h : Reached ts sites waiting) (ht : t.isTagLine = false) :
    Reached (t :: ts) sites waiting := by
  have hapart : Apart [t] ts := .inl ⟨t, rfl, ht⟩
  exact h.append hapart

end

theorem tagRun_eq (ts : List Token) : tagRun ts =
    ((ts.takeWhile Token.isTagLine).filterMap Token.tagLine?, ts.dropWhile Token.isTagLine) := rfl

/-- Behind a run that is read to its end, its class is sought. -/
theorem Sought.bound {run ts : List Token} {sites : List ClassSite} (h : Sought run ts sites)
    (hne : run ≠ []) (hrun : ∀ t ∈ run, t.isTagLine = true)
    (hts : ∀ t ∈ ts.head?, t.isTagLine = false) :
    ∃ bs, Bound (run ++ ts) bs ∧ sites = bs.map Binding.site := by
  cases h with
  | nil => exact ⟨[], .nil _, rfl⟩
  | @cons between rest b bs hb hread hrest =>
    subst hb
    have hnone : ∀ t ∈ ([] : List Token).getLast?, t.isTagLine = false := by simp
    refine ⟨b :: bs, .cons hnone hne hrun (fun t ht => hts t ?_) hread hrest, rfl⟩
    cases between <;> exact ht

/-- The walk finds classes that are bound to runs. -/
theorem reached_findings (before : Option Token) (scopes : List Scope)
    (waiting : Option (List TagLine)) (ts : List Token) :
    Reached ts ((findings before scopes waiting ts).filterMap Finding.site?) waiting := by
  fun_induction findings before scopes waiting ts with
  | case1 before scopes waiting =>
    cases waiting with
    | none => exact ⟨[], .nil _, rfl⟩
    | some block =>
      intro run _
      have hnone : (finishing (some block)).filterMap Finding.site? = [] := by
        rw [finishing]
        split <;> rfl
      rw [hnone]
      exact .nil _
  | case2 before scopes waiting t ts hcomment hnone ih =>
    exact ih.cons (by rw [Token.isTagLine, hnone]; rfl)
  | case3 before scopes t ts hcomment line hline block ih =>
    -- an annotation that is passed over while a class is sought
    exact fun run hrun => (ih run hrun).append [t]
  | case4 before scopes t ts hcomment line hline ih =>
    have hrun := ih (t :: ts.takeWhile Token.isTagLine) (by
      rw [List.filterMap_cons, hline, tagRun_eq])
    have hall : ∀ u ∈ t :: ts.takeWhile Token.isTagLine, u.isTagLine = true := by
      rintro u (_ | ⟨_, hu⟩)
      · rw [Token.isTagLine, hline]; rfl
      · exact List.mem_takeWhile_imp hu
    obtain ⟨bs, hbs, hsites⟩ := hrun.bound (List.cons_ne_nil _ _) hall fun u hu => by
      have hhead := List.head?_dropWhile_not Token.isTagLine ts
      rwa [show (ts.dropWhile Token.isTagLine).head? = some u from hu] at hhead
    refine ⟨bs, ?_, hsites⟩
    rwa [tagRun_eq, List.cons_append, List.takeWhile_append_dropWhile] at hbs
  | case5 before scopes waiting t ts hcomment hspace ih =>
    obtain ⟨front, hts, hfront⟩ := exists_namespaceHead "" ts
    have hapart : Apart front (namespaceHead "" ts).2 :=
      hfront.imp (.imp fun _ => .imp_right isTagLine_of_reads)
        fun hcode t ht => isTagLine_of_isComment (hcode t ht)
    have hmore := (ih.append hapart).cons (isTagLine_of_reads hspace)
    rwa [← hts] at hmore
  | case6 before scopes waiting t ts hcomment hspace hopen ih =>
    exact ih.cons (isTagLine_of_reads hopen)
  | case7 before scopes waiting t ts hcomment hspace hopen hclose ih =>
    exact ih.cons (isTagLine_of_reads hclose)
  | case8 before scopes t ts hcomment hspace hopen hclose hkeyword block name body hhead ih =>
    obtain ⟨bs, hbs, hsites⟩ := ih
    obtain ⟨hname, front, rfl, hopen⟩ := exists_classHead? hhead
    have hfront : Apart front body := .inr fun t ht => isTagLine_of_reads (hopen t ht)
    intro run hrun
    rw [List.filterMap_cons_some (by rw [Finding.site?]), hsites]
    have hread : Binding.IsRead ⟨run, t, ⟨name, t.reads "struct", Scope.path scopes, block,
        memberSites (t.reads "struct") body.tail⟩⟩ :=
      ⟨by simpa using hkeyword, rfl, hname, hrun⟩
    exact .head hread (hbs.append hfront)
  | case9 before scopes waiting t ts hcomment hspace hopen hclose hkeyword hnone ih =>
    exact ih.cons (isTagLine_of_isComment (Bool.eq_false_iff.2 hcomment))
  | case10 before scopes waiting t ts hcomment hspace hopen hclose hkeyword ih =>
    exact ih.cons (isTagLine_of_isComment (Bool.eq_false_iff.2 hcomment))

/-! ### What a division says of its classes -/

section

variable {ts : List Token} {bs : List Binding} {b : Binding}

/-- A class in tokens: its run, and its keyword and its name somewhere behind the run. -/
def Binding.StandsIn (b : Binding) (ts : List Token) : Prop :=
  ∃ front between back, ts = front ++ (b.run ++ (between ++ b.keyword :: b.site.name :: back))

theorem Binding.StandsIn.append (h : b.StandsIn ts) (front : List Token) :
    b.StandsIn (front ++ ts) := by
  obtain ⟨front', between, back, rfl⟩ := h
  exact ⟨front ++ front', between, back, by rw [List.append_assoc]⟩

theorem Bound.of_mem (h : Bound ts bs) (hb : b ∈ bs) :
    b.IsRead ∧ b.run ≠ [] ∧ b.StandsIn ts := by
  induction h with
  | nil => cases hb
  | @cons skipped between rest b' bs _ hne _ _ hread _ ih =>
    rcases List.mem_cons.1 hb with rfl | hb
    · exact ⟨hread, hne, skipped, between, rest, rfl⟩
    · obtain ⟨hread, hne, hstands⟩ := ih hb
      have hmore := hstands.append
        (skipped ++ (b'.run ++ (between ++ [b'.keyword, b'.site.name])))
      exact ⟨hread, hne, by simpa using hmore⟩

/-- The runs of the classes are runs of the tokens, in order. -/
theorem Bound.sublist (h : Bound ts bs) :
    (bs.map Binding.run).Sublist (annotationRuns ts) := by
  induction h with
  | nil => exact List.nil_sublist _
  | @cons skipped between rest b bs hskipped hne hrun hbetween hread _ ih =>
    have hhead : ∀ t ∈ (between ++ b.keyword :: b.site.name :: rest).head?,
        t.isTagLine = false := fun t ht => hbetween t (by cases between <;> exact ht)
    rw [annotationRuns_append_of_getLast? hskipped, annotationRuns_append_of_head? hhead,
      annotationRuns_of_all hrun hne, List.append_cons between,
      annotationRuns_append_cons (isTagLine_of_word hread.name)]
    exact ((ih.trans (List.sublist_append_right _ _)).cons_cons b.run).trans
      (List.sublist_append_right _ _)

/-- The run of a later class lies behind the name of an earlier one. -/
theorem Bound.pairwise {R : Token → Token → Prop} (h : Bound ts bs) (hts : ts.Pairwise R) :
    bs.Pairwise fun b b' => ∀ t ∈ b'.run, R b.site.name t := by
  induction h with
  | nil => exact .nil
  | @cons skipped between rest b bs _ _ _ _ _ hrest ih =>
    have htail : (b.site.name :: rest).Pairwise R := by
      refine hts.sublist (List.IsSuffix.sublist ?_)
      exact ⟨skipped ++ (b.run ++ (between ++ [b.keyword])), by simp⟩
    refine .cons (fun b' hb' t ht => ?_) (ih (List.pairwise_cons.1 htail).2)
    obtain ⟨-, -, front, between, back, rfl⟩ := hrest.of_mem hb'
    exact (List.pairwise_cons.1 htail).1 t (by simp [ht])

/-- In tokens that are ordered, a class is. -/
theorem Binding.StandsIn.ordered {R : Token → Token → Prop} (h : b.StandsIn ts)
    (hts : ts.Pairwise R) : (∀ t ∈ b.run, R t b.keyword) ∧ R b.keyword b.site.name := by
  obtain ⟨front, between, back, rfl⟩ := h
  have hrun := (List.pairwise_append.1 hts).2.1
  have hkeyword := (List.pairwise_append.1 (List.pairwise_append.1 hrun).2.1).2.1
  exact ⟨fun t ht => (List.pairwise_append.1 hrun).2.2 t ht b.keyword (by simp),
    (List.pairwise_cons.1 hkeyword).1 b.site.name (by simp)⟩

theorem Binding.StandsIn.infix (h : b.StandsIn ts) : [b.keyword, b.site.name] <:+: ts := by
  obtain ⟨front, between, back, rfl⟩ := h
  exact ⟨front ++ (b.run ++ between), back, by simp⟩

end

/-- The class `b` comes before `c`, whose run begins behind the name of `b`. -/
def Binding.Precedes (b c : Binding) : Prop :=
  b.site.name.start < c.site.name.start ∧ ∀ t ∈ c.run, b.site.name.stop ≤ t.start

section

variable {source : List Char} {bs : List Binding} {b c : Binding}

/-- The run, the keyword and the name of a class of a header follow each other. -/
theorem Bound.placed (h : Bound (Token.ofText source) bs) (hb : b ∈ bs) :
    (∀ t ∈ b.run, t.start < t.stop ∧ t.stop ≤ b.keyword.start) ∧
      b.keyword.start < b.site.name.start ∧ b.site.name.start < b.site.name.stop := by
  obtain ⟨-, -, hstands⟩ := h.of_mem hb
  obtain ⟨hrun, hname⟩ :=
    hstands.ordered (List.pairwise_append.1 (pairwise_stream source)).1
  have hlt : ∀ t ∈ b.run ++ [b.keyword, b.site.name], t.start < t.stop := by
    intro t ht
    obtain ⟨front, between, back, htokens⟩ := hstands
    have hmem : t ∈ Token.ofText source := by
      rw [htokens]
      simp only [List.mem_append, List.mem_cons, List.not_mem_nil, or_false] at ht ⊢
      tauto
    exact start_lt_stop_of_mem hmem
  have hkeyword := hlt b.keyword (by simp)
  exact ⟨fun t ht => ⟨hlt t (by simp [ht]), hrun t ht⟩, by omega, hlt b.site.name (by simp)⟩

theorem Bound.pairwise_precedes (h : Bound (Token.ofText source) bs) :
    bs.Pairwise Binding.Precedes := by
  refine (h.pairwise (List.pairwise_append.1 (pairwise_stream source)).1).imp_of_mem ?_
  intro b c hb hc hrun
  obtain ⟨t, ht⟩ := List.exists_mem_of_ne_nil c.run (h.of_mem hc).2.1
  have hbc := hrun t ht
  obtain ⟨-, -, hname⟩ := h.placed hb
  obtain ⟨hplaced, hkeyword, -⟩ := h.placed hc
  have htc := hplaced t ht
  exact ⟨by omega, hrun⟩

theorem Bound.eq_or_precedes (h : Bound (Token.ofText source) bs) (hb : b ∈ bs) (hc : c ∈ bs) :
    b = c ∨ b.Precedes c ∨ c.Precedes b := by
  have hpairwise := h.pairwise_precedes
  exact List.Pairwise.forall_of_forall_of_flip (R := fun b c => b = c ∨ b.Precedes c ∨ c.Precedes b)
    (fun _ _ => .inl rfl) (hpairwise.imp fun hbc => .inr (.inl hbc))
    (hpairwise.imp fun hcb => .inr (.inr hcb)) hb hc

/-- No annotation belongs to two classes. -/
theorem Bound.nodup (h : Bound (Token.ofText source) bs) : (bs.flatMap Binding.run).Nodup := by
  have hsub := h.sublist.flatten
  rw [flatten_annotationRuns] at hsub
  exact (nodup_ofText source).sublist (hsub.trans List.filter_sublist)

end

/-- **Classes own runs of annotations.**  Every annotated class of a header is bound to a maximal
run of annotations in front of its keyword, the order of the classes being that of their names and
of their runs.  The tags of the class are all those of its run, in order; no annotation belongs to
two classes; and between a run and the keyword of its class, neither is another class found nor does
another run belong to a class. -/
theorem declaredClasses_own_runs (source : List Char) : ∃ bound : List Binding,
    declaredClasses source = bound.map (fun b => b.site.declared source) ∧
    (bound.map Binding.run).Sublist (annotationRuns (Token.ofText source)) ∧
    (declaredClasses source).length ≤ (annotationRuns (Token.ofText source)).length ∧
    (∀ b ∈ bound, b.IsRead ∧ (b.site.declared source).tags = b.run.flatMap Token.lineTags ∧
      [b.keyword, b.site.name] <:+: Token.ofText source ∧
      ∀ t ∈ b.run, t.stop ≤ b.keyword.start) ∧
    bound.Pairwise Binding.Precedes ∧
    (bound.flatMap Binding.run).Nodup ∧
    (∀ b ∈ bound, ∀ c ∈ bound, ∀ t ∈ b.run, t.start < c.keyword.start →
      b.keyword.start ≤ c.keyword.start) ∧
    ∀ b ∈ bound, ∀ run, (∀ t ∈ run, (∀ u ∈ b.run, u.stop ≤ t.start) ∧ t.stop ≤ b.keyword.start) →
      ∀ c ∈ bound, c.run ≠ run := by
  obtain ⟨bound, hbound, hsites⟩ := reached_findings none [] none (Token.ofText source)
  have hclasses : declaredClasses source = bound.map (fun b => b.site.declared source) := by
    rw [declaredClasses, sourceFindings, hsites, List.map_map]
    rfl
  refine ⟨bound, hclasses, hbound.sublist, ?_, ?_, hbound.pairwise_precedes, hbound.nodup, ?_, ?_⟩
  · rw [hclasses, List.length_map, ← List.length_map Binding.run]
    exact hbound.sublist.length_le
  · intro b hb
    obtain ⟨hread, -, hstands⟩ := hbound.of_mem hb
    exact ⟨hread, hread.blockTags, hstands.infix, fun t ht => ((hbound.placed hb).1 t ht).2⟩
  · intro b hb c hc t ht hbefore
    obtain ⟨hb', -, -⟩ := hbound.placed hb
    obtain ⟨hc', hkeyword, hname⟩ := hbound.placed hc
    rcases hbound.eq_or_precedes hb hc with rfl | ⟨-, hbc⟩ | ⟨-, hcb⟩
    · exact Nat.le_refl _
    · obtain ⟨u, hu⟩ := List.exists_mem_of_ne_nil c.run (hbound.of_mem hc).2.1
      have hbu := hbc u hu
      have huc := hc' u hu
      obtain ⟨-, hkeyword, hname⟩ := hbound.placed hb
      omega
    · have hcb := hcb t ht
      omega
  · rintro b hb _ hrun c hc rfl
    obtain ⟨u, hu⟩ := List.exists_mem_of_ne_nil b.run (hbound.of_mem hb).2.1
    obtain ⟨t, ht⟩ := List.exists_mem_of_ne_nil c.run (hbound.of_mem hc).2.1
    obtain ⟨hbehind, hbefore⟩ := hrun t ht
    have hut := hbehind u hu
    obtain ⟨hb', hkeyword, hname⟩ := hbound.placed hb
    obtain ⟨hc', hkeyword', hname'⟩ := hbound.placed hc
    have hu' := hb' u hu
    have ht' := hc' t ht
    rcases hbound.eq_or_precedes hb hc with rfl | ⟨-, hbc⟩ | ⟨-, hcb⟩
    · have hself := hbehind t ht
      omega
    · have hbt := hbc t ht
      omega
    · have hcu := hcb u hu
      omega

end RowMapping
