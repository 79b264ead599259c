import RowMapping.Proofs.EnclosingNamespace
import RowMapping.Proofs.IndexedScan
import RowMapping.Proofs.RoundTrip
import RowMapping.Proofs.TokenCores
/-!
# The scan by positions stays in bounds

None of the loops over positions has a fault, whatever the header is: braces, brackets and angle
brackets may stay open, and positions may pass the end mark.  Each loop computes what the walk over
the tokens ahead computes, and so the scan finds the annotated classes of the header.

* `between`: the elements between two positions;
* `bracketLoop_run`, `attributeLoop_run`: attribute groups;
* `Scanner.ahead`: what comes at a position, which is the case split of every loop;
* `Scanner.braceLoop_run`, `Spans`, `statementLoop_run`: statements;
* `Scanner.memberAt_eq`, `membersLoop_run`: members;
* `Scanner.namespaceLoop_run`, `classAt_eq`, `tagLoop_run`: the heads of namespaces and classes, and
  runs of annotations;
* `Scanner.Agrees`: what a walk knows of the token of code before a position.

Main statements: `Scanner.scanLoop_run`, the walk from any place of a header; `scan_eq`, the whole
header.
-/

namespace RowMapping

open Declaration Text

/-! ### Elements between two positions -/

section

variable {α : Type}

/-- The elements from one position on, up to another one. -/
def between (xs : List α) (i j : Nat) : List α := (xs.drop i).take (j - i)

@[simp] theorem between_self (xs : List α) (i : Nat) : between xs i i = [] := by
  rw [between, Nat.sub_self, List.take_zero]

theorem between_cons {xs rest : List α} {x : α} {i j : Nat} (h : xs.drop i = x :: rest)
    (hij : i < j) : between xs i j = x :: between xs (i + 1) j := by
  have hrest : xs.drop (i + 1) = rest := by rw [← List.drop_drop, h]; rfl
  obtain ⟨n, rfl⟩ : ∃ n, j = i + 1 + n := ⟨j - (i + 1), by omega⟩
  rw [between, between, h, hrest, Nat.add_sub_cancel_left,
    show i + 1 + n - i = n + 1 by omega, List.take_succ_cons]

theorem between_append {xs : List α} {i j k : Nat} (hij : i ≤ j) (hjk : j ≤ k) :
    between xs i j ++ between xs j k = between xs i k := by
  obtain ⟨m, rfl⟩ := Nat.exists_eq_add_of_le hij
  obtain ⟨n, rfl⟩ := Nat.exists_eq_add_of_le hjk
  rw [between, between, between, Nat.add_sub_cancel_left, Nat.add_sub_cancel_left,
    show i + m + n - i = m + n by omega, List.take_add, List.drop_drop]

theorem between_of_le {xs : List α} {i : Nat} (h : xs.length ≤ i) (j : Nat) :
    between xs i j = [] := by
  rw [between, List.drop_eq_nil_of_le h, List.take_nil]

theorem drop_cases (xs : List α) (i : Nat) : (xs.length ≤ i ∧ xs.drop i = []) ∨
    ∃ h : i < xs.length, xs.drop i = xs[i] :: xs.drop (i + 1) := by
  rcases Nat.lt_or_ge i xs.length with h | h
  · exact .inr ⟨h, List.drop_eq_getElem_cons h⟩
  · exact .inl ⟨h, List.drop_eq_nil_of_le h⟩

end

/-! ### Attribute groups -/

section

variable {code : List Token}

/-- The search for a closing bracket ends at it: what follows it is what comes after the group. -/
theorem bracketLoop_run {p : Nesting}
    (hp : 0 < p.depth ∨ ∃ t ∈ code[p.index]?, t.reads "[" = true) :
    ∃ i, (bracketLoop code).run p = .ok i ∧
      afterBrackets p.depth (code.drop p.index) = code.drop (i + 1) := by
  refine Loop.run_ok (I := fun p => 0 < p.depth ∨ ∃ t ∈ code[p.index]?, t.reads "[" = true)
    (P := fun p i => afterBrackets p.depth (code.drop p.index) = code.drop (i + 1))
    (fun p hp => ?_) p hp
  rcases drop_cases code p.index with ⟨hle, hdrop⟩ | ⟨hlt, hdrop⟩
  · refine .done (if_neg (Nat.not_lt.2 hle)) ?_
    rw [hdrop, afterBrackets, List.drop_eq_nil_of_le (Nat.le_succ_of_le hle)]
  · have hget : elementAt code p.index = .ok code[p.index] :=
      elementAt_eq_ok (List.getElem?_eq_getElem hlt)
    rw [List.getElem?_eq_getElem hlt] at hp
    generalize code[p.index] = t at hp hdrop hget
    have hturn : (bracketLoop code).turn p = bracketTurn code p := rfl
    rw [bracketTurn, if_pos hlt, hget, ok_bind] at hturn
    by_cases hopen : t.reads "[" = true
    · rw [if_pos hopen] at hturn
      refine .again hturn (.inl (Nat.succ_pos _)) fun i hi => ?_
      have hclose : t.reads "]" = false := Token.reads_of_ne hopen (by decide)
      rw [hdrop, afterBrackets, hclose, if_pos hopen]
      exact hi
    · have hdepth : 0 < p.depth := hp.resolve_right (by simp [hopen])
      obtain ⟨d, hd⟩ := Nat.exists_eq_succ_of_ne_zero (Nat.pos_iff_ne_zero.1 hdepth)
      rw [if_neg hopen, hd, decrement, ok_bind] at hturn
      by_cases hclose : t.reads "]" = true
      · rw [if_pos hclose] at hturn
        by_cases hzero : d = 0
        · rw [if_pos hzero] at hturn
          refine .done hturn ?_
          simp [hdrop, afterBrackets, hclose, hd, hzero]
        · rw [if_neg hzero] at hturn
          refine .again hturn (.inl (Nat.pos_of_ne_zero hzero)) fun i hi => ?_
          have hdeep : ¬d + 1 ≤ 1 := by omega
          simpa [hdrop, afterBrackets, hclose, hopen, hd, hdeep] using hi
      · rw [if_neg hclose, ← hd] at hturn
        refine .again hturn (.inl hdepth) fun i hi => ?_
        simpa [hdrop, afterBrackets, hclose, hopen] using hi

/-- The walk over code keeps all but the attribute groups. -/
theorem attributeLoop_run (p : Kept) : (attributeLoop code).run p =
    .ok (p.code ++ withoutAttributes (code.drop p.index)) := by
  refine Loop.run_eq (f := fun p => p.code ++ withoutAttributes (code.drop p.index))
    (fun p => ?_) p
  rcases drop_cases code p.index with ⟨hle, hdrop⟩ | ⟨hlt, hdrop⟩
  · refine .done (if_neg (Nat.not_lt.2 hle)) ?_
    rw [hdrop, withoutAttributes, List.append_nil]
  · have hget : elementAt code p.index = .ok code[p.index] :=
      elementAt_eq_ok (List.getElem?_eq_getElem hlt)
    have hopens := List.getElem?_eq_getElem hlt
    generalize code[p.index] = t at hdrop hget hopens
    have hturn : (attributeLoop code).turn p = attributeTurn code p := rfl
    rw [attributeTurn, if_pos hlt, hget, ok_bind] at hturn
    rcases drop_cases code (p.index + 1) with ⟨hle, hnext⟩ | ⟨hlt', hnext⟩
    · rw [List.getElem?_eq_none hle, if_neg (by simp)] at hturn
      refine .again hturn trivial fun r hr => ?_
      rw [hnext] at hdrop hr
      simp [hr, hdrop, withoutAttributes]
    · rw [List.getElem?_eq_getElem hlt'] at hturn
      generalize code[p.index + 1] = u at hnext hturn
      by_cases hgroup : (t.reads "[" && u.reads "[") = true
      · obtain ⟨close, hclose, hafter⟩ := bracketLoop_run (p := ⟨p.index, 0⟩)
          (.inr ⟨t, hopens, (Bool.and_eq_true_iff.1 hgroup).1⟩)
        rw [if_pos (by simpa using hgroup), hclose, ok_bind] at hturn
        refine .again hturn trivial fun r hr => ?_
        obtain ⟨ht, hu⟩ := Bool.and_eq_true_iff.1 hgroup
        have ht' : t.reads "]" = false := Token.reads_of_ne ht (by decide)
        have hu' : u.reads "]" = false := Token.reads_of_ne hu (by decide)
        rw [hnext] at hdrop
        have hskip : code.drop (close + 1) = afterBrackets 2 (code.drop (p.index + 1 + 1)) := by
          rw [← hafter, hdrop, afterBrackets, afterBrackets]
          simp [ht, hu, ht', hu']
        simp only [hr, id_eq, hskip, hdrop, withoutAttributes, if_pos hgroup]
      · rw [if_neg (by simpa using hgroup)] at hturn
        refine .again hturn trivial fun r hr => ?_
        rw [hnext] at hdrop hr
        simp only [hr, id_eq, hdrop, withoutAttributes, if_neg hgroup, List.append_assoc,
          List.singleton_append]

end

namespace Scanner

variable {s : Scanner}

/-- What comes at a position: the end mark behind all tokens, or a token and what follows it. -/
theorem ahead (s : Scanner) (i : Nat) :
    (s.code.length ≤ i ∧ s.code.drop i = [] ∧ s.token i = s.finish) ∨
      (i < s.code.length ∧ s.code.drop i = s.token i :: s.code.drop (i + 1) ∧
        (s.token i).kind ≠ .finish) := by
  rcases drop_cases s.code i with ⟨hle, hdrop⟩ | ⟨hlt, hdrop⟩
  · exact .inl ⟨hle, hdrop, token_of_le hle⟩
  · rw [token_of_lt hlt]
    exact .inr ⟨hlt, hdrop, s.kind_ne_finish _ (List.getElem_mem hlt)⟩

/-- Whether the token at a position reads a text can be told from what comes there. -/
theorem reads_ahead (s : Scanner) (i : Nat) {text : String} (htext : text ≠ "") :
    ((s.code.drop i).head?.map (·.reads text)).getD false = (s.token i).reads text := by
  rcases s.ahead i with ⟨-, hdrop, htoken⟩ | ⟨-, hdrop, -⟩
  · rw [hdrop, htoken, reads_finish htext]
    rfl
  · rw [hdrop]
    rfl

/-! ### Statements -/

/-- The search for a closing brace ends at it, or at the end mark. -/
theorem braceLoop_run {p : Nesting} (hp : 0 < p.depth ∨ (s.token p.index).isOpen = true) :
    ∃ i, s.braceLoop.run p = .ok i ∧ p.index ≤ i ∧
      closing p.depth (s.code.drop p.index) =
        (between s.code p.index (i + 1), s.code.drop (i + 1)) := by
  refine Loop.run_ok (I := fun p => 0 < p.depth ∨ (s.token p.index).isOpen = true)
    (P := fun p i => p.index ≤ i ∧ closing p.depth (s.code.drop p.index) =
      (between s.code p.index (i + 1), s.code.drop (i + 1))) (fun p hp => ?_) p hp
  have hturn : s.braceLoop.turn p = s.braceTurn p := rfl
  rw [braceTurn] at hturn
  rcases s.ahead p.index with ⟨hle, hdrop, htoken⟩ | ⟨hlt, hdrop, hkind⟩
  · rw [htoken, if_pos s.finish_kind] at hturn
    refine .done hturn ⟨Nat.le_refl _, ?_⟩
    rw [hdrop, closing, between_of_le hle, List.drop_eq_nil_of_le (Nat.le_succ_of_le hle)]
  · have hstep : ∀ i, p.index ≤ i → between s.code p.index (i + 1) =
        s.token p.index :: between s.code (p.index + 1) (i + 1) := fun i hi =>
      between_cons hdrop (Nat.lt_succ_of_le hi)
    generalize s.token p.index = t at hp hdrop hkind hturn hstep
    rw [if_neg hkind] at hturn
    by_cases hopen : t.isOpen = true
    · rw [if_pos hopen] at hturn
      refine .again hturn (.inl (Nat.succ_pos _)) fun i hi => ?_
      have hclose : t.isClose = false := Token.reads_of_ne hopen (by decide)
      refine ⟨Nat.le_of_succ_le hi.1, ?_⟩
      simp [hdrop, closing, hopen, hclose, hi.2, hstep i (Nat.le_of_succ_le hi.1)]
    · have hdepth : 0 < p.depth := hp.resolve_right hopen
      obtain ⟨d, hd⟩ := Nat.exists_eq_succ_of_ne_zero (Nat.pos_iff_ne_zero.1 hdepth)
      rw [if_neg hopen, hd, decrement, ok_bind] at hturn
      by_cases hclose : t.isClose = true
      · rw [if_pos hclose] at hturn
        by_cases hzero : d = 0
        · rw [if_pos hzero] at hturn
          refine .done hturn ⟨Nat.le_refl _, ?_⟩
          simp [hdrop, closing, hclose, hd, hzero, hstep]
        · rw [if_neg hzero] at hturn
          refine .again hturn (.inl (Nat.pos_of_ne_zero hzero)) fun i hi => ?_
          have hdeep : ¬d + 1 ≤ 1 := by omega
          refine ⟨Nat.le_of_succ_le hi.1, ?_⟩
          simp [hdrop, closing, hclose, hopen, hd, hdeep, hi.2, hstep i (Nat.le_of_succ_le hi.1)]
      · rw [if_neg hclose, ← hd] at hturn
        refine .again hturn (.inl hdepth) fun i hi => ?_
        refine ⟨Nat.le_of_succ_le hi.1, ?_⟩
        simp [hdrop, closing, hclose, hopen, hi.2, hstep i (Nat.le_of_succ_le hi.1)]

/-- The first token of code of a statement in front of a position. -/
def leaderAt (s : Scanner) (p : InStatement) : Option Token :=
  (between s.code p.start p.index).find? fun t => !t.isComment

/-- The statement that goes on at `p` is `span`. -/
structure Spans (s : Scanner) (p : InStatement) (span : Span) : Prop where
  start : span.start = p.start
  le_stop : p.index ≤ span.stop
  stop_lt : span.kind = .simple → span.stop < s.code.length
  read : Statement.read p.depth p.params (s.leaderAt p) (s.code.drop p.index) =
    ⟨span.kind, between s.code p.index span.stop, s.code.drop span.next⟩

section

variable {p : InStatement} {t : Token} {rest : List Token}

theorem leaderAt_self (i depth : Nat) (params : Bool) :
    s.leaderAt ⟨i, i, depth, params⟩ = none := by
  rw [leaderAt, between_self]
  rfl

theorem leaderAt_succ (hdrop : s.code.drop p.index = t :: rest) (hstart : p.start ≤ p.index)
    (depth : Nat) (params : Bool) : s.leaderAt ⟨p.start, p.index + 1, depth, params⟩ =
      Statement.leader (s.leaderAt p) t := by
  have hone : between s.code p.index (p.index + 1) = [t] := by
    rw [between_cons hdrop (Nat.lt_succ_self _), between_self]
  rw [leaderAt, ← between_append hstart (Nat.le_succ _), hone, List.find?_append, leaderAt,
    Statement.leader]
  cases (between s.code p.start p.index).find? fun t => !t.isComment with
  | none => cases hcomment : t.isComment <;> simp [hcomment]
  | some u => rfl

theorem leaderAt_of_code (hdrop : s.code.drop p.index = t :: rest) (hstart : p.start ≤ p.index)
    (hcode : t.isComment = false) {j : Nat} (hj : p.index < j) (depth : Nat) (params : Bool) :
    s.leaderAt ⟨p.start, j, depth, params⟩ = Statement.leader (s.leaderAt p) t := by
  rw [leaderAt, ← between_append hstart (Nat.le_of_lt hj), between_cons hdrop hj,
    List.find?_append, leaderAt, Statement.leader]
  cases (between s.code p.start p.index).find? fun t => !t.isComment with
  | none => simp [hcode]
  | some u => rfl

/-- The first token of code from the start of a statement on, where a token of code is next. -/
theorem firstCode_eq (hdrop : s.code.drop p.index = t :: rest) (hlt : p.index < s.code.length)
    (hstart : p.start ≤ p.index) (hcode : t.isComment = false) :
    ∃ first, s.firstCode p.start = .ok first ∧
      Statement.leader (s.leaderAt p) t = some first := by
  have htokens : s.tokens.drop p.start =
      between s.code p.start p.index ++ (t :: rest ++ [s.finish]) := by
    rw [tokens, List.drop_append_of_le_length (by omega), ← hdrop, ← List.append_assoc, between]
    congr 1
    obtain ⟨n, hn⟩ := Nat.exists_eq_add_of_le hstart
    rw [hn, Nat.add_sub_cancel_left, ← List.drop_drop, List.take_append_drop]
  have hle : p.start ≤ s.tokens.length := by simp only [tokens, List.length_append]; omega
  rw [firstCode, segment_length hle, htokens]
  refine ⟨_, rfl, ?_⟩
  simp only [List.find?_append, Statement.leader, leaderAt]
  rcases Option.eq_none_or_eq_some ((between s.code p.start p.index).find? fun t => !t.isComment)
    with hfound | ⟨u, hfound⟩
  · simp [hfound, hcode]
  · simp [hfound]

theorem skipSemicolon_drop (s : Scanner) (i : Nat) : Statement.skipSemicolon (s.code.drop i) =
    s.code.drop (if (s.token i).reads ";" then i + 1 else i) := by
  rcases s.ahead i with ⟨-, hdrop, htoken⟩ | ⟨-, hdrop, -⟩
  · rw [htoken, reads_finish (by decide), hdrop]
    exact hdrop.symm
  · rw [hdrop, Statement.skipSemicolon]
    split
    · rfl
    · exact hdrop.symm

/-- A turn that takes one token into the statement. -/
theorem Spans.step (hdrop : s.code.drop p.index = t :: s.code.drop (p.index + 1))
    (hstart : p.start ≤ p.index) {depth : Nat} {params : Bool}
    (hread : Statement.read p.depth p.params (s.leaderAt p) (t :: s.code.drop (p.index + 1)) =
      .after [t] (.read depth params (Statement.leader (s.leaderAt p) t)
        (s.code.drop (p.index + 1))))
    {span : Span} (h : s.Spans ⟨p.start, p.index + 1, depth, params⟩ span) : s.Spans p span where
  start := h.start
  le_stop := Nat.le_of_succ_le h.le_stop
  stop_lt := h.stop_lt
  read := by
    have hrest := h.read
    rw [leaderAt_succ hdrop hstart] at hrest
    rw [hdrop, hread, hrest, between_cons hdrop h.le_stop]
    rfl

/-- What a group of braces outside of parentheses and brackets means for a statement. -/
theorem read_of_isOpen (h : t.isOpen = true) (params : Bool) (found : Option Token)
    (ts : List Token) : Statement.read 0 params found (t :: ts) =
      if params then ⟨.function, t :: (closing 1 ts).1, Statement.skipSemicolon (closing 1 ts).2⟩
      else if ((Statement.leader found t).map Statement.definesType).getD false then
        .after (t :: (closing 1 ts).1) (Statement.read 0 false none (closing 1 ts).2).nested
      else
        .after (t :: (closing 1 ts).1)
          (Statement.read 0 params (Statement.leader found t) (closing 1 ts).2) := by
  have hother : ∀ text, text ≠ "\x7b" → t.reads text = false := fun text htext =>
    Token.reads_of_ne h htext.symm
  have hclose : t.isClose = false := hother _ (by decide)
  rw [Statement.read]
  simp [hother, hclose, h]

/-- A turn at an opening brace outside of parentheses and brackets. -/
theorem keeps_group (hturn : s.statementLoop.turn p = s.groupTurn p) (hp : p.start ≤ p.index)
    (hlt : p.index < s.code.length)
    (hdrop : s.code.drop p.index = s.token p.index :: s.code.drop (p.index + 1))
    (hdepth : p.depth = 0) (hbrace : (s.token p.index).isOpen = true) :
    s.statementLoop.Keeps (fun p => p.start ≤ p.index) s.Spans p := by
  obtain ⟨close, hrun, hle, hgroup⟩ := s.braceLoop_run (p := ⟨p.index, 0⟩) (.inr hbrace)
  generalize s.token p.index = t at hdrop hbrace
  have hcode : t.isComment = false := Token.isComment_of_reads hbrace
  have hclose : t.isClose = false := Token.reads_of_ne hbrace (by decide)
  obtain ⟨hfront, hback⟩ : t :: (closing 1 (s.code.drop (p.index + 1))).1 =
      between s.code p.index (close + 1) ∧
        (closing 1 (s.code.drop (p.index + 1))).2 = s.code.drop (close + 1) := by
    rw [hdrop, closing, hclose, if_pos hbrace] at hgroup
    exact Prod.mk.inj hgroup
  obtain ⟨first, hfirst, hleader⟩ := firstCode_eq hdrop hlt hp hcode
  have hread := read_of_isOpen hbrace p.params (s.leaderAt p) (s.code.drop (p.index + 1))
  rw [hfront, hback, hleader, ← hdrop, ← hdepth, Option.map_some, Option.getD_some] at hread
  rw [groupTurn, hrun, ok_bind] at hturn
  by_cases hparams : p.params = true
  · rw [if_pos hparams] at hturn hread
    refine .done hturn ⟨rfl, Nat.le_succ_of_le hle, (fun h => by cases h), ?_⟩
    rw [hread, skipSemicolon_drop]
  rw [if_neg hparams] at hturn hread
  rw [hfirst, ok_bind] at hturn
  by_cases hdefines : Statement.definesType first = true
  · rw [if_pos hdefines] at hturn hread
    refine .again hturn (Nat.le_refl _) fun span h => ⟨rfl, ?_, ?_, ?_⟩
    · exact Nat.le_trans (Nat.le_succ_of_le hle) h.le_stop
    · intro hsimple
      simp only [Span.nested] at hsimple
      split at hsimple <;> cases hsimple
    · have hrest := h.read
      rw [leaderAt_self] at hrest
      rw [hread, hdepth, hrest, Statement.after, Statement.nested,
        between_append (Nat.le_succ_of_le hle) h.le_stop]
      rfl
  · rw [if_neg hdefines] at hturn hread
    refine .again hturn (Nat.le_trans hp (Nat.le_succ_of_le hle)) fun span h =>
      ⟨h.start, Nat.le_trans (Nat.le_succ_of_le hle) h.le_stop, h.stop_lt, ?_⟩
    have hrest := h.read
    rw [leaderAt_of_code hdrop hp hcode (Nat.lt_succ_of_le hle), hleader] at hrest
    rw [hread, hrest, Statement.after, between_append (Nat.le_succ_of_le hle) h.le_stop]
    rfl

/-- The walk over a statement has no fault and reads what there is. -/
theorem statementLoop_run (hp : p.start ≤ p.index) :
    ∃ span, s.statementLoop.run p = .ok span ∧ s.Spans p span := by
  refine Loop.run_ok (I := fun p => p.start ≤ p.index) (P := s.Spans) (fun p hp => ?_) p hp
  have hturn : s.statementLoop.turn p = s.statementTurn p := rfl
  rw [statementTurn] at hturn
  rcases s.ahead p.index with ⟨hle, hdrop, htoken⟩ | ⟨hlt, hdrop, hkind⟩
  · rw [htoken, if_pos s.finish_kind] at hturn
    refine .done hturn ⟨rfl, Nat.le_refl _, (fun h => by cases h), ?_⟩
    rw [hdrop, Statement.read, between_self]
  · generalize ht : s.token p.index = t at hdrop hkind hturn
    rw [if_neg hkind] at hturn
    by_cases hround : t.reads "(" = true
    · rw [if_pos (by simp [hround]), hround, Bool.or_true] at hturn
      refine .again hturn (Nat.le_succ_of_le hp) fun span h => h.step hdrop hp ?_
      rw [Statement.read, if_pos hround]
    by_cases hsquare : t.reads "[" = true
    · rw [if_pos (by simp [hsquare]), Bool.eq_false_iff.2 hround, Bool.or_false] at hturn
      refine .again hturn (Nat.le_succ_of_le hp) fun span h => h.step hdrop hp ?_
      rw [Statement.read, if_neg hround, if_pos hsquare]
    rw [if_neg (by simp [hround, hsquare])] at hturn
    by_cases hclosing : (t.reads ")" || t.reads "]") = true
    · rw [if_pos hclosing] at hturn
      refine .again hturn (Nat.le_succ_of_le hp) fun span h => h.step hdrop hp ?_
      rw [Statement.read, if_neg hround, if_neg hsquare, if_pos hclosing]
    rw [if_neg hclosing] at hturn
    by_cases hsemicolon : (p.depth = 0 && t.reads ";") = true
    · rw [if_pos hsemicolon] at hturn
      refine .done hturn ⟨rfl, Nat.le_refl _, fun _ => hlt, ?_⟩
      rw [hdrop, Statement.read, if_neg hround, if_neg hsquare, if_neg hclosing,
        if_pos hsemicolon, between_self]
    rw [if_neg hsemicolon] at hturn
    by_cases hclose : (p.depth = 0 && t.isClose) = true
    · rw [if_pos hclose] at hturn
      refine .done hturn ⟨rfl, Nat.le_refl _, (fun h => by cases h), ?_⟩
      rw [hdrop, Statement.read, if_neg hround, if_neg hsquare, if_neg hclosing,
        if_neg hsemicolon, if_pos hclose, between_self]
    rw [if_neg hclose] at hturn
    by_cases hopen : (p.depth = 0 && t.isOpen) = true
    · rw [if_pos hopen] at hturn
      obtain ⟨hdepth, hbrace⟩ := Bool.and_eq_true_iff.1 hopen
      rw [← ht] at hdrop hbrace
      exact keeps_group hturn hp hlt hdrop (of_decide_eq_true hdepth) hbrace
    · rw [if_neg hopen] at hturn
      refine .again hturn (Nat.le_succ_of_le hp) fun span h => h.step hdrop hp ?_
      rw [Statement.read, if_neg hround, if_neg hsquare, if_neg hclosing, if_neg hsemicolon,
        if_neg hclose, if_neg hopen]

end

/-! ### Members -/

section

variable {code : List Token}

theorem declarator?_eq (angles : Nat) (ts : List Token) :
    declarator? angles ts = (declaratorEnd? angles ts).map fun n => (ts.take n, ts.drop n) := by
  fun_induction declarator? angles ts with
  | case1 => rfl
  | case2 angles t ts hopen ih =>
    rw [declaratorEnd?, if_pos hopen, ih, Option.map_map, Option.map_map]
    rfl
  | case3 angles t ts hopen hclose ih =>
    rw [declaratorEnd?, if_neg hopen, if_pos hclose, ih, Option.map_map, Option.map_map]
    rfl
  | case4 angles t ts hopen hclose hend =>
    rw [declaratorEnd?, if_neg hopen, if_neg hclose, if_pos hend]
    rfl
  | case5 angles t ts hopen hclose hend hout =>
    rw [declaratorEnd?, if_neg hopen, if_neg hclose, if_neg hend, if_pos hout]
    rfl
  | case6 angles t ts hopen hclose hend hout ih =>
    rw [declaratorEnd?, if_neg hopen, if_neg hclose, if_neg hend, if_neg hout, ih, Option.map_map,
      Option.map_map]
    rfl

theorem declaratorEnd?_le {angles n : Nat} {ts : List Token}
    (h : declaratorEnd? angles ts = some n) : n ≤ ts.length := by
  fun_induction declaratorEnd? angles ts generalizing n with
  | case1 =>
    cases h
    exact Nat.le_refl _
  | case4 =>
    cases h
    exact Nat.zero_le _
  | case5 => cases h
  | case2 angles t ts hopen ih | case3 angles t ts hopen hclose ih
  | case6 angles t ts hopen hclose hend hout ih =>
    obtain ⟨m, hm, rfl⟩ := Option.map_eq_some_iff.1 h
    exact Nat.succ_le_succ (ih hm)

/-- The text from the first of some tokens of the header to the last one can be read. -/
theorem sourceAt_eq (h : code.Sublist s.code) : s.sourceAt code = .ok (sourceOf s.text code) := by
  rw [sourceAt, sourceOf]
  cases code with
  | nil => rfl
  | cons t ts =>
    obtain ⟨u, hu⟩ : ∃ u, (t :: ts).getLast? = some u :=
      ⟨_, List.getLast?_eq_some_getLast (List.cons_ne_nil t ts)⟩
    rw [hu, List.head?_cons]
    obtain ⟨hplace, hstart, -⟩ := s.boundary t (h.subset List.mem_cons_self)
    obtain ⟨hplace', -, hstop⟩ := s.boundary u (h.subset (List.mem_of_getLast? hu))
    have horder : t.start ≤ u.stop := by
      rcases List.mem_cons.1 (List.mem_of_getLast? hu) with rfl | hmem
      · exact hplace
      · have := (List.pairwise_cons.1 (s.ordered.sublist h)).1 u hmem
        omega
    have hslice : checkedSlice t.start u.stop s.text = .ok (slice t.start u.stop s.text) :=
      if_pos ⟨horder, hstart, hstop⟩
    simp only [hslice]
    rfl

theorem initialAt_eq (h : code.Sublist s.code) {n : Nat} (hn : n ≤ code.length) :
    s.initialAt code n = .ok (initialText s.text (code.drop n)) := by
  rw [initialAt]
  rcases drop_cases code n with ⟨hle, hdrop⟩ | ⟨hlt, hdrop⟩
  · rw [List.getElem?_eq_none hle, hdrop]
    rfl
  · rw [List.getElem?_eq_getElem hlt, hdrop]
    simp only [initialText]
    split
    · rw [segment_length hlt, ok_bind, sourceAt_eq ((List.drop_sublist _ _).trans h)]
    · rw [segment_length hn, ok_bind, hdrop, ← hdrop, sourceAt_eq ((List.drop_sublist _ _).trans h)]

/-- Reading a member from code has no fault. -/
theorem memberOf_eq (h : code.Sublist s.code) (trailing : Option Token) :
    s.memberOf code trailing = .ok (Member.ofCode? s.text code trailing) := by
  rw [memberOf, Member.ofCode?_eq, declarator?_eq]
  cases code with
  | nil => rfl
  | cons first rest =>
    simp only [List.head?_cons]
    by_cases hfirst : (nonMemberKeywords.contains first.text ||
        (first :: rest).any fun t => t.reads "(" || t.reads "~") = true
    · have hno : ∀ parts name, declaresMember (first :: rest) parts name = false := by
        intro parts name
        rcases Bool.or_eq_true_iff.1 hfirst with h | h
        · simp only [declaresMember, List.head?_cons, Option.map_some, Option.getD_some, h,
            Bool.not_true, Bool.false_and]
        · simp only [declaresMember, h, Bool.not_true, Bool.and_false, Bool.false_and]
      rw [if_pos hfirst]
      cases declaratorEnd? 0 (first :: rest) with
      | none => rfl
      | some n => cases ((first :: rest).take n).getLast? <;> simp [hno]
    · obtain ⟨hkeyword, hparen⟩ := Bool.or_eq_false_iff.1 (Bool.eq_false_iff.2 hfirst)
      rw [if_neg hfirst]
      cases hn : declaratorEnd? 0 (first :: rest) with
      | none => rfl
      | some n =>
        have hle := declaratorEnd?_le hn
        simp only [segment_zero hle, ok_bind, Option.map_some, Option.bind_some]
        cases ((first :: rest).take n).getLast? with
        | none => rfl
        | some name =>
          simp only [segment_length hle, ok_bind, initialAt_eq h hle, Option.bind_some,
            declaresMember, List.head?_cons, Option.map_some, Option.getD_some, hkeyword, hparen,
            bne]
          cases name.kind == .word <;>
            cases ((first :: rest).take n).dropLast.any fun t => t.kind == .word <;>
            cases hasTopLevelComma 0 ((first :: rest).drop n) <;> rfl

/-- Reading a member from a statement has no fault. -/
theorem memberAt_eq {p : InStatement} {span : Span} (h : s.Spans p span)
    (hstart : p.start = p.index) (hkind : span.kind = .simple) (trailing : Option Token)
    (line : Nat) : s.memberAt span trailing =
      .ok (MemberSite.member? s.text ⟨line, between s.code p.index span.stop, trailing⟩) := by
  have hstop := h.stop_lt hkind
  have hsegment : segment span.start span.stop s.tokens =
      .ok (between s.code p.index span.stop) := by
    rw [h.start, hstart, segment_eq_ok h.le_stop (by simp only [tokens, List.length_append]; omega),
      tokens, List.drop_append_of_le_length (by have := h.le_stop; omega),
      List.take_append_of_le_length (by rw [List.length_drop]; omega), between]
  have hsublist : (between s.code p.index span.stop).Sublist s.code :=
    (List.take_sublist _ _).trans (List.drop_sublist _ _)
  have hcode : (withoutAttributes ((between s.code p.index span.stop).filter
      fun t => !t.isComment)).Sublist s.code :=
    (withoutAttributes_sublist _).trans ((List.filter_sublist).trans hsublist)
  rw [memberAt, hsegment, ok_bind, attributeLoop_run, ok_bind, List.nil_append, List.drop_zero,
    memberOf_eq hcode]
  rfl

theorem trailingAt_eq {span : Span} (h : 0 < span.next) :
    trailing? (s.code.drop span.next) = s.trailingAt span := by
  rcases s.ahead span.next with ⟨-, hdrop, htoken⟩ | ⟨-, hdrop, -⟩
  · simp [trailingAt, htoken, hdrop, isComment_finish, trailing?]
  · simp [trailingAt, hdrop, trailing?, h]

/-- A token of code and the one behind it that make an access label. -/
theorem accessLabel?_eq {i : Nat} {t : Token} (ht : t.isComment = false) :
    accessLabel? t (s.code.drop i) =
      if (accessKeywords.contains t.text && (s.token i).reads ":") = true then
        some (t.reads "public") else none := by
  have hreads : ∀ text, t.reads text = (t.text == text) := fun text => by
    rw [Token.reads, bne, show (t.kind == .comment) = false from ht, Bool.not_false, Bool.true_and]
  have hkeywords : accessKeywords.contains t.text =
      (t.reads "public" || t.reads "private" || t.reads "protected") := by
    simp only [accessKeywords, List.contains_cons, List.contains_nil, Bool.or_false, hreads,
      Bool.or_assoc]
  rw [accessLabel?, s.reads_ahead i (by decide), hkeywords]
  cases t.reads "public" || t.reads "private" || t.reads "protected" <;> simp

/-- The walk over the body of a class has no fault and finds the members that there are. -/
theorem membersLoop_run (p : InBody) : s.membersLoop.run p = .ok (p.members ++
    (memberSites p.isPublic (s.code.drop p.index)).filterMap (MemberSite.member? s.text)) := by
  refine Loop.run_eq (f := fun p => p.members ++
    (memberSites p.isPublic (s.code.drop p.index)).filterMap (MemberSite.member? s.text))
    (fun p => ?_) p
  have hturn : s.membersLoop.turn p = s.membersTurn p := rfl
  rw [membersTurn] at hturn
  rcases s.ahead p.index with ⟨hle, hdrop, htoken⟩ | ⟨hlt, hdrop, hkind⟩
  · rw [htoken, if_pos (by simp [s.finish_kind])] at hturn
    refine .done hturn ?_
    rw [hdrop, memberSites, List.filterMap_nil, List.append_nil]
  · generalize ht : s.token p.index = t at hdrop hkind hturn
    by_cases hclose : t.isClose = true
    · rw [if_pos (by simp [hclose])] at hturn
      refine .done hturn ?_
      rw [hdrop, memberSites, if_pos hclose, List.filterMap_nil, List.append_nil]
    rw [if_neg (by simp [hkind, hclose])] at hturn
    by_cases hskip : (t.isComment || t.reads ";") = true
    · rw [if_pos hskip] at hturn
      refine .again hturn trivial fun members h => ?_
      rw [h, hdrop, memberSites, if_neg hclose, if_pos hskip]
      rfl
    rw [if_neg hskip] at hturn
    obtain ⟨hcomment, -⟩ := Bool.or_eq_false_iff.1 (Bool.eq_false_iff.2 hskip)
    have hlabel := s.accessLabel?_eq (i := p.index + 1) hcomment
    by_cases haccess : (accessKeywords.contains t.text && (s.token (p.index + 1)).reads ":") = true
    · rw [if_pos haccess] at hturn hlabel
      refine .again hturn trivial fun members h => ?_
      rw [h, hdrop, memberSites, if_neg hclose, if_neg hskip, hlabel, List.tail_drop]
      rfl
    rw [if_neg haccess] at hturn hlabel
    obtain ⟨span, hrun, hspan⟩ := s.statementLoop_run (p := ⟨p.index, p.index, 0, false⟩)
      (Nat.le_refl _)
    have hnext : p.index < span.next := (lt_next_of_statementLoop hrun).2 (by rw [ht]; exact hkind)
      (by rw [ht]; exact Bool.eq_false_iff.2 hclose)
    have hread := hspan.read
    rw [leaderAt_self, hdrop] at hread
    rw [hrun, ok_bind] at hturn
    have hbehind : (s.code.drop span.next).drop (s.trailingAt span).toList.length =
        s.code.drop (if (s.trailingAt span).isSome then span.next + 1 else span.next) := by
      rw [List.drop_drop]
      cases s.trailingAt span <;> rfl
    by_cases hsimple : (p.isPublic && span.kind = .simple) = true
    · have hkind : span.kind = .simple := of_decide_eq_true (Bool.and_eq_true_iff.1 hsimple).2
      rw [if_pos hsimple, memberAt_eq hspan rfl hkind _ t.line, ok_bind] at hturn
      refine .again hturn trivial fun members h => ?_
      rw [h, hdrop, memberSites, if_neg hclose, if_neg hskip]
      simp only [hlabel, hread, trailingAt_eq (Nat.zero_lt_of_lt hnext), hbehind]
      rw [if_pos hsimple, List.filterMap_cons]
      cases MemberSite.member? s.text _ <;> simp
    · rw [if_neg hsimple, ok_bind] at hturn
      refine .again hturn trivial fun members h => ?_
      rw [h, hdrop, memberSites, if_neg hclose, if_neg hskip]
      simp only [hlabel, hread, trailingAt_eq (Nat.zero_lt_of_lt hnext), hbehind]
      rw [if_neg hsimple, Option.toList_none, List.append_nil]
      rfl

end

/-! ### The walk over a header -/

/-- The token of code before a position is known to a walk as far as a class keyword there needs
it. -/
def Agrees (s : Scanner) (before : Option Token) (i : Nat) : Prop :=
  forbids before = forbids (lastCode (s.code.take i)) ∨
    ∀ t ∈ (s.code.drop i).head?, t.isComment = false ∧ t.isClassKeyword = false

section

variable {before : Option Token} {i : Nat} {t : Token}

theorem lastCode_take_succ (hdrop : s.code.drop i = t :: s.code.drop (i + 1)) :
    lastCode (s.code.take (i + 1)) = if t.isComment then lastCode (s.code.take i) else some t := by
  have htake : s.code.take (i + 1) = s.code.take i ++ [t] := by
    rw [List.take_add, hdrop]
    rfl
  rw [htake]
  by_cases hcomment : t.isComment = true
  · rw [if_pos hcomment]
    exact lastCode_append_comments (by simpa using hcomment)
  · rw [if_neg hcomment]
    exact lastCode_concat (Bool.eq_false_iff.2 hcomment)

theorem Agrees.code (hdrop : s.code.drop i = t :: s.code.drop (i + 1)) (ht : t.isComment = false) :
    s.Agrees (some t) (i + 1) := by
  rw [Agrees, lastCode_take_succ hdrop, ht]
  exact .inl rfl

theorem Agrees.comment (h : s.Agrees before i) (hdrop : s.code.drop i = t :: s.code.drop (i + 1))
    (ht : t.isComment = true) : s.Agrees before (i + 1) := by
  rw [Agrees, lastCode_take_succ hdrop, if_pos ht]
  refine .inl (h.resolve_right fun hnext => ?_)
  rw [(hnext t (by rw [hdrop]; rfl)).1] at ht
  cases ht

theorem codeBefore_eq (hi : i ≤ s.code.length) :
    s.codeBefore i = .ok (lastCode (s.code.take i)) := by
  rw [codeBefore, segment_zero (by simp only [tokens, List.length_append]; omega), tokens,
    List.take_append_of_le_length hi, lastCode, List.getLast?_filter]
  rfl

end

/-- The walk over the name of a namespace has no fault. -/
theorem namespaceLoop_run (hword : ∀ t ∈ s.code, t.isClassKeyword = true → t.kind = .word)
    (p : InName) : ∃ head : Option String × Nat, s.namespaceLoop.run p = .ok head ∧
      namespaceHead p.name (s.code.drop p.index) = (head.1, s.code.drop head.2) ∧
      s.Agrees none head.2 := by
  refine Loop.run_ok (I := fun _ => True) (P := fun (p : InName) (head : Option String × Nat) =>
    namespaceHead p.name (s.code.drop p.index) = (head.1, s.code.drop head.2) ∧
      s.Agrees none head.2) (fun p _ => ?_) p trivial
  have hturn : s.namespaceLoop.turn p = s.namespaceTurn p := rfl
  rw [namespaceTurn] at hturn
  rcases s.ahead p.index with ⟨hle, hdrop, htoken⟩ | ⟨hlt, hdrop, hkind⟩
  · have hopen : s.finish.isOpen = false := reads_finish (by decide)
    have hscope : s.finish.reads "::" = false := reads_finish (by decide)
    rw [htoken, hopen, hscope, isComment_finish, s.finish_kind] at hturn
    refine .done hturn ⟨?_, .inr ?_⟩
    · rw [hdrop, namespaceHead]
    · rw [hdrop]
      exact fun t ht => by cases ht
  · have hmem : s.token p.index ∈ s.code := by rw [token_of_lt hlt]; exact List.getElem_mem hlt
    generalize s.token p.index = t at hdrop hkind hturn hmem
    by_cases hopen : t.isOpen = true
    · rw [if_pos hopen] at hturn
      refine .done hturn ⟨?_, .inl ?_⟩
      · rw [hdrop, namespaceHead]
        exact if_pos hopen
      · rw [lastCode_take_succ hdrop, Token.isComment_of_reads hopen]
        simp [forbids, forbidsClass, Token.reads_of_ne hopen]
    have hbrace : ¬t.reads "\x7b" = true := hopen
    rw [if_neg hopen] at hturn
    by_cases hname : (t.kind == .word || t.reads "::") = true
    · rw [if_pos hname] at hturn
      refine .again hturn trivial fun head h => ⟨?_, h.2⟩
      rw [hdrop, namespaceHead, if_neg hbrace, if_pos hname]
      exact h.1
    rw [if_neg hname] at hturn
    by_cases hcomment : t.isComment = true
    · rw [if_pos hcomment] at hturn
      refine .again hturn trivial fun head h => ⟨?_, h.2⟩
      rw [hdrop, namespaceHead, if_neg hbrace, if_neg hname, if_pos hcomment]
      exact h.1
    · rw [if_neg hcomment] at hturn
      refine .done hturn ⟨?_, .inr ?_⟩
      · rw [hdrop, namespaceHead, if_neg hbrace, if_neg hname, if_neg hcomment]
      · rw [hdrop]
        rintro u ⟨⟩
        refine ⟨Bool.eq_false_iff.2 hcomment, Bool.eq_false_iff.2 fun hkeyword => hname ?_⟩
        rw [hword t hmem hkeyword]
        rfl

/-- The search for the body of a class has no fault. -/
theorem headLoop_run (p : Nesting) : ∃ brace : Option Nat, s.headLoop.run p = .ok brace ∧
    bodyOf? p.depth (s.code.drop p.index) = brace.map (s.code.drop ·) ∧
    ∀ i ∈ brace, (s.token i).isOpen = true := by
  refine Loop.run_ok (I := fun _ => True) (P := fun (p : Nesting) (brace : Option Nat) =>
    bodyOf? p.depth (s.code.drop p.index) = brace.map (s.code.drop ·) ∧
      ∀ i ∈ brace, (s.token i).isOpen = true) (fun p _ => ?_) p trivial
  have hturn : s.headLoop.turn p = s.headTurn p := rfl
  rw [headTurn] at hturn
  rcases s.ahead p.index with ⟨hle, hdrop, htoken⟩ | ⟨hlt, hdrop, hkind⟩
  · rw [htoken, if_pos s.finish_kind] at hturn
    refine .done hturn ⟨?_, fun i hi => by cases hi⟩
    rw [hdrop, bodyOf?]
    rfl
  · generalize ht : s.token p.index = t at hdrop hkind hturn
    rw [if_neg hkind] at hturn
    by_cases hdeeper : (t.reads "(" || t.reads "<") = true
    · rw [if_pos hdeeper] at hturn
      refine .again hturn trivial fun brace h => ⟨?_, h.2⟩
      rw [hdrop, bodyOf?, if_pos hdeeper]
      exact h.1
    rw [if_neg hdeeper] at hturn
    by_cases hhigher : (t.reads ")" || t.reads ">") = true
    · rw [if_pos hhigher] at hturn
      refine .again hturn trivial fun brace h => ⟨?_, h.2⟩
      rw [hdrop, bodyOf?, if_neg hdeeper, if_pos hhigher]
      exact h.1
    rw [if_neg hhigher] at hturn
    by_cases hopen : (p.depth = 0 && t.isOpen) = true
    · rw [if_pos hopen] at hturn
      refine .done hturn ⟨?_, ?_⟩
      · rw [hdrop, bodyOf?, if_neg hdeeper, if_neg hhigher]
        exact (if_pos hopen).trans (by rw [Option.map_some, hdrop])
      · rintro i ⟨⟩
        rw [ht]
        exact (Bool.and_eq_true_iff.1 hopen).2
    rw [if_neg hopen] at hturn
    by_cases hend : (p.depth = 0 && (t.reads ";" || t.isClose || t.reads "=")) = true
    · rw [if_pos hend] at hturn
      refine .done hturn ⟨?_, fun i hi => by cases hi⟩
      rw [hdrop, bodyOf?, if_neg hdeeper, if_neg hhigher]
      exact (if_neg hopen).trans (if_pos hend)
    · rw [if_neg hend] at hturn
      refine .again hturn trivial fun brace h => ⟨?_, h.2⟩
      rw [hdrop, bodyOf?, if_neg hdeeper, if_neg hhigher]
      exact ((if_neg hopen).trans (if_neg hend)).trans h.1

/-- Telling whether a keyword defines a class has no fault. -/
theorem classAt_eq {before : Option Token} {i : Nat} (hi : i < s.code.length)
    (h : forbids before = forbids (lastCode (s.code.take i))) :
    ∃ found : Option (Nat × Nat), s.classAt i = .ok found ∧
      classHead? before (s.code.drop (i + 1)) =
        found.map (fun x => (s.token x.1, s.code.drop x.2)) ∧
      ∀ x ∈ found, (s.token x.2).isOpen = true := by
  rw [classAt, codeBefore_eq (Nat.le_of_lt hi), ok_bind, classHead?_congr h]
  rcases s.ahead (i + 1) with ⟨hle, hdrop, htoken⟩ | ⟨hlt, hdrop, hkind⟩
  · refine ⟨none, ?_, ?_, fun x hx => by cases hx⟩
    · rw [htoken, s.finish_kind]
      split <;> rfl
    · rw [hdrop, classHead?]
      rfl
  · have hscope : ((s.code.drop (i + 2)).head?.map (·.reads "::")).getD false =
        (s.token (i + 2)).reads "::" := s.reads_ahead (i + 2) (by decide)
    obtain ⟨brace, hrun, hbody, hopen⟩ := s.headLoop_run ⟨i + 2, 0⟩
    rw [hdrop, classHead?, hscope]
    by_cases hforbids : ((lastCode (s.code.take i)).map forbidsClass).getD false = true
    · rw [if_pos hforbids, if_pos (by simp [hforbids])]
      exact ⟨none, rfl, rfl, fun x hx => by cases hx⟩
    by_cases hname : ((s.token (i + 1)).kind != .word || (s.token (i + 2)).reads "::") = true
    · rw [if_neg hforbids, if_pos hname, if_pos (by rw [Bool.or_assoc, hname, Bool.or_true])]
      exact ⟨none, rfl, rfl, fun x hx => by cases hx⟩
    · have hdefines : ¬(((lastCode (s.code.take i)).map forbidsClass).getD false ||
          (s.token (i + 1)).kind != .word || (s.token (i + 2)).reads "::") = true := by
        rw [Bool.or_assoc, Bool.or_eq_true_iff, not_or]
        exact ⟨hforbids, hname⟩
      rw [if_neg hforbids, if_neg hname, if_neg hdefines, hrun, ok_bind]
      refine ⟨_, rfl, ?_, ?_⟩
      · rw [hbody, Option.map_map, Option.map_map]
        rfl
      · intro x hx
        obtain ⟨j, hj, rfl⟩ := Option.map_eq_some_iff.1 hx
        exact hopen j hj

/-- The walk over a run of annotations has no fault. -/
theorem tagLoop_run (p : InRun) : ∃ run, s.tagLoop.run p = .ok run ∧
    run.tags = p.tags ++ TagLine.blockTags (tagRun (s.code.drop (p.index + 1))).1 ∧
    (tagRun (s.code.drop (p.index + 1))).2 = s.code.drop (run.index + 1) ∧
    ∀ before, s.Agrees before (p.index + 1) → s.Agrees before (run.index + 1) := by
  refine Loop.run_ok (I := fun _ => True) (P := fun (p run : InRun) =>
    run.tags = p.tags ++ TagLine.blockTags (tagRun (s.code.drop (p.index + 1))).1 ∧
      (tagRun (s.code.drop (p.index + 1))).2 = s.code.drop (run.index + 1) ∧
      ∀ before, s.Agrees before (p.index + 1) → s.Agrees before (run.index + 1))
    (fun p _ => ?_) p trivial
  have hturn : s.tagLoop.turn p = s.tagTurn p := rfl
  rw [tagTurn] at hturn
  rcases s.ahead (p.index + 1) with ⟨hle, hdrop, htoken⟩ | ⟨hlt, hdrop, hkind⟩
  · have hline : s.finish.tagLine? = none := by simp [Token.tagLine?, isComment_finish]
    rw [htoken, hline] at hturn
    refine .done hturn ⟨?_, ?_, fun _ h => h⟩
    · rw [hdrop]
      exact (List.append_nil _).symm
    · rw [hdrop]
      rfl
  · generalize s.token (p.index + 1) = t at hdrop hkind hturn
    cases hline : t.tagLine? with
    | none =>
      rw [hline] at hturn
      refine .done hturn ⟨?_, ?_, fun _ h => h⟩
      · simp [hdrop, tagRun, hline, TagLine.blockTags]
      · simp [hdrop, tagRun, hline]
    | some line =>
      rw [hline] at hturn
      have hcomment : t.isComment = true := isComment_of_tagLine? (by rw [hline]; rfl)
      refine .again hturn trivial fun run h => ⟨?_, ?_, fun before hb => ?_⟩
      · rw [id, h.1, hdrop]
        simp [tagRun, hline, TagLine.blockTags]
      · rw [id, ← h.2.1, hdrop]
        simp [tagRun, hline]
      · exact h.2.2 before (hb.comment hdrop hcomment)

section

variable {before : Option Token} {scopes : List Scope} {waiting : Option (List TagLine)} {t : Token}
  {ts : List Token}

theorem findings_skip (hcomment : t.isComment = true) (hline : t.tagLine? = none) :
    findings before scopes waiting (t :: ts) = findings before scopes waiting ts := by
  rw [findings.eq_def]
  simp [hcomment, hline]

theorem findings_stray {line : TagLine} (hcomment : t.isComment = true)
    (hline : t.tagLine? = some line) (block : List TagLine) :
    findings before scopes (some block) (t :: ts) =
      .stray t.line :: findings before scopes (some block) ts := by
  rw [findings.eq_def]
  simp [hcomment, hline]

theorem findings_namespace (hspace : t.reads "namespace" = true) :
    findings before scopes waiting (t :: ts) =
      findings none (((namespaceHead "" ts).1.map Scope.named).toList ++ scopes) waiting
        (namespaceHead "" ts).2 := by
  rw [findings.eq_def]
  simp [Token.isComment_of_reads hspace, hspace]

/-- A token of code that opens and closes nothing and defines no class is passed. -/
theorem findings_plain (hcomment : t.isComment = false) (hspace : t.reads "namespace" = false)
    (hopen : t.isOpen = false) (hclose : t.isClose = false)
    (hclass : t.isClassKeyword = true → waiting = none ∨ classHead? before ts = none) :
    findings before scopes waiting (t :: ts) = findings (some t) scopes waiting ts := by
  rw [findings.eq_def]
  dsimp only
  rw [if_neg (Bool.eq_false_iff.1 hcomment), if_neg (Bool.eq_false_iff.1 hspace),
    if_neg (Bool.eq_false_iff.1 hopen), if_neg (Bool.eq_false_iff.1 hclose)]
  by_cases hkeyword : (t.reads "struct" || t.reads "class") = true
  · rw [if_pos hkeyword]
    split
    · next block name body hbody =>
      rcases hclass hkeyword with hwaiting | hhead
      · cases hwaiting
      · rw [hhead] at hbody
        cases hbody
    · rfl
  · rw [if_neg hkeyword]

/-- A keyword of classes is a token of code that opens and closes nothing. -/
theorem plain_of_isClassKeyword (h : t.isClassKeyword = true) : t.isComment = false ∧
    t.reads "namespace" = false ∧ t.isOpen = false ∧ t.isClose = false := by
  rcases Bool.or_eq_true_iff.1 h with h | h
  · exact ⟨Token.isComment_of_reads h, Token.reads_of_ne h (by decide),
      Token.reads_of_ne h (by decide), Token.reads_of_ne h (by decide)⟩
  · exact ⟨Token.isComment_of_reads h, Token.reads_of_ne h (by decide),
      Token.reads_of_ne h (by decide), Token.reads_of_ne h (by decide)⟩

theorem findings_defined {name : Token} {body : List Token} (hkeyword : t.isClassKeyword = true)
    (hhead : classHead? before ts = some (name, body)) (block : List TagLine) :
    findings before scopes (some block) (t :: ts) =
      .defined ⟨name, t.reads "struct", Scope.path scopes, block,
        memberSites (t.reads "struct") body.tail⟩ :: findings (some t) scopes none body := by
  obtain ⟨hcomment, hspace, hopen, hclose⟩ := plain_of_isClassKeyword hkeyword
  have hclass : (t.reads "struct" || t.reads "class") = true := hkeyword
  rw [findings.eq_def]
  dsimp only
  rw [if_neg (Bool.eq_false_iff.1 hcomment), if_neg (Bool.eq_false_iff.1 hspace),
    if_neg (Bool.eq_false_iff.1 hopen), if_neg (Bool.eq_false_iff.1 hclose), if_pos hclass]
  split
  · next block' name' body' hblock hbody =>
    cases hblock
    cases hhead.symm.trans hbody
    rfl
  · next hno => exact absurd hhead (hno block name body rfl)

end

/-- What waits for a class: nothing, or the tags of a block. -/
def InHeader.Waits (p : InHeader) (waiting : Option (List TagLine)) : Prop :=
  p.seeking = waiting.isSome ∧ p.tags = (waiting.map TagLine.blockTags).getD []

/-- The classes that are found from a place in the header on. -/
def declaredFrom (s : Scanner) (before : Option Token) (scopes : List Scope)
    (waiting : Option (List TagLine)) (i : Nat) : List DeclaredClass :=
  ((findings before scopes waiting (s.code.drop i)).filterMap Finding.site?).map
    (ClassSite.declared s.text)

/-- The classes are those so far and those that are found from the position on. -/
def Finds (s : Scanner) (p : InHeader) (classes : List DeclaredClass) : Prop :=
  ∀ before waiting, s.Agrees before p.index → p.Waits waiting →
    classes = p.classes ++ s.declaredFrom before p.scopes waiting p.index

section

variable {p : InHeader} {t : Token}

/-- A comment is passed, or it is the first of a run of annotations. -/
theorem keeps_comment (hturn : s.scanLoop.turn p = s.commentTurn p t)
    (hdrop : s.code.drop p.index = t :: s.code.drop (p.index + 1)) (hcomment : t.isComment = true) :
    s.scanLoop.Keeps (fun _ => True) s.Finds p := by
  rw [commentTurn] at hturn
  cases hline : t.tagLine? with
  | none =>
    rw [hline] at hturn
    refine .again hturn trivial fun classes h before waiting hbefore hwaits => ?_
    rw [id, h before waiting (hbefore.comment hdrop hcomment) hwaits, declaredFrom, declaredFrom,
      hdrop, findings_skip hcomment hline]
  | some line =>
    rw [hline] at hturn
    by_cases hseeking : p.seeking = true
    · refine .again (hturn.trans (if_pos hseeking)) trivial
        fun classes h before waiting hbefore hwaits => ?_
      obtain ⟨block, rfl⟩ := Option.isSome_iff_exists.1 (hwaits.1.symm.trans hseeking)
      rw [id, h before (some block) (hbefore.comment hdrop hcomment) hwaits, declaredFrom,
        declaredFrom, hdrop, findings_stray hcomment hline]
      rfl
    · obtain ⟨run, hrun, htags, hrest, hagrees⟩ := s.tagLoop_run ⟨p.index, p.tags ++ line.tags⟩
      replace hturn := hturn.trans (if_neg hseeking)
      rw [hrun, ok_bind] at hturn
      refine .again hturn trivial fun classes h before waiting hbefore hwaits => ?_
      obtain rfl : waiting = none := Option.not_isSome_iff_eq_none.1 (hwaits.1 ▸ hseeking)
      have hblock : run.tags =
          TagLine.blockTags (line :: (tagRun (s.code.drop (p.index + 1))).1) := by
        rw [htags, hwaits.2]
        rfl
      rw [id, h before (some _) (hagrees before (hbefore.comment hdrop hcomment)) ⟨rfl, hblock⟩,
        declaredFrom, declaredFrom, hdrop, findings_comment hcomment hline, hrest]
      rfl

/-- A brace does not care for the token of code before it. -/
theorem agrees_of_isOpen {brace : Nat} (h : (s.token brace).isOpen = true)
    (before : Option Token) : s.Agrees before brace := by
  obtain ⟨-, hdrop, -⟩ := (s.ahead brace).resolve_left fun hend =>
    absurd (lt_of_reads h (by decide)) (Nat.not_lt.2 hend.1)
  refine .inr fun u hu => ?_
  rw [hdrop] at hu
  obtain rfl : s.token brace = u := Option.some.inj hu
  refine ⟨Token.isComment_of_reads h, ?_⟩
  rw [Token.isClassKeyword, Token.reads_of_ne h (by decide), Token.reads_of_ne h (by decide)]
  rfl

/-- A keyword behind annotations defines the class that they wait for, or it is passed. -/
theorem keeps_classKeyword (hturn : s.scanLoop.turn p = s.classTurn p t)
    (hlt : p.index < s.code.length) (hdrop : s.code.drop p.index = t :: s.code.drop (p.index + 1))
    (hseeking : p.seeking = true) (hclass : t.isClassKeyword = true) :
    s.scanLoop.Keeps (fun _ => True) s.Finds p := by
  obtain ⟨found, hfound, hhead, hbrace⟩ := classAt_eq hlt rfl
  rw [classTurn, hfound, ok_bind] at hturn
  have hsame : ∀ before, s.Agrees before p.index →
      classHead? before (s.code.drop (p.index + 1)) =
        found.map (fun x => (s.token x.1, s.code.drop x.2)) := fun before hbefore => by
    rw [← hhead]
    refine classHead?_congr (hbefore.resolve_right fun hnext => ?_) _
    exact absurd hclass (Bool.eq_false_iff.1 (hnext t (by rw [hdrop]; rfl)).2)
  cases found with
  | none =>
    refine .again hturn trivial fun classes h before waiting hbefore hwaits => ?_
    obtain ⟨hcode, hspace, hopen, hclose⟩ := plain_of_isClassKeyword hclass
    rw [id, h (some t) waiting (.code hdrop hcode) hwaits, declaredFrom, declaredFrom, hdrop,
      findings_plain hcode hspace hopen hclose fun _ => .inr (hsame before hbefore)]
  | some x =>
    obtain ⟨name, brace⟩ := x
    have hmembers := s.membersLoop_run ⟨brace + 1, t.reads "struct", []⟩
    simp only [hmembers, ok_bind] at hturn
    refine .again hturn trivial fun classes h before waiting hbefore hwaits => ?_
    obtain ⟨block, rfl⟩ := Option.isSome_iff_exists.1 (hwaits.1.symm.trans hseeking)
    rw [id, h (some t) none (agrees_of_isOpen (hbrace _ rfl) _) ⟨rfl, rfl⟩, declaredFrom,
      declaredFrom, hdrop, findings_defined hclass (hsame before hbefore), hwaits.2]
    simp [Finding.site?, ClassSite.declared]

end

/-- The walk over a header has no fault and finds the classes that there are. -/
theorem scanLoop_run (hword : ∀ t ∈ s.code, t.isClassKeyword = true → t.kind = .word)
    (p : InHeader) : ∃ classes, s.scanLoop.run p = .ok classes ∧ s.Finds p classes := by
  refine Loop.run_ok (I := fun _ => True) (P := s.Finds) (fun p _ => ?_) p trivial
  have hturn : s.scanLoop.turn p = s.scanTurn p := rfl
  rw [scanTurn] at hturn
  rcases s.ahead p.index with ⟨hle, hdrop, htoken⟩ | ⟨hlt, hdrop, hkind⟩
  · have hdone : s.scanLoop.turn p = .ok (.done p.classes) := by
      rw [hturn, htoken, if_pos s.finish_kind, ite_self]
    refine .done hdone fun before waiting _ _ => ?_
    rw [declaredFrom, hdrop, findings.eq_def]
    simp [site?_finishing]
  · have htokens : p.index < s.tokens.length := by simp only [tokens, List.length_append]; omega
    generalize s.token p.index = t at hdrop hkind hturn
    rw [if_pos htokens, if_neg hkind] at hturn
    by_cases hcomment : t.isComment = true
    · rw [if_pos hcomment] at hturn
      exact keeps_comment hturn hdrop hcomment
    rw [if_neg hcomment] at hturn
    have hcode : t.isComment = false := Bool.eq_false_iff.2 hcomment
    by_cases hspace : t.reads "namespace" = true
    · obtain ⟨head, hrun, hhead, hagrees⟩ := s.namespaceLoop_run hword ⟨p.index + 1, ""⟩
      rw [if_pos hspace, hrun, ok_bind] at hturn
      refine .again hturn trivial fun classes h before waiting _ hwaits => ?_
      rw [id, h none waiting hagrees hwaits, declaredFrom, declaredFrom, hdrop,
        findings_namespace hspace, hhead]
    rw [if_neg hspace] at hturn
    by_cases hopen : t.isOpen = true
    · rw [if_pos hopen] at hturn
      refine .again hturn trivial fun classes h before waiting _ hwaits => ?_
      rw [id, h (some t) waiting (.code hdrop hcode) hwaits, declaredFrom, declaredFrom, hdrop,
        findings_open waiting hopen]
    rw [if_neg hopen] at hturn
    by_cases hclose : t.isClose = true
    · rw [if_pos hclose] at hturn
      refine .again hturn trivial fun classes h before waiting _ hwaits => ?_
      rw [id, h (some t) waiting (.code hdrop hcode) hwaits, declaredFrom, declaredFrom, hdrop,
        findings_close waiting hclose]
    rw [if_neg hclose] at hturn
    by_cases hkeyword : (p.seeking && (t.reads "struct" || t.reads "class")) = true
    · obtain ⟨hseeking, hclass⟩ := Bool.and_eq_true_iff.1 hkeyword
      rw [if_pos hkeyword] at hturn
      exact keeps_classKeyword hturn hlt hdrop hseeking hclass
    · rw [if_neg hkeyword] at hturn
      refine .again hturn trivial fun classes h before waiting _ hwaits => ?_
      have hwaiting : t.isClassKeyword = true → waiting = none := fun hclass =>
        Option.not_isSome_iff_eq_none.1 fun hsome =>
          hkeyword (Bool.and_eq_true_iff.2 ⟨hwaits.1.trans hsome, hclass⟩)
      rw [id, h (some t) waiting (.code hdrop hcode) hwaits, declaredFrom, declaredFrom, hdrop,
        findings_plain hcode (Bool.eq_false_iff.2 hspace) (Bool.eq_false_iff.2 hopen)
          (Bool.eq_false_iff.2 hclose) fun hclass => .inl (hwaiting hclass)]

end Scanner

/-- **The scan by positions has no fault, and finds the annotated classes of the header.** -/
theorem scan_eq (source : List Char) : scan source = .ok (declaredClasses source) := by
  obtain ⟨classes, hrun, hclasses⟩ := (Scanner.ofText source).scanLoop_run
    (fun _ ht => kind_of_isClassKeyword ht) ⟨0, [], [], [], false⟩
  rw [scan, hrun, hclasses none none (.inl rfl) ⟨rfl, rfl⟩]
  rfl

end RowMapping
