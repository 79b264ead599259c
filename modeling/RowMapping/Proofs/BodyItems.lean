import Mathlib.Data.List.Basic
import RowMapping.Proofs.Nested
/-!
# Items of a class body

The body of a class is a sequence of access labels, statements and functions, with comments between
them.  Its members are found item by item: each statement gives what it gives in a body of its own,
and only the labels before it decide whether that is kept.

* `Look`, `memberWalk`: all that a walk over a body looks at, and the place where it stops;
* `BodyItem`, `BodyItem.IsWellFormed`: an item with the comments behind it;
* `BodyItem.alone`: what an item gives in a body of its own;
* `BodyItem.declared`, `BodyItem.members_eq_declared`: which is what a statement declares;
* `read_statement`, `read_function`: one item is read as one statement;
* `memberSites_items`: the member sites of a body from those of its items;
* `members_independent`: the statement about bodies.
-/

namespace RowMapping

open Declaration Statement Token

/-! ### The walk over a body -/

/-- A statement that a walk over a body looks at: the access there, how the statement ends, and
where its member is described. -/
structure Look where
  isPublic : Bool
  kind : Statement.Kind
  site : MemberSite
  deriving DecidableEq, Repr

/-- The statements of a body whose opening brace has been read, and the tokens at which the walk
over the body stops. -/
def memberWalk (isPublic : Bool) : List Token → List Look × List Token
  | [] => ([], [])
  | t :: ts =>
    if t.isClose then ([], t :: ts)
    else if t.isComment || t.reads ";" then memberWalk isPublic ts
    else
      match accessLabel? t ts with
      | some isPublic => memberWalk isPublic ts.tail
      | none =>
        let s := Statement.read 0 false none (t :: ts)
        let trailing := trailing? s.rest
        let walk := memberWalk isPublic (s.rest.drop trailing.toList.length)
        (⟨isPublic, s.kind, ⟨t.line, s.tokens, trailing⟩⟩ :: walk.1, walk.2)
termination_by ts => ts.length
decreasing_by
  · simp
  · simp only [List.length_tail, List.length_cons]
    omega
  · have hs := (Statement.length_read 0 false none (t :: ts)).2 t rfl
      (Bool.eq_false_iff.2 ‹¬t.isClose = true›)
    simp only [List.length_drop]
    omega

/-- A look at a statement that can declare a member. -/
def Look.isSite (l : Look) : Bool := l.isPublic && l.kind = .simple

variable {isPublic : Bool} {ts body rest : List Token} {t c : Token}

/-- The member sites are those among the statements of the walk that are public and end at a
semicolon. -/
theorem memberSites_eq_walk (isPublic : Bool) (ts : List Token) :
    memberSites isPublic ts = ((memberWalk isPublic ts).1.filter Look.isSite).map Look.site := by
  fun_induction memberSites isPublic ts with
  | case1 => rw [memberWalk]; rfl
  | case2 p t ts hclose => rw [memberWalk, if_pos hclose]; rfl
  | case3 p t ts hclose hskip ih => rw [memberWalk, if_neg hclose, if_pos hskip, ih]
  | case4 p t ts hclose hskip q hlabel ih =>
    rw [memberWalk, if_neg hclose, if_neg hskip, hlabel]
    exact ih
  | case5 p t ts hclose hskip hlabel s trailing sites hsite ih =>
    rw [memberWalk, if_neg hclose, if_neg hskip, hlabel]
    simp only
    rw [List.filter_cons_of_pos (by simpa [Look.isSite] using hsite), List.map_cons, ← ih]
  | case6 p t ts hclose hskip hlabel s trailing sites hsite ih =>
    rw [memberWalk, if_neg hclose, if_neg hskip, hlabel]
    simp only
    rw [List.filter_cons_of_neg (by simpa [Look.isSite] using hsite), ← ih]

/-- The tokens of a statement are the first ones of those it is read from, and those behind it are
the last ones. -/
theorem Statement.exists_read_eq (depth : Nat) (params : Bool) (found : Option Token)
    (ts : List Token) : ∃ mid, ts = (read depth params found ts).tokens ++ mid ++
      (read depth params found ts).rest := by
  fun_induction read depth params found ts with
  | case1 => exact ⟨[], rfl⟩
  | case2 _ _ _ t _ _ ih | case3 _ _ _ t _ _ _ ih | case4 _ _ _ t _ _ _ _ ih
  | case10 _ _ _ t _ _ _ _ _ _ _ ih =>
    obtain ⟨mid, h⟩ := ih
    exact ⟨mid, congrArg (t :: ·) h⟩
  | case5 _ _ _ t ts => exact ⟨[t], rfl⟩
  | case6 => exact ⟨[], rfl⟩
  | case7 _ _ t ts =>
    -- a function: the semicolon that may stand behind its body is in neither part
    have hskip : ∃ mid, (closing 1 ts).2 = mid ++ skipSemicolon (closing 1 ts).2 := by
      cases (closing 1 ts).2 with
      | nil => exact ⟨[], rfl⟩
      | cons u us =>
        by_cases hu : u.reads ";" = true
        · exact ⟨[u], by simp [skipSemicolon, hu]⟩
        · exact ⟨[], by simp [skipSemicolon, hu]⟩
    obtain ⟨mid, hmid⟩ := hskip
    refine ⟨mid, ?_⟩
    rw [List.append_assoc, ← hmid, List.cons_append, closing_append]
  | case8 _ _ _ t ts =>
    rename_i ih
    obtain ⟨mid, h⟩ := ih
    refine ⟨mid, ?_⟩
    rw [rest_after, rest_nested, tokens_after, tokens_nested, List.append_assoc, List.append_assoc,
      ← List.append_assoc _ mid, ← h, List.cons_append, closing_append]
  | case9 _ _ _ t ts =>
    rename_i ih
    obtain ⟨mid, h⟩ := ih
    refine ⟨mid, ?_⟩
    rw [rest_after, tokens_after, List.append_assoc, List.append_assoc, ← List.append_assoc _ mid,
      ← h, List.cons_append, closing_append]

/-! ### Labels and comments -/

/-- A keyword in front of a label is code that is no bracket and no semicolon. -/
theorem plain_of_accessKeyword
    (h : (t.reads "public" || t.reads "private" || t.reads "protected") = true) :
    t.isComment = false ∧ t.opens? = none ∧ t.isClose = false ∧ t.reads ";" = false := by
  rw [Bool.or_eq_true, Bool.or_eq_true] at h
  rcases h with (h | h) | h <;>
    exact ⟨isComment_of_reads h, opens?_eq_none_of_reads h fun k => by cases k <;> decide,
      reads_of_ne h (by decide), reads_of_ne h (by decide)⟩

/-- Whether a label starts here is decided by the next token. -/
theorem accessLabel?_append_cons (t : Token) (ts : List Token) (u : Token) (us : List Token) :
    accessLabel? t (ts ++ u :: us) = accessLabel? t (ts ++ [u]) := by
  cases ts <;> rfl

theorem accessLabel?_append_close (hc : c.isClose = true) (t : Token) (ts rest : List Token) :
    accessLabel? t (ts ++ c :: rest) = accessLabel? t ts := by
  cases ts with
  | nil =>
    have hcolon : c.reads ":" = false := reads_of_ne hc (by decide)
    simp [accessLabel?, hcolon]
  | cons u us => rfl

/-- A label is a keyword and a colon. -/
theorem exists_of_accessLabel? {q : Bool} (h : accessLabel? t ts = some q) :
    (t.reads "public" || t.reads "private" || t.reads "protected") = true ∧
      q = t.reads "public" ∧ ∃ u us, ts = u :: us ∧ u.reads ":" = true := by
  unfold accessLabel? at h
  split_ifs at h with hkeyword hcolon
  refine ⟨hkeyword, (Option.some.inj h).symm, ?_⟩
  cases ts with
  | nil => cases hcolon
  | cons u us => exact ⟨u, us, rfl, hcolon⟩

theorem trailing?_cases (ts : List Token) :
    trailing? ts = none ∨ ∃ t us, ts = t :: us ∧ t.isComment = true ∧ trailing? ts = some t := by
  cases ts with
  | nil => exact .inl rfl
  | cons t us =>
    simp only [trailing?]
    split_ifs with h
    · rw [Bool.and_eq_true] at h
      exact .inr ⟨t, us, rfl, h.1, rfl⟩
    · exact .inl rfl

/-- Whether a comment stands directly behind a statement does not depend on what follows a token of
code. -/
theorem trailing?_append {us : List Token} (h : ∀ t ∈ us.head?, t.isComment = false)
    (ts : List Token) : trailing? (ts ++ us) = trailing? ts := by
  cases ts with
  | cons t ts => rfl
  | nil =>
    cases us with
    | nil => rfl
    | cons u us => simp [trailing?, h u rfl]

theorem opens?_of_skipped (h : (t.isComment || t.reads ";") = true) : t.opens? = none := by
  rcases Bool.or_eq_true_iff.1 h with h | h
  · exact opens?_of_isComment h
  · exact opens?_eq_none_of_reads h fun k => by cases k <;> decide

/-- A walk over a body looks at the same statements whatever is behind the body, and stops at the
brace that closes it. -/
theorem memberWalk_append_close (hbody : Nested body) (hc : c.isClose = true) (isPublic : Bool)
    (rest : List Token) :
    memberWalk isPublic (body ++ c :: rest) = ((memberWalk isPublic body).1, c :: rest) := by
  fun_induction memberWalk isPublic body with
  | case1 => rw [List.nil_append, memberWalk, if_pos hc]
  | case2 p t ts hclose =>
    rw [isClose_eq, hbody.closes?_head] at hclose
    cases hclose
  | case3 p t ts hclose hskip ih =>
    rw [List.cons_append, memberWalk, if_neg hclose, if_pos hskip]
    exact ih (hbody.of_cons (opens?_of_skipped hskip))
  | case4 p t ts hclose hskip q hlabel ih =>
    rw [List.cons_append, memberWalk, if_neg hclose, if_neg hskip, accessLabel?_append_close hc,
      hlabel]
    obtain ⟨hkeyword, -, u, us, rfl, hu⟩ := exists_of_accessLabel? hlabel
    obtain ⟨-, hopen, -, -⟩ := plain_of_accessKeyword hkeyword
    have hcolon : u.opens? = none := opens?_eq_none_of_reads hu fun k => by cases k <;> decide
    exact ih ((hbody.of_cons hopen).of_cons hcolon)
  | case5 p t ts hclose hskip hlabel s trailing walk ih =>
    rw [List.cons_append, memberWalk, if_neg hclose, if_neg hskip, accessLabel?_append_close hc,
      hlabel]
    obtain ⟨hread, hrest⟩ := read_append_close hbody hc false none rest
    have hread : Statement.read 0 false none (t :: (ts ++ c :: rest)) = extend (c :: rest) s :=
      hread
    have htrailing : trailing? (extend (c :: rest) s).rest = trailing :=
      trailing?_append (isComment_head_close hc rest) s.rest
    -- the comment behind the statement belongs to the body
    have hlength : trailing.toList.length ≤ s.rest.length := by
      rcases trailing?_cases s.rest with h | ⟨u, us, hus, -, h⟩
      · simp [trailing, h]
      · simp [trailing, h, hus]
    have hnested : Nested (s.rest.drop trailing.toList.length) := by
      rcases trailing?_cases s.rest with h | ⟨u, us, hus, hu, h⟩
      · simpa [trailing, h] using hrest
      · have hs : Nested (u :: us) := hus ▸ hrest
        simpa [trailing, h, hus] using hs.of_cons (opens?_of_isComment hu)
    simp only [hread, htrailing]
    rw [show (extend (c :: rest) s).rest = s.rest ++ c :: rest from rfl,
      List.drop_append_of_le_length hlength, ih hnested]
    rfl

/-! ### Items -/

/-- The code of an item: an access label, a statement that ends at a semicolon, or a function with
its body, behind which a semicolon may stand. -/
inductive ItemCode
  | label (keyword colon : Token)
  | statement (code : List Token) (semicolon : Token)
  | function (head : List Token) (opening : Token) (body : List Token) (closing : Token)
      (semicolon : Option Token)
  deriving DecidableEq, Repr

/-- The tokens start with one of code, and not with an access label. -/
def startsMember : List Token → Bool
  | [] => true
  | t :: ts => !t.isComment && (accessLabel? t ts).isNone

namespace ItemCode

/-- The tokens of the code, in order. -/
def tokens : ItemCode → List Token
  | label keyword colon => [keyword, colon]
  | statement code semicolon => code ++ [semicolon]
  | function head opening body closing semicolon =>
    head ++ opening :: (body ++ closing :: semicolon.toList)

/-- The access that a label gives. -/
def access? : ItemCode → Option Bool
  | label keyword _ => some (keyword.reads "public")
  | _ => none

/-- A label is a keyword and a colon.  A statement is nested and ends at its first semicolon outside
of all groups, where no group of braces comes behind a parenthesis.  A function is nested and ends
with its first group of braces outside of all groups, where a parenthesis and no semicolon stands
before that group. -/
def IsWellFormed : ItemCode → Prop
  | label keyword colon =>
    (keyword.reads "public" || keyword.reads "private" || keyword.reads "protected") = true ∧
      colon.reads ":" = true
  | statement code semicolon =>
    startsMember (code ++ [semicolon]) = true ∧ semicolon.reads ";" = true ∧ Nested code ∧
      AtTopLevel (fun _ t => t.reads ";" = false) code ∧
      AtTopLevel (fun before t => t.isOpen = true → hasParen before = false) code
  | function head opening body closing semicolon =>
    startsMember (head ++ [opening]) = true ∧ Nested head ∧ hasParen head = true ∧
      AtTopLevel (fun _ t => t.reads ";" = false) head ∧
      AtTopLevel (fun _ t => t.isOpen = false) head ∧
      opening.isOpen = true ∧ Nested body ∧ closing.isClose = true ∧
      ∀ t ∈ semicolon, t.reads ";" = true

instance (i : ItemCode) : Decidable i.IsWellFormed := by
  cases i <;> unfold IsWellFormed <;> infer_instance

end ItemCode

/-- An item of a class body: its code, and the comments behind it. -/
structure BodyItem where
  code : ItemCode
  comments : List Token
  deriving DecidableEq, Repr

namespace BodyItem

/-- The tokens of the item, in order. -/
def tokens (i : BodyItem) : List Token := i.code.tokens ++ i.comments

/-- The access that the item gives to those behind it, if it is a label. -/
def access? (i : BodyItem) : Option Bool := i.code.access?

/-- The code has its form, and comments stand behind it. -/
def IsWellFormed (i : BodyItem) : Prop :=
  i.code.IsWellFormed ∧ ∀ t ∈ i.comments, t.isComment = true

instance (i : BodyItem) : Decidable i.IsWellFormed :=
  inferInstanceAs (Decidable (i.code.IsWellFormed ∧ ∀ t ∈ i.comments, t.isComment = true))

/-- What the item gives in a public body of its own. -/
def alone (i : BodyItem) : List MemberSite := memberSites true i.tokens

/-- The access behind some items: that of the last label among them. -/
def accessAfter (isPublic : Bool) (items : List BodyItem) : Bool :=
  (items.filterMap access?).getLast?.getD isPublic

/-- What the items give that are public by the last label before them. -/
def kept (isPublic : Bool) (items : List BodyItem) : List MemberSite :=
  (items.mapIdx fun k i => if accessAfter isPublic (items.take k) then i.alone else []).flatten

end BodyItem

/-! ### One item is one statement -/

/-- A statement ends at its first semicolon outside of all groups, whatever stands behind it. -/
theorem read_statement {s : Token} (h : Nested ts) (hs : s.reads ";" = true) (params : Bool)
    (hsemi : AtTopLevel (fun _ t => t.reads ";" = false) ts)
    (hbrace : AtTopLevel (fun before t => t.isOpen = true → (params || hasParen before) = false) ts)
    (found : Option Token) :
    ∃ kind, ∀ rest, Statement.read 0 params found (ts ++ s :: rest) = ⟨kind, ts, rest⟩ := by
  induction h generalizing params found with
  | nil =>
    refine ⟨.simple, fun rest => ?_⟩
    rw [List.nil_append, Statement.read]
    simp [reads_of_ne hs, hs]
  | @plain t ts hopen hclose _ ih =>
    have hbrace' := hbrace.of_plain hopen hclose
    simp only [hasParen_cons_of_none hopen] at hbrace'
    obtain ⟨kind, hread⟩ := ih params (hsemi.of_plain hopen hclose) hbrace' (leader found t)
    refine ⟨kind, fun rest => ?_⟩
    rw [List.cons_append, read_plain _ _ _ _ hopen hclose fun _ => hsemi.head, hread]
    rfl
  | @group o c inner ts b hopen hinner hclose _ _ ih =>
    have hsemi' := hsemi.of_group hopen hinner hclose
    have hbrace' := hbrace.of_group hopen hinner hclose
    simp only [hasParen_group hclose, ← Bool.or_assoc] at hbrace'
    by_cases hb : b = .curly
    · -- braces come before every parenthesis, so they end no function
      subst hb
      have hno : params = false := by
        have h := hbrace.head (by rw [isOpen_eq, hopen]; rfl)
        exact (Bool.or_eq_false_iff.1 h).1
      subst hno
      have hrest : AtTopLevel (fun before t => t.isOpen = true → (false || hasParen before) = false)
          ts :=
        hbrace'.mono fun before t h hopen => (Bool.or_eq_false_iff.1 (h hopen)).2
      by_cases hdefines : definesType (found.getD o) = true
      · obtain ⟨kind, hread⟩ := ih false hsemi' hrest none
        refine ⟨if kind = .incomplete then .incomplete else .nestedType, fun rest => ?_⟩
        rw [List.cons_append, List.append_assoc, List.cons_append,
          read_braces hopen hinner hclose, hread]
        simp [hdefines, nested, after]
      · obtain ⟨kind, hread⟩ := ih false hsemi' hrest (some (found.getD o))
        refine ⟨kind, fun rest => ?_⟩
        rw [List.cons_append, List.append_assoc, List.cons_append,
          read_braces hopen hinner hclose, hread]
        simp [hdefines, after]
    · obtain ⟨kind, hread⟩ := ih _ hsemi' hbrace' (some (found.getD o))
      refine ⟨kind, fun rest => ?_⟩
      rw [List.cons_append, List.append_assoc, List.cons_append,
        read_group hopen hb hinner hclose, hread]
      simp [after]

/-- Tokens without a semicolon or braces outside of all groups are passed over. -/
theorem read_append_of_topLevel (h : Nested ts) {params : Bool}
    (hsemi : AtTopLevel (fun _ t => t.reads ";" = false) ts)
    (hbrace : AtTopLevel (fun _ t => t.isOpen = false) ts) (found : Option Token)
    (rest : List Token) :
    Statement.read 0 params found (ts ++ rest) =
      after ts (Statement.read 0 (params || hasParen ts) (leaderAmong found ts) rest) := by
  induction h generalizing params found with
  | nil => simp [hasParen, leaderAmong, after]
  | @plain t ts hopen hclose _ ih =>
    rw [List.cons_append, read_plain _ _ _ _ hopen hclose fun _ => hsemi.head,
      ih (hsemi.of_plain hopen hclose) (hbrace.of_plain hopen hclose), after_after,
      hasParen_cons_of_none hopen]
    rfl
  | @group o c inner ts b hopen hinner hclose _ _ ih =>
    have hb : b ≠ .curly := by
      rintro rfl
      have ho := hbrace.head
      rw [isOpen_eq, hopen] at ho
      cases ho
    rw [List.cons_append, List.append_assoc, List.cons_append, read_group hopen hb hinner hclose,
      ih (hsemi.of_group hopen hinner hclose) (hbrace.of_group hopen hinner hclose), after_after,
      hasParen_group hclose, leaderAmong_cons_of_opens? hopen, leaderAmong_some, Bool.or_assoc]
    simp

/-- A function ends with its body. -/
theorem read_function {head inner : List Token} {o : Token} (hhead : Nested head)
    (hparen : hasParen head = true) (hsemi : AtTopLevel (fun _ t => t.reads ";" = false) head)
    (hbrace : AtTopLevel (fun _ t => t.isOpen = false) head) (ho : o.isOpen = true)
    (hinner : Nested inner) (hc : c.isClose = true) (rest : List Token) :
    Statement.read 0 false none (head ++ o :: (inner ++ c :: rest)) =
      ⟨.function, head ++ o :: (inner ++ [c]), skipSemicolon rest⟩ := by
  rw [isOpen_eq, beq_iff_eq] at ho
  rw [isClose_eq, beq_iff_eq] at hc
  rw [read_append_of_topLevel hhead hsemi hbrace, hparen, read_braces ho hinner hc]
  rfl

/-! ### The sites of a body -/

theorem memberSites_of_skipped (h : (t.isComment || t.reads ";") = true) :
    memberSites isPublic (t :: ts) = memberSites isPublic ts := by
  have hclose : t.isClose = false := by
    rcases Bool.or_eq_true_iff.1 h with h | h
    · exact reads_of_isComment h
    · exact reads_of_ne h (by decide)
  rw [memberSites, if_neg (by simp [hclose]), if_pos h]

theorem memberSites_append_comments {comments : List Token}
    (h : ∀ t ∈ comments, t.isComment = true) (isPublic : Bool) (ts : List Token) :
    memberSites isPublic (comments ++ ts) = memberSites isPublic ts := by
  induction comments with
  | nil => rfl
  | cons t comments ih =>
    obtain ⟨ht, hrest⟩ := List.forall_mem_cons.1 h
    rw [List.cons_append, memberSites_of_skipped (by rw [ht, Bool.true_or]), ih hrest]

theorem memberSites_skipSemicolon (isPublic : Bool) (ts : List Token) :
    memberSites isPublic (skipSemicolon ts) = memberSites isPublic ts := by
  cases ts with
  | nil => rfl
  | cons t ts =>
    simp only [skipSemicolon]
    split
    · next h => rw [memberSites_of_skipped (by rw [h, Bool.or_true])]
    · rfl

theorem memberSites_drop_trailing (isPublic : Bool) (ts : List Token) :
    memberSites isPublic (ts.drop (trailing? ts).toList.length) = memberSites isPublic ts := by
  rcases trailing?_cases ts with h | ⟨t, us, rfl, ht, h⟩
  · rw [h]
    rfl
  · rw [h, memberSites_of_skipped (by rw [ht, Bool.true_or])]
    rfl

theorem memberSites_label (hkeyword :
    (t.reads "public" || t.reads "private" || t.reads "protected") = true)
    (hcolon : c.reads ":" = true) (isPublic : Bool) (ts : List Token) :
    memberSites isPublic (t :: c :: ts) = memberSites (t.reads "public") ts := by
  obtain ⟨hcomment, -, hclose, hsemi⟩ := plain_of_accessKeyword hkeyword
  rw [memberSites, if_neg (by simp [hclose]), if_neg (by simp [hcomment, hsemi])]
  simp [accessLabel?, hkeyword, hcolon]

/-- A statement gives its site when it is public and ends at a semicolon. -/
theorem memberSites_cons (hclose : t.isClose = false) (hcomment : t.isComment = false)
    (hsemi : t.reads ";" = false) (hlabel : accessLabel? t ts = none) {s : Statement}
    (hread : Statement.read 0 false none (t :: ts) = s) (isPublic : Bool) :
    memberSites isPublic (t :: ts) =
      (if isPublic && s.kind = .simple then [⟨t.line, s.tokens, trailing? s.rest⟩] else []) ++
        memberSites isPublic s.rest := by
  rw [memberSites, if_neg (by simp [hclose]), if_neg (by simp [hcomment, hsemi]), hlabel]
  simp only [hread, memberSites_drop_trailing]
  split <;> rfl

namespace BodyItem

variable {i : BodyItem} {items : List BodyItem}

theorem not_isComment_of_startsMember (h : startsMember (t :: ts) = true) :
    t.isComment = false ∧ accessLabel? t ts = none := by
  simpa [startsMember] using h

/-- An item does not start with a comment. -/
theorem head_tokens (hi : i.IsWellFormed) (ts : List Token) :
    ∀ t ∈ (i.tokens ++ ts).head?, t.isComment = false := by
  obtain ⟨code, comments⟩ := i
  obtain ⟨hcode, -⟩ := hi
  cases code with
  | label keyword colon =>
    rintro _ ⟨⟩
    exact (plain_of_accessKeyword hcode.1).1
  | statement code semicolon =>
    cases code <;> rintro _ ⟨⟩ <;> exact (not_isComment_of_startsMember hcode.1).1
  | function head opening body closing semicolon =>
    cases head <;> rintro _ ⟨⟩ <;> exact (not_isComment_of_startsMember hcode.1).1

/-- Comments alone give nothing. -/
theorem memberSites_comments {comments : List Token} (h : ∀ t ∈ comments, t.isComment = true)
    (isPublic : Bool) : memberSites isPublic comments = [] := by
  rw [← List.append_nil comments, memberSites_append_comments h, memberSites]

/-- A statement gives a site of its own or none, whatever stands behind its semicolon, and of that
only a comment directly behind it counts. -/
theorem exists_memberSites_statement {code : List Token} {semicolon : Token}
    (hcode : (ItemCode.statement code semicolon).IsWellFormed) :
    ∃ site : Option Token → List MemberSite, ∀ isPublic us,
      memberSites isPublic (code ++ semicolon :: us) =
        (if isPublic then site (trailing? us) else []) ++ memberSites isPublic us := by
  obtain ⟨hstart, hsemicolon, hnested, hsemi, hbrace⟩ := hcode
  cases code with
  | nil =>
    -- a lone semicolon is passed over
    have hskip : (semicolon.isComment || semicolon.reads ";") = true := by
      rw [hsemicolon, Bool.or_true]
    exact ⟨fun _ => [], fun isPublic us => by simp [memberSites_of_skipped hskip]⟩
  | cons t code =>
    obtain ⟨kind, hread⟩ := read_statement hnested hsemicolon false hsemi
      (by simpa using hbrace) none
    rw [List.cons_append] at hstart
    obtain ⟨hcomment, hlabel⟩ := not_isComment_of_startsMember hstart
    have hclose : t.isClose = false := by rw [isClose_eq, hnested.closes?_head]; rfl
    refine ⟨fun trailing => if kind = .simple then [⟨t.line, t :: code, trailing⟩] else [],
      fun isPublic us => ?_⟩
    rw [List.cons_append, memberSites_cons hclose hcomment hsemi.head
      ((accessLabel?_append_cons t code semicolon us).trans hlabel) (hread us) isPublic]
    cases isPublic <;> simp

/-- In front of other tokens a statement gives what it gives alone, when it is public. -/
theorem memberSites_statement {code comments : List Token} {semicolon : Token}
    (hcode : (ItemCode.statement code semicolon).IsWellFormed)
    (hcomments : ∀ t ∈ comments, t.isComment = true) (isPublic : Bool)
    (hts : ∀ t ∈ ts.head?, t.isComment = false) :
    memberSites isPublic (code ++ semicolon :: (comments ++ ts)) =
      (if isPublic then memberSites true (code ++ semicolon :: comments) else []) ++
        memberSites isPublic ts := by
  -- used twice: with the tokens that follow, and for the statement alone
  obtain ⟨site, hsites⟩ := exists_memberSites_statement hcode
  rw [hsites, hsites, trailing?_append hts, memberSites_append_comments hcomments,
    memberSites_comments hcomments]
  cases isPublic <;> simp

/-- Of the comments behind a statement only the first one counts. -/
theorem memberSites_statement_take {code comments : List Token} {semicolon : Token}
    (hcode : (ItemCode.statement code semicolon).IsWellFormed)
    (hcomments : ∀ t ∈ comments, t.isComment = true) (isPublic : Bool) :
    memberSites isPublic (code ++ semicolon :: comments) =
      memberSites isPublic (code ++ semicolon :: comments.take 1) := by
  have hfirst : ∀ t ∈ comments.take 1, t.isComment = true := fun t ht =>
    hcomments t (List.mem_of_mem_take ht)
  have htrailing : trailing? (comments.take 1) = trailing? comments := by
    cases comments <;> rfl
  obtain ⟨site, hsites⟩ := exists_memberSites_statement hcode
  rw [hsites, hsites, htrailing, memberSites_comments hcomments, memberSites_comments hfirst]

/-- A function gives nothing. -/
theorem memberSites_function {head body comments : List Token} {opening closing : Token}
    {semicolon : Option Token}
    (hcode : (ItemCode.function head opening body closing semicolon).IsWellFormed)
    (hcomments : ∀ t ∈ comments, t.isComment = true) (isPublic : Bool) (ts : List Token) :
    memberSites isPublic
        (head ++ opening :: (body ++ closing :: (semicolon.toList ++ (comments ++ ts)))) =
      memberSites isPublic ts := by
  obtain ⟨hstart, hhead, hparen, hsemi, hbrace, hopening, hbody, hclosing, hsemicolon⟩ := hcode
  have hread := fun rest => read_function hhead hparen hsemi hbrace hopening hbody hclosing rest
  have hbehind : memberSites isPublic (semicolon.toList ++ (comments ++ ts)) =
      memberSites isPublic ts := by
    cases semicolon with
    | none => exact memberSites_append_comments hcomments isPublic ts
    | some s =>
      have hs : (s.isComment || s.reads ";") = true := by rw [hsemicolon s rfl, Bool.or_true]
      rw [Option.toList_some, List.singleton_append, memberSites_of_skipped hs,
        memberSites_append_comments hcomments]
  cases head with
  | nil => cases hparen
  | cons t head =>
    rw [List.cons_append] at hstart
    obtain ⟨hcomment, hlabel⟩ := not_isComment_of_startsMember hstart
    have hclose : t.isClose = false := by rw [isClose_eq, hhead.closes?_head]; rfl
    rw [List.cons_append, memberSites_cons hclose hcomment hsemi.head
        ((accessLabel?_append_cons t head opening _).trans hlabel) (hread _),
      memberSites_skipSemicolon, hbehind]
    simp

/-- In front of other tokens an item gives what it gives alone, when it is public, and only a label
changes the access behind it. -/
theorem memberSites_tokens_append (hi : i.IsWellFormed) (isPublic : Bool)
    (hts : ∀ t ∈ ts.head?, t.isComment = false) :
    memberSites isPublic (i.tokens ++ ts) =
      (if isPublic then i.alone else []) ++ memberSites (i.access?.getD isPublic) ts := by
  obtain ⟨code, comments⟩ := i
  obtain ⟨hcode, hcomments⟩ := hi
  have halone : alone ⟨code, comments⟩ = memberSites true (code.tokens ++ comments) := rfl
  rw [halone, tokens, List.append_assoc]
  cases code with
  | label keyword colon =>
    simp only [ItemCode.tokens, List.cons_append, List.nil_append]
    rw [memberSites_label hcode.1 hcode.2, memberSites_label hcode.1 hcode.2,
      memberSites_append_comments hcomments, memberSites_comments hcomments, ite_self,
      List.nil_append]
    rfl
  | statement code semicolon =>
    simpa [ItemCode.tokens, access?, ItemCode.access?] using
      memberSites_statement hcode hcomments isPublic hts
  | function head opening body closing semicolon =>
    have hself := memberSites_function hcode hcomments true []
    rw [List.append_nil, memberSites] at hself
    simp only [ItemCode.tokens, List.append_assoc, List.cons_append]
    rw [memberSites_function hcode hcomments, hself, ite_self, List.nil_append]
    rfl

/-! ### All items -/

theorem accessAfter_cons (isPublic : Bool) (i : BodyItem) (items : List BodyItem) :
    accessAfter isPublic (i :: items) = accessAfter (i.access?.getD isPublic) items := by
  unfold accessAfter
  cases h : i.access? with
  | none => rw [List.filterMap_cons_none h]; rfl
  | some q =>
    rw [List.filterMap_cons_some h, List.getLast?_cons]
    rfl

theorem kept_cons (isPublic : Bool) (i : BodyItem) (items : List BodyItem) :
    kept isPublic (i :: items) =
      (if isPublic then i.alone else []) ++ kept (i.access?.getD isPublic) items := by
  unfold kept
  rw [List.mapIdx_cons, List.flatten_cons]
  simp only [List.take_succ_cons, accessAfter_cons]
  rfl

theorem kept_append (isPublic : Bool) (items items' : List BodyItem) :
    kept isPublic (items ++ items') =
      kept isPublic items ++ kept (accessAfter isPublic items) items' := by
  induction items generalizing isPublic with
  | nil => rfl
  | cons i items ih =>
    rw [List.cons_append, kept_cons, kept_cons, accessAfter_cons, ih, List.append_assoc]

theorem head_flatMap_tokens (hitems : ∀ i ∈ items, i.IsWellFormed)
    (hts : ∀ t ∈ ts.head?, t.isComment = false) :
    ∀ t ∈ (items.flatMap tokens ++ ts).head?, t.isComment = false := by
  cases items with
  | nil => exact hts
  | cons i items =>
    rw [List.flatMap_cons, List.append_assoc]
    exact head_tokens (hitems i List.mem_cons_self) _

/-- The sites of a body are those that its items give alone, as far as they are public. -/
theorem memberSites_flatMap_tokens (hitems : ∀ i ∈ items, i.IsWellFormed) (isPublic : Bool)
    (hts : ∀ t ∈ ts.head?, t.isComment = false) :
    memberSites isPublic (items.flatMap tokens ++ ts) =
      kept isPublic items ++ memberSites (accessAfter isPublic items) ts := by
  induction items generalizing isPublic with
  | nil => rfl
  | cons i items ih =>
    obtain ⟨hi, hitems⟩ := List.forall_mem_cons.1 hitems
    rw [List.flatMap_cons, List.append_assoc,
      memberSites_tokens_append hi isPublic (head_flatMap_tokens hitems hts), ih hitems, kept_cons,
      accessAfter_cons, List.append_assoc]

end BodyItem

/-! ### Members -/

/-- The members that an item declares in a public body of its own. -/
def BodyItem.members (source : List Char) (i : BodyItem) : List Member :=
  i.alone.filterMap (MemberSite.member? source)

/-- The members that a body declares, read behind its opening brace. -/
def membersOf (source : List Char) (isPublic : Bool) (ts : List Token) : List Member :=
  (memberSites isPublic ts).filterMap (MemberSite.member? source)

/-- The members that a statement declares alone, with the comment directly behind it.  Labels and
functions declare none. -/
def BodyItem.declared (source : List Char) (i : BodyItem) : List Member :=
  match i.code with
  | .statement code semicolon => membersOf source true (code ++ semicolon :: i.comments.take 1)
  | .label _ _ | .function _ _ _ _ _ => []

theorem BodyItem.members_eq_declared {i : BodyItem} (hi : i.IsWellFormed) (source : List Char) :
    i.members source = i.declared source := by
  obtain ⟨code, comments⟩ := i
  obtain ⟨hcode, hcomments⟩ := hi
  have halone : BodyItem.members source ⟨code, comments⟩ =
      membersOf source true (code.tokens ++ comments) := rfl
  rw [halone, declared, membersOf]
  cases code with
  | label keyword colon =>
    rw [ItemCode.tokens, List.cons_append, List.cons_append, memberSites_label hcode.1 hcode.2,
      List.nil_append, memberSites_comments hcomments]
    rfl
  | statement code semicolon =>
    rw [ItemCode.tokens, List.append_assoc, List.singleton_append,
      memberSites_statement_take hcode hcomments]
    rfl
  | function head opening body closing semicolon =>
    have hnothing := memberSites_function hcode hcomments true []
    rw [List.append_nil, memberSites] at hnothing
    simp only [ItemCode.tokens, List.append_assoc, List.cons_append, hnothing, List.filterMap_nil]

/-- A walk over a body looks at parts of it. -/
theorem tokens_infix_of_mem_walk {l : Look} (hl : l ∈ (memberWalk isPublic ts).1) :
    l.site.tokens <:+: ts := by
  fun_induction memberWalk isPublic ts with
  | case1 => cases hl
  | case2 => cases hl
  | case3 p t ts _ _ ih => exact (ih hl).trans (List.suffix_cons t ts).isInfix
  | case4 p t ts _ _ _ _ ih =>
    exact (ih hl).trans ((List.tail_suffix ts).trans (List.suffix_cons t ts)).isInfix
  | case5 p t ts _ _ _ s trailing walk ih =>
    obtain ⟨mid, hread⟩ := Statement.exists_read_eq 0 false none (t :: ts)
    rcases List.mem_cons.1 hl with rfl | hl
    · exact ⟨[], mid ++ s.rest, by rw [List.nil_append, ← List.append_assoc]; exact hread.symm⟩
    · have hrest : s.rest <:+ t :: ts := ⟨s.tokens ++ mid, hread.symm⟩
      exact (ih hl).trans ((List.drop_suffix _ _).trans hrest).isInfix

theorem filterMap_kept (source : List Char) (isPublic : Bool) (items : List BodyItem) :
    (BodyItem.kept isPublic items).filterMap (MemberSite.member? source) =
      (items.mapIdx fun k i =>
        if BodyItem.accessAfter isPublic (items.take k) then i.members source else []).flatten := by
  rw [BodyItem.kept, List.filterMap_flatten]
  congr 1
  apply List.ext_getElem?
  intro k
  rw [List.getElem?_map, List.getElem?_mapIdx, List.getElem?_mapIdx, Option.map_map]
  refine Option.map_congr fun i _ => ?_
  simp only [Function.comp_apply]
  split <;> rfl

section Items

variable {source : List Char} {lead : List Token} {items : List BodyItem}

/-- The members of a body that is given by its items. -/
theorem membersOf_items (hlead : ∀ t ∈ lead, t.isComment = true)
    (hitems : ∀ i ∈ items, i.IsWellFormed) (hc : c.isClose = true) (isPublic : Bool)
    (rest : List Token) :
    membersOf source isPublic (lead ++ items.flatMap BodyItem.tokens ++ c :: rest) =
      (BodyItem.kept isPublic items).filterMap (MemberSite.member? source) := by
  have hstop : ∀ p, memberSites p (c :: rest) = [] := fun p => by rw [memberSites, if_pos hc]
  rw [membersOf, List.append_assoc, memberSites_append_comments hlead,
    BodyItem.memberSites_flatMap_tokens hitems isPublic (isComment_head_close hc rest), hstop,
    List.append_nil]

end Items

/-- **The members of a class are independent of each other.**  In a nested body, the walk looks at
parts of the body only, whatever is behind it, and stops at the brace that closes it.  In a body of
items, the members are those that each item gives alone, in order, as far as the last label before
it is public, or there is none and the class is a struct.  These are the members that statements
declare, each with the comment directly behind its semicolon, and labels and functions give none.
So an item that is no label can be left out, and what it gives alone is all that is missing then. -/
theorem members_independent (source : List Char) (isStruct : Bool) (hbody : Nested body)
    (hc : c.isClose = true) (rest : List Token) :
    closing 1 (body ++ c :: rest) = (body ++ [c], rest) ∧
    memberWalk isStruct (body ++ c :: rest) = ((memberWalk isStruct body).1, c :: rest) ∧
    (∀ l ∈ (memberWalk isStruct body).1, l.site.tokens <:+: body) ∧
    memberSites isStruct (body ++ c :: rest) =
      ((memberWalk isStruct body).1.filter Look.isSite).map Look.site ∧
    ∀ (lead : List Token) (items : List BodyItem), (∀ t ∈ lead, t.isComment = true) →
      (∀ i ∈ items, i.IsWellFormed) → body = lead ++ items.flatMap BodyItem.tokens →
      membersOf source isStruct (body ++ c :: rest) =
        (items.mapIdx fun k i =>
          if BodyItem.accessAfter isStruct (items.take k) then i.members source else []).flatten ∧
      (∀ i ∈ items, i.members source = i.declared source) ∧
      ∀ before i after, items = before ++ i :: after → i.access? = none →
        ∃ front back,
          membersOf source isStruct (body ++ c :: rest) =
            front ++ (if BodyItem.accessAfter isStruct before then i.members source else []) ++ back ∧
          membersOf source isStruct (lead ++ (before ++ after).flatMap BodyItem.tokens ++ c :: rest) =
            front ++ back := by
  have hwalk := memberWalk_append_close hbody hc isStruct rest
  refine ⟨closing_group hbody hc rest, hwalk, fun l hl => tokens_infix_of_mem_walk hl, ?_, ?_⟩
  · rw [memberSites_eq_walk, hwalk]
  · rintro lead items hlead hitems rfl
    refine ⟨?_, fun i hi => BodyItem.members_eq_declared (hitems i hi) source, ?_⟩
    · rw [membersOf_items hlead hitems hc, filterMap_kept]
    · rintro before i after rfl haccess
      have hothers : ∀ j ∈ before ++ after, j.IsWellFormed := fun j hj => hitems j <| by
        rw [List.mem_append, List.mem_cons]
        exact (List.mem_append.1 hj).imp_right Or.inr
      -- the item changes no access, so the items behind it are read as without it
      refine ⟨(BodyItem.kept isStruct before).filterMap (MemberSite.member? source),
        (BodyItem.kept (BodyItem.accessAfter isStruct before) after).filterMap
          (MemberSite.member? source), ?_, ?_⟩
      · rw [membersOf_items hlead hitems hc, BodyItem.kept_append, BodyItem.kept_cons, haccess,
          List.filterMap_append, List.filterMap_append, ← List.append_assoc]
        congr 2
        split <;> rfl
      · rw [membersOf_items hlead hothers hc, BodyItem.kept_append, List.filterMap_append]

/-- A token of a body, without its place. -/
def bodyToken (kind : Token.Kind) (text : String) : Token := ⟨kind, text, 1, 1, 0, 0, false⟩

/-- The items of a struct with a function, a member that is not public, and a nested type. -/
def orderItems : List BodyItem := [
  ⟨.statement [bodyToken .word "int64_t", bodyToken .word "id"] (bodyToken .mark ";"),
    [bodyToken .comment "// @relais primary_key"]⟩,
  ⟨.function [bodyToken .word "void", bodyToken .word "touch", bodyToken .mark "(",
      bodyToken .mark ")"] (bodyToken .mark "\x7b") [bodyToken .word "id", bodyToken .mark ";"]
      (bodyToken .mark "\x7d") none,
    [bodyToken .comment "// no member"]⟩,
  ⟨.label (bodyToken .word "private") (bodyToken .mark ":"), []⟩,
  ⟨.statement [bodyToken .word "int", bodyToken .word "hidden"] (bodyToken .mark ";"), []⟩,
  ⟨.label (bodyToken .word "public") (bodyToken .mark ":"), []⟩,
  ⟨.statement [bodyToken .word "struct", bodyToken .word "Line", bodyToken .mark "\x7b",
      bodyToken .word "int64_t", bodyToken .word "amount", bodyToken .mark ";",
      bodyToken .mark "\x7d"] (bodyToken .mark ";"), []⟩,
  ⟨.statement [bodyToken .word "Text", bodyToken .word "note"] (bodyToken .mark ";"), []⟩]

/-- The struct has its two public members, with the function between them and without it. -/
theorem members_independent_order :
    Nested (orderItems.flatMap BodyItem.tokens) ∧ (∀ i ∈ orderItems, i.IsWellFormed) ∧
      membersOf [] true (orderItems.flatMap BodyItem.tokens ++ [bodyToken .mark "\x7d"]) =
        [⟨"id", "int64_t", "", 1, { flags := [.primaryKey] }⟩, ⟨"note", "Text", "", 1, {}⟩] ∧
      membersOf [] true ((orderItems.take 1 ++ orderItems.drop 2).flatMap BodyItem.tokens ++
          [bodyToken .mark "\x7d"]) =
        membersOf [] true (orderItems.flatMap BodyItem.tokens ++ [bodyToken .mark "\x7d"]) := by
  have hbody : Nested (orderItems.flatMap BodyItem.tokens) := by decide +kernel
  have hitems : ∀ i ∈ orderItems, i.IsWellFormed := by decide +kernel
  obtain ⟨-, -, -, -, hmembers⟩ :=
    members_independent [] true hbody (c := bodyToken .mark "\x7d") (by decide) []
  obtain ⟨hall, hdeclared, hremove⟩ := hmembers [] orderItems (by simp) hitems rfl
  obtain ⟨front, back, hwith, hwithout⟩ :=
    hremove (orderItems.take 1) orderItems[1] (orderItems.drop 2) rfl rfl
  have hnothing : orderItems[1].members [] = [] := hdeclared orderItems[1] (List.getElem_mem _)
  refine ⟨hbody, hitems, hall.trans (by decide +kernel), hwithout.trans (hwith.trans ?_).symm⟩
  rw [hnothing, ite_self, List.append_nil]

end RowMapping
