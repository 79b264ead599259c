import RowMapping.Proofs.BodyPlaces
/-!
# Constructors in a class body

The definition of a constructor has a list of initializers between its parameters and its body.
The first group of braces behind the parameters is taken for the body, so an initializer in braces
ends the statement too early, and what is left of the constructor starts another one.  When the last
initializer is in parentheses, that one ends with the body.  When it is in braces, the body of the
constructor reads as an initializer, and the statement goes on into what stands behind it.

* `Initializer`, `Constructor`: the tokens of a definition;
* `IsReading`, `IsLeftOver`: what has been read of a statement;
* `Constructor.memberSites_append`: the walk over a constructor;
* `members_behind_constructor`: the members of a class with a constructor in it.
-/

namespace RowMapping

open Declaration Statement Token

/-- A token that is no bracket and no semicolon. -/
def Token.IsPlain (t : Token) : Prop :=
  t.opens? = none ∧ t.closes? = none ∧ t.reads ";" = false

instance (t : Token) : Decidable t.IsPlain := by
  unfold Token.IsPlain
  infer_instance

/-- The initializer of a member: what it initializes, its arguments in parentheses or braces, and
the comments behind it. -/
structure Initializer where
  target : List Token
  opening : Token
  args : List Token
  closing : Token
  comments : List Token
  deriving DecidableEq, Repr

namespace Initializer

/-- The tokens, in order. -/
def tokens (i : Initializer) : List Token :=
  i.target ++ i.opening :: (i.args ++ i.closing :: i.comments)

/-- The arguments are in braces. -/
def isBraced (i : Initializer) : Bool := i.opening.isOpen

/-- Nested arguments stand in parentheses or in braces. -/
def IsWellFormed (i : Initializer) : Prop :=
  (∀ t ∈ i.target, t.IsPlain) ∧
    (i.opening.opens? = some .round ∧ i.closing.closes? = some .round ∨
      i.opening.opens? = some .curly ∧ i.closing.closes? = some .curly) ∧
    Nested i.args ∧ ∀ t ∈ i.comments, t.isComment = true

instance (i : Initializer) : Decidable i.IsWellFormed := by
  unfold IsWellFormed
  infer_instance

end Initializer

/-- The definition of a constructor: its name and parameters, a colon, the initializers, all but the
first behind a comma, and the body. -/
structure Constructor where
  head : List Token
  colon : Token
  first : Initializer
  others : List (Token × Initializer)
  opening : Token
  body : List Token
  closing : Token
  deriving DecidableEq, Repr

namespace Constructor

/-- The tokens of initializers behind commas. -/
def listTokens (others : List (Token × Initializer)) : List Token :=
  others.flatMap fun x => x.1 :: x.2.tokens

/-- The tokens, in order. -/
def tokens (k : Constructor) : List Token :=
  k.head ++ k.colon :: (k.first.tokens ++
    (listTokens k.others ++ k.opening :: (k.body ++ [k.closing])))

/-- The last one of the initializers. -/
def last (k : Constructor) : Initializer := (k.others.map Prod.snd).getLastD k.first

/-- The head is nested and has parentheses, but no semicolon and no braces outside of them; the
initializers are well formed, and the body is nested. -/
def IsWellFormed (k : Constructor) : Prop :=
  startsMember (k.head ++ [k.colon]) = true ∧ Nested k.head ∧ hasParen k.head = true ∧
    AtTopLevel (fun _ t => t.reads ";" = false) k.head ∧
    AtTopLevel (fun _ t => t.isOpen = false) k.head ∧ k.colon.reads ":" = true ∧
    k.first.IsWellFormed ∧ (∀ x ∈ k.others, x.1.reads "," = true ∧ x.2.IsWellFormed) ∧
    k.opening.opens? = some .curly ∧ Nested k.body ∧ k.closing.closes? = some .curly

instance (k : Constructor) : Decidable k.IsWellFormed := by
  unfold IsWellFormed
  infer_instance

end Constructor

/-! ### Statements that have been read in part -/

variable {params : Bool} {t u o c : Token} {front inner us : List Token} {b : Bracket}

theorem isPlain_of_isComment (h : u.isComment = true) : u.IsPlain :=
  ⟨opens?_of_isComment h, closes?_of_isComment h, reads_of_isComment h⟩

theorem isPlain_of_reads {text : String} (h : u.reads text = true)
    (hopen : ∀ k : Bracket, k.opening ≠ text) (hclose : ∀ k : Bracket, k.closing ≠ text)
    (hsemi : text ≠ ";") : u.IsPlain := by
  refine ⟨opens?_eq_none_of_reads h hopen, ?_, reads_of_ne h hsemi⟩
  cases hu : u.closes? with
  | none => rfl
  | some k => exact absurd (reads_inj (reads_of_closes? hu) h) (hclose k)

theorem isPlain_comma (h : u.reads "," = true) : u.IsPlain :=
  isPlain_of_reads h (fun k => by cases k <;> decide) (fun k => by cases k <;> decide) (by decide)

theorem isPlain_colon (h : u.reads ":" = true) : u.IsPlain :=
  isPlain_of_reads h (fun k => by cases k <;> decide) (fun k => by cases k <;> decide) (by decide)

/-- A token that is no bracket and no semicolon is read as a part of the statement. -/
theorem Token.IsPlain.read (h : u.IsPlain) (params : Bool) (found : Option Token)
    (us : List Token) :
    Statement.read 0 params found (u :: us) =
      after [u] (Statement.read 0 params (leader found u) us) :=
  read_plain 0 params found us h.1 h.2.1 fun _ => h.2.2

/-- A statement starts with the token `t` of code, and the tokens `front` are read as more of it;
`params` tells whether there was a parenthesis. -/
structure IsReading (params : Bool) (t : Token) (front : List Token) : Prop where
  isComment : t.isComment = false
  semicolon : t.reads ";" = false
  isClose : t.isClose = false
  label : ∀ us, accessLabel? t (front ++ us) = none
  read : ∀ us, Statement.read 0 false none (t :: (front ++ us)) =
    after (t :: front) (Statement.read 0 params (some t) us)

namespace IsReading

/-- With more tokens that are read as a part of the statement. -/
theorem append {params' : Bool} {more : List Token} (h : IsReading params t front)
    (hmore : ∀ us, Statement.read 0 params (some t) (more ++ us) =
      after more (Statement.read 0 params' (some t) us)) : IsReading params' t (front ++ more) where
  isComment := h.isComment
  semicolon := h.semicolon
  isClose := h.isClose
  label us := by
    rw [List.append_assoc]
    exact h.label _
  read us := by rw [List.append_assoc, h.read, hmore, after_after, List.cons_append]

theorem append_plain (h : IsReading params t front) (hus : ∀ u ∈ us, u.IsPlain) :
    IsReading params t (front ++ us) := by
  refine h.append fun more => ?_
  induction us with
  | nil => rfl
  | cons u us ih =>
    obtain ⟨hu, hus⟩ := List.forall_mem_cons.1 hus
    rw [List.cons_append, hu.read, leader_some, ih hus, after_after]
    rfl

theorem append_round (h : IsReading params t front) (ho : o.opens? = some .round)
    (hinner : Nested inner) (hc : c.closes? = some .round) :
    IsReading true t (front ++ o :: (inner ++ [c])) := by
  refine h.append fun more => ?_
  have hparen : hasParen (o :: inner) = true := by
    have hreads : o.reads "(" = true := reads_of_opens? ho
    simp [hasParen, hreads]
  rw [List.cons_append, List.append_assoc, List.singleton_append,
    read_group ho (by decide) hinner hc, hparen, Bool.or_true, Option.getD_some]

theorem append_braces (h : IsReading false t front) (ht : definesType t = false)
    (ho : o.opens? = some .curly) (hinner : Nested inner) (hc : c.closes? = some .curly) :
    IsReading false t (front ++ o :: (inner ++ [c])) := by
  refine h.append fun more => ?_
  rw [List.cons_append, List.append_assoc, List.singleton_append, read_braces ho hinner hc,
    Option.getD_some, ht]
  rfl

/-- Behind a parenthesis, braces end the statement as the body of a function. -/
theorem memberSites_braces (h : IsReading true t front) (ho : o.opens? = some .curly)
    (hinner : Nested inner) (hc : c.closes? = some .curly) (isPublic : Bool) (us : List Token) :
    memberSites isPublic (t :: (front ++ o :: (inner ++ c :: us))) = memberSites isPublic us := by
  have hread := h.read (o :: (inner ++ c :: us))
  rw [read_braces ho hinner hc, if_pos rfl] at hread
  rw [memberSites_cons h.isClose h.isComment h.semicolon (h.label _) hread]
  simp [memberSites_skipSemicolon]

end IsReading

/-- The tokens `front` are nothing, or a statement that has been read in part.  Where there was no
parenthesis in it, it starts with a comma or a brace. -/
def IsLeftOver (params : Bool) : List Token → Prop
  | [] => params = false
  | t :: front => IsReading params t front ∧ (params = false → (t.reads "," || t.isOpen) = true)

theorem definesType_of_lead (h : (t.reads "," || t.isOpen) = true) : definesType t = false := by
  rcases Bool.or_eq_true_iff.1 h with h | h
  · simp [definesType, reads_of_ne h]
  · have hopen : t.reads "\x7b" = true := h
    simp [definesType, reads_of_ne hopen]

theorem accessLabel?_of_lead (h : (t.reads "," || t.isOpen) = true) (us : List Token) :
    accessLabel? t us = none := by
  rcases Bool.or_eq_true_iff.1 h with h | h
  · simp [accessLabel?, reads_of_ne h]
  · have hopen : t.reads "\x7b" = true := h
    simp [accessLabel?, reads_of_ne hopen]

/-- A comma starts a statement. -/
theorem isReading_comma (h : t.reads "," = true) : IsReading false t [] where
  isComment := isComment_of_reads h
  semicolon := reads_of_ne h (by decide)
  isClose := reads_of_ne h (by decide)
  label := accessLabel?_of_lead (by rw [h, Bool.true_or])
  read us := by
    rw [List.nil_append, (isPlain_comma h).read, leader_of_reads h]
    rfl

/-- A group of braces starts a statement. -/
theorem isReading_braces (ho : o.opens? = some .curly) (hinner : Nested inner)
    (hc : c.closes? = some .curly) : IsReading false o (inner ++ [c]) := by
  have hreads : o.reads "\x7b" = true := reads_of_opens? ho
  have hlead : (o.reads "," || o.isOpen) = true := by
    rw [isOpen, hreads, Bool.or_true]
  refine ⟨isComment_of_reads hreads, reads_of_ne hreads (by decide), reads_of_ne hreads (by decide),
    fun _ => accessLabel?_of_lead hlead _, fun us => ?_⟩
  rw [List.append_assoc, List.singleton_append, read_braces ho hinner hc, if_neg (by simp),
    if_neg (by rw [Option.getD_none, definesType_of_lead hlead]; simp)]
  rfl

namespace IsLeftOver

/-! ### Initializers -/

/-- A comma goes on in the statement, or it starts one. -/
theorem comma (h : IsLeftOver params front) (hu : u.reads "," = true) :
    ∃ t more, front ++ [u] = t :: more ∧ IsLeftOver params (t :: more) := by
  cases front with
  | nil =>
    have hparams : params = false := h
    subst hparams
    exact ⟨u, [], rfl, isReading_comma hu, fun _ => by rw [hu, Bool.true_or]⟩
  | cons t front =>
    obtain ⟨hreading, hlead⟩ := h
    exact ⟨t, front ++ [u], rfl, hreading.append_plain (by simpa using isPlain_comma hu), hlead⟩

/-- An initializer in parentheses goes on in the statement.  One in braces ends it when there was
a parenthesis before, and goes on in it when there was none. -/
theorem initializer {i : Initializer} (hi : i.IsWellFormed) (h : IsLeftOver params (t :: front)) :
    ∃ back, IsLeftOver (!i.isBraced) back ∧ ∀ isPublic us,
      memberSites isPublic (t :: (front ++ (i.tokens ++ us))) =
        memberSites isPublic (back ++ us) := by
  obtain ⟨hreading, hlead⟩ := h
  obtain ⟨htarget, hbrackets, hargs, hcomments⟩ := hi
  have hplain : ∀ u ∈ i.comments, u.IsPlain := fun u hu =>
    isPlain_of_isComment (hcomments u hu)
  have hreading := hreading.append_plain htarget
  -- the initializer is a part of the statement
  have hpart : ∀ isPublic us, memberSites isPublic (t :: (front ++ (i.tokens ++ us))) =
      memberSites isPublic ((t :: (front ++ i.tokens)) ++ us) := fun isPublic us => by
    rw [List.cons_append, List.append_assoc]
  rcases hbrackets with ⟨ho, hc⟩ | ⟨ho, hc⟩
  · have hbraced : i.isBraced = false := by rw [Initializer.isBraced, isOpen_eq, ho]; rfl
    have hround := (hreading.append_round ho hargs hc).append_plain hplain
    refine ⟨t :: (front ++ i.tokens), ?_, hpart⟩
    rw [hbraced]
    refine ⟨?_, by simp⟩
    simpa [Initializer.tokens] using hround
  · have hbraced : i.isBraced = true := by rw [Initializer.isBraced, isOpen_eq, ho]; rfl
    rw [hbraced]
    cases params with
    | true =>
      -- the initializer is taken for the body of a function
      refine ⟨[], rfl, fun isPublic us => ?_⟩
      have hsites := hreading.memberSites_braces ho hargs hc isPublic (i.comments ++ us)
      rw [memberSites_append_comments hcomments] at hsites
      simpa [Initializer.tokens] using hsites
    | false =>
      have hbraces := (hreading.append_braces (definesType_of_lead (hlead rfl)) ho hargs
        hc).append_plain hplain
      refine ⟨t :: (front ++ i.tokens), ⟨?_, fun _ => hlead rfl⟩, hpart⟩
      simpa [Initializer.tokens] using hbraces

/-- Behind a list of initializers, what is left has a parenthesis just when the last one stands in
parentheses, or there was one and the list is empty. -/
theorem listTokens {others : List (Token × Initializer)}
    (hothers : ∀ x ∈ others, x.1.reads "," = true ∧ x.2.IsWellFormed)
    {last : Initializer} (h : IsLeftOver (!last.isBraced) front) :
    ∃ back, IsLeftOver (!((others.map Prod.snd).getLastD last).isBraced) back ∧ ∀ isPublic us,
      memberSites isPublic (front ++ (Constructor.listTokens others ++ us)) =
        memberSites isPublic (back ++ us) := by
  induction others generalizing last front with
  | nil => exact ⟨front, h, fun _ _ => rfl⟩
  | cons x others ih =>
    obtain ⟨⟨hcomma, hi⟩, hothers⟩ := List.forall_mem_cons.1 hothers
    obtain ⟨t, more, hfront, hmore⟩ := h.comma hcomma
    obtain ⟨back, hback, hsites⟩ := hmore.initializer hi
    obtain ⟨back', hback', hsites'⟩ := ih hothers hback
    refine ⟨back', by rwa [List.map_cons, List.getLastD_cons], fun isPublic us => ?_⟩
    rw [← hsites', ← hsites, ← List.cons_append, ← hfront]
    simp [Constructor.listTokens]

end IsLeftOver

/-! ### The walk over a constructor -/

namespace Constructor

variable {k : Constructor}

/-- The name, the parameters and the colon of a constructor start a statement. -/
theorem isReading_head {head : List Token} (hk : k.IsWellFormed) (hhead : k.head = t :: head) :
    IsReading true t (head ++ [k.colon]) := by
  obtain ⟨hstart, hnested, hparen, hsemi, hbrace, hcolon, -, -, -, -, -⟩ := hk
  rw [hhead] at hstart hnested hparen hsemi hbrace
  rw [List.cons_append] at hstart
  obtain ⟨hcomment, hlabel⟩ := BodyItem.not_isComment_of_startsMember hstart
  refine ⟨hcomment, hsemi.head, by rw [isClose_eq, hnested.closes?_head]; rfl, fun us => ?_,
    fun us => ?_⟩
  · rw [List.append_assoc]
    exact (accessLabel?_append_cons t head k.colon us).trans hlabel
  · have hleader : leaderAmong none (t :: head) = some t := by
      rw [leaderAmong, List.foldl_cons, leader, hcomment]
      exact leaderAmong_some t head
    rw [List.append_assoc, ← List.cons_append, read_append_of_topLevel hnested hsemi hbrace, hparen,
      hleader, List.singleton_append, (isPlain_colon hcolon).read, after_after]
    rfl

/-- What is left in front of the body of a constructor. -/
theorem exists_leftOver (hk : k.IsWellFormed) :
    ∃ back, IsLeftOver (!k.last.isBraced) back ∧ ∀ isPublic us,
      memberSites isPublic (k.tokens ++ us) =
        memberSites isPublic (back ++ k.opening :: (k.body ++ k.closing :: us)) := by
  obtain ⟨t, head, hhead⟩ : ∃ t head, k.head = t :: head := by
    obtain ⟨-, -, hparen, -⟩ := hk
    cases h : k.head with
    | nil => rw [h] at hparen; cases hparen
    | cons t head => exact ⟨t, head, rfl⟩
  have hstart : IsLeftOver true (t :: (head ++ [k.colon])) := ⟨isReading_head hk hhead, by simp⟩
  obtain ⟨-, -, -, -, -, -, hfirst, hothers, -, -, -⟩ := hk
  obtain ⟨back, hback, hsites⟩ := hstart.initializer hfirst
  obtain ⟨back', hback', hsites'⟩ := IsLeftOver.listTokens hothers hback
  refine ⟨back', hback', fun isPublic us => ?_⟩
  rw [← hsites', ← hsites]
  simp [tokens, hhead]

/-- **Behind a constructor whose last initializer is in parentheses** the walk goes on as without
it. -/
theorem memberSites_of_round (hk : k.IsWellFormed) (hlast : k.last.isBraced = false)
    (isPublic : Bool) (us : List Token) :
    memberSites isPublic (k.tokens ++ us) = memberSites isPublic us := by
  obtain ⟨back, hback, hsites⟩ := exists_leftOver hk
  obtain ⟨-, -, -, -, -, -, -, -, hopening, hbody, hclosing⟩ := hk
  rw [hlast] at hback
  rw [hsites]
  cases back with
  | nil => cases hback
  | cons t back => exact hback.1.memberSites_braces hopening hbody hclosing isPublic us

/-- **When the last initializer is in braces**, the body of the constructor is read as a part of a
statement that goes on behind it. -/
theorem exists_reading_of_braced (hk : k.IsWellFormed) (hlast : k.last.isBraced = true) :
    ∃ t front, (t.reads "," || t.isOpen) = true ∧ IsReading false t front ∧ ∀ isPublic us,
      memberSites isPublic (k.tokens ++ us) = memberSites isPublic (t :: (front ++ us)) := by
  obtain ⟨back, hback, hsites⟩ := exists_leftOver hk
  obtain ⟨-, -, -, -, -, -, -, -, hopening, hbody, hclosing⟩ := hk
  rw [hlast] at hback
  cases back with
  | nil =>
    have hlead : (k.opening.reads "," || k.opening.isOpen) = true := by
      rw [isOpen_eq, hopening]
      simp
    refine ⟨k.opening, k.body ++ [k.closing], hlead, isReading_braces hopening hbody hclosing,
      fun isPublic us => ?_⟩
    rw [hsites]
    simp
  | cons t back =>
    obtain ⟨hreading, hlead⟩ := hback
    have hlead := hlead rfl
    refine ⟨t, back ++ k.opening :: (k.body ++ [k.closing]), hlead,
      hreading.append_braces (definesType_of_lead hlead) hopening hbody hclosing,
      fun isPublic us => ?_⟩
    rw [hsites]
    simp

end Constructor

/-! ### What the rest of a constructor hides -/

/-- Code that starts with a comma or a brace declares no member. -/
theorem member?_of_lead (hlead : (t.reads "," || t.isOpen) = true) (source : List Char)
    (line : Nat) (ts : List Token) (trailing : Option Token) :
    MemberSite.member? source ⟨line, t :: ts, trailing⟩ = none := by
  have hcomment : t.isComment = false := by
    rcases Bool.or_eq_true_iff.1 hlead with h | h <;> exact isComment_of_reads h
  have hsquare : t.reads "[" = false := by
    rcases Bool.or_eq_true_iff.1 hlead with h | h <;> exact reads_of_ne h (by decide)
  obtain ⟨us, hcode⟩ : ∃ us, MemberSite.code ⟨line, t :: ts, trailing⟩ = t :: us := by
    rw [MemberSite.code, List.filter_cons_of_pos (by rw [hcomment]; rfl)]
    cases ts.filter fun t => !t.isComment with
    | nil => exact ⟨[], by rw [withoutAttributes]⟩
    | cons u us => exact ⟨_, by rw [withoutAttributes, hsquare]; rfl⟩
  -- no name stands in front of a comma or of the braces of an initial value
  have hnone : (declarator? 0 (t :: us)).bind (fun parts => parts.1.getLast?) = none := by
    rcases Bool.or_eq_true_iff.1 hlead with h | h
    · simp [declarator?, h, reads_of_ne h]
    · have hopen : t.reads "\x7b" = true := h
      simp [declarator?, hopen, reads_of_ne hopen]
  rw [MemberSite.member?, hcode, Member.ofCode?_eq]
  cases hparts : declarator? 0 (t :: us) with
  | none => rfl
  | some parts =>
    rw [hparts, Option.bind_some] at hnone
    rw [Option.bind_some, hnone, Option.bind_none]

/-- A statement that starts with a comma or a brace has no member, and the members of the body are
those behind it. -/
theorem IsReading.membersOf_eq (h : IsReading false t front)
    (hlead : (t.reads "," || t.isOpen) = true) (source : List Char) (isPublic : Bool)
    (us : List Token) :
    membersOf source isPublic (t :: (front ++ us)) =
      membersOf source isPublic (Statement.read 0 false (some t) us).rest := by
  have hread := h.read us
  rw [membersOf, memberSites_cons h.isClose h.isComment h.semicolon (h.label us) hread,
    List.filterMap_append, rest_after]
  split
  · rw [tokens_after, List.cons_append, List.filterMap_cons_none (member?_of_lead hlead _ _ _ _)]
    rfl
  · rfl

/-- A statement ends where it does alone, when it is read as more of one without parentheses. -/
theorem membersOf_behind_statement {i : BodyItem} {code : List Token} {semicolon : Token}
    (hi : i.IsWellFormed) (hcode : i.code = .statement code semicolon) (source : List Char)
    (isPublic : Bool) (t : Token) (later : List Token) :
    membersOf source isPublic (Statement.read 0 false (some t) (i.tokens ++ later)).rest =
      membersOf source isPublic later := by
  obtain ⟨hform, hcomments⟩ := hi
  rw [hcode] at hform
  obtain ⟨-, hsemicolon, hnested, hsemi, hbrace⟩ := hform
  obtain ⟨kind, hread⟩ := read_statement hnested hsemicolon false hsemi (by simpa using hbrace)
    (some t)
  have htokens : i.tokens ++ later = code ++ semicolon :: (i.comments ++ later) := by
    simp [BodyItem.tokens, hcode, ItemCode.tokens]
  rw [htokens, hread, membersOf, memberSites_append_comments hcomments]
  rfl

/-! ### The members of a class with a constructor -/

/-- The definition starts with a token of code that is no semicolon. -/
theorem Constructor.exists_head_tokens {k : Constructor} (hk : k.IsWellFormed) :
    ∃ t ∈ k.tokens.head?, t.isComment = false ∧ t.reads ";" = false := by
  obtain ⟨hstart, -, hparen, hsemi, -⟩ := hk
  rw [Constructor.tokens]
  cases hhead : k.head with
  | nil => rw [hhead] at hparen; cases hparen
  | cons t head =>
    rw [hhead] at hstart hsemi
    exact ⟨t, rfl, (BodyItem.not_isComment_of_startsMember hstart).1, hsemi.head⟩

/-- **A constructor changes no member of its class when its last initializer is in parentheses, and
hides what stands behind it when that one is in braces.**  A definition is inserted at any place
that the walk over a body comes to.  In the first case the members are the same but for their lines.
In the second one the body of the constructor belongs to a statement that goes on into what stands
behind it; that statement gives no member, and the members are those in front of the place and those
behind the statement.  So a member whose declaration comes next is lost. -/
theorem members_behind_constructor {a more b : List Char} {n : Nat} {isPublic access : Bool}
    {sites : List MemberSite} {k : Constructor} (hcut : Cut a b) (hmore : Cut a (more ++ b))
    (hmore' : Cut more b)
    (hplace : WalksTo isPublic ((Token.ofText (a ++ b)).drop n) sites access
      ((Cursor.behind a).tokens b))
    (hbehind : (Cursor.behind a).tokens b ≠ [])
    (htokens : (Cursor.behind a).tokens more = k.tokens) (hk : k.IsWellFormed) :
    (k.last.isBraced = false →
      (bodyMembers (a ++ more ++ b) n isPublic).map Member.withoutLine =
        (bodyMembers (a ++ b) n isPublic).map Member.withoutLine) ∧
    (k.last.isBraced = true →
      ∀ rest, ((Cursor.behind a).past (lexemes more)).tokens b = rest →
      ∃ front t, (t.reads "," || t.isOpen) = true ∧
        (bodyMembers (a ++ b) n isPublic).map Member.withoutLine =
          (front ++ membersOf (a ++ more ++ b) access rest).map Member.withoutLine ∧
        bodyMembers (a ++ more ++ b) n isPublic =
          front ++ membersOf (a ++ more ++ b) access (Statement.read 0 false (some t) rest).rest ∧
        ∀ i : BodyItem, i.IsWellFormed → ∀ code semicolon, i.code = .statement code semicolon →
        ∀ later, (∀ t ∈ later.head?, t.isComment = false) → rest = i.tokens ++ later →
          membersOf (a ++ more ++ b) access rest =
            (if access then i.members (a ++ more ++ b) else []) ++
              membersOf (a ++ more ++ b) access later ∧
          bodyMembers (a ++ more ++ b) n isPublic =
            front ++ membersOf (a ++ more ++ b) access later) := by
  obtain ⟨front, hold, hnew⟩ := exists_bodyMembers_eq hcut hmore hmore' hplace hbehind
    (htokens ▸ Constructor.exists_head_tokens hk)
  rw [htokens] at hnew
  refine ⟨fun hlast => ?_, fun hlast rest hrest => ?_⟩
  · rw [hold, hnew, membersOf, membersOf, Constructor.memberSites_of_round hk hlast]
  · rw [hrest] at hold hnew
    obtain ⟨t, read, hlead, hreading, hsites⟩ := Constructor.exists_reading_of_braced hk hlast
    have hhidden : bodyMembers (a ++ more ++ b) n isPublic = front ++
        membersOf (a ++ more ++ b) access (Statement.read 0 false (some t) rest).rest := by
      rw [hnew, ← hreading.membersOf_eq hlead, membersOf, membersOf, hsites]
    refine ⟨front, t, hlead, hold, hhidden, fun i hi code semicolon hcode later hlater hitem => ?_⟩
    subst hitem
    have haccess : i.access? = none := by rw [BodyItem.access?, hcode]; rfl
    have hitem : membersOf (a ++ more ++ b) access (i.tokens ++ later) =
        (if access then i.members (a ++ more ++ b) else []) ++
          membersOf (a ++ more ++ b) access later := by
      rw [membersOf, BodyItem.memberSites_tokens_append hi access hlater, haccess,
        List.filterMap_append]
      cases access <;> rfl
    refine ⟨hitem, ?_⟩
    rw [hhidden, membersOf_behind_statement hi hcode]

/-- The text in front of a place in a struct. -/
def noteFront : List Char := "struct Note \x7b\n    int64_t id;\n    ".toList

/-- The text behind it. -/
def noteBehind : List Char := "int64_t owner;\n    int64_t parent;\n\x7d;\n".toList

/-- The text of a constructor. -/
def noteText : List Char := "Note(int64_t o) : owner\x7bo\x7d \x7b\x7d\n    ".toList

/-- A token on the line of that text. -/
def noteToken (kind : Token.Kind) (text : String) (column : Nat) (firstOnLine : Bool) : Token :=
  ⟨kind, text, 3, column, column + 29, column + 29 + text.length, firstOnLine⟩

/-- The constructor of that text. -/
def noteConstructor : Constructor where
  head := [noteToken .word "Note" 5 true, noteToken .mark "(" 9 false,
    noteToken .word "int64_t" 10 false, noteToken .word "o" 18 false, noteToken .mark ")" 19 false]
  colon := noteToken .mark ":" 21 false
  first := ⟨[noteToken .word "owner" 23 false], noteToken .mark "\x7b" 28 false,
    [noteToken .word "o" 29 false], noteToken .mark "\x7d" 30 false, []⟩
  others := []
  opening := noteToken .mark "\x7b" 32 false
  body := []
  closing := noteToken .mark "\x7d" 33 false

theorem noteConstructor_isWellFormed : noteConstructor.IsWellFormed := by decide +kernel

theorem tokens_noteText : (Cursor.behind noteFront).tokens noteText = noteConstructor.tokens := by
  have hfront : noteFront = _ := String.toList_ofList
  have htext : noteText = _ := String.toList_ofList
  rw [hfront, htext]
  decide +kernel

theorem cuts_note :
    Cut noteFront noteBehind ∧ Cut noteFront (noteText ++ noteBehind) ∧ Cut noteText noteBehind := by
  have hfront : noteFront = _ := String.toList_ofList
  have hbehind : noteBehind = _ := String.toList_ofList
  have htext : noteText = _ := String.toList_ofList
  rw [hfront, hbehind, htext]
  exact ⟨cut_of_lexemes (by decide +kernel), cut_of_lexemes (by decide +kernel),
    cut_of_lexemes (by decide +kernel)⟩

/-- The walk over the struct comes to the place behind its first member. -/
theorem walksTo_note : WalksTo true ((Token.ofText (noteFront ++ noteBehind)).drop 3)
    [⟨2, (Token.ofText noteFront).extract 3 5, none⟩] true
    ((Cursor.behind noteFront).tokens noteBehind) := by
  have hfront : noteFront = _ := String.toList_ofList
  have hbehind : noteBehind = _ := String.toList_ofList
  have htokens : (Token.ofText (noteFront ++ noteBehind)).drop 3 =
      ⟨.word, "int64_t", 2, 5, 18, 25, true⟩ :: ⟨.word, "id", 2, 13, 26, 28, false⟩ ::
        ⟨.mark, ";", 2, 15, 28, 29, false⟩ :: (Cursor.behind noteFront).tokens noteBehind := by
    rw [hfront, hbehind]
    decide +kernel
  have htrailing : trailing? ((Cursor.behind noteFront).tokens noteBehind) = none := by
    rw [hfront, hbehind]
    decide +kernel
  have hread : Statement.read 0 false none ((Token.ofText (noteFront ++ noteBehind)).drop 3) =
      ⟨.simple, (Token.ofText noteFront).extract 3 5,
        (Cursor.behind noteFront).tokens noteBehind⟩ := by
    rw [hfront, hbehind]
    decide +kernel
  have hhere : WalksTo true (((Cursor.behind noteFront).tokens noteBehind).drop 0) [] true
      ((Cursor.behind noteFront).tokens noteBehind) := .here
  rw [htokens] at hread ⊢
  have hwalk := WalksTo.statement (by decide) (by decide) (by decide) (by decide) hread (by decide)
    (by rw [htrailing]; exact hhere)
  rwa [htrailing] at hwalk

/-- With the constructor, the struct has its first and its last member. -/
theorem members_behind_constructor_note :
    noteConstructor.IsWellFormed ∧ noteConstructor.last.isBraced = true ∧
      (Cursor.behind noteFront).tokens noteText = noteConstructor.tokens ∧
      ∃ front t, (t.reads "," || t.isOpen) = true ∧
        (bodyMembers (noteFront ++ noteBehind) 3 true).map Member.withoutLine =
          (front ++ membersOf (noteFront ++ noteText ++ noteBehind) true
            (((Cursor.behind noteFront).past (lexemes noteText)).tokens noteBehind)).map
              Member.withoutLine ∧
        bodyMembers (noteFront ++ noteText ++ noteBehind) 3 true =
          front ++ membersOf (noteFront ++ noteText ++ noteBehind) true
            (Statement.read 0 false (some t)
              (((Cursor.behind noteFront).past (lexemes noteText)).tokens noteBehind)).rest := by
  have hlast : noteConstructor.last.isBraced = true := by decide +kernel
  obtain ⟨hcut, hcutFront, hcutText⟩ := cuts_note
  obtain ⟨front, t, hlead, hold, hnew, -⟩ :=
    (members_behind_constructor hcut hcutFront hcutText walksTo_note
      (by decide +kernel) tokens_noteText noteConstructor_isWellFormed).2 hlast _ rfl
  exact ⟨noteConstructor_isWellFormed, hlast, tokens_noteText, front, t, hlead, hold, hnew⟩

/-- The member behind the constructor is lost: the constructor has its form, it stands at a place
that the walk comes to, and yet it changes the members of the struct. -/
theorem exists_member_hidden_by_constructor :
    noteConstructor.IsWellFormed ∧
      (Cursor.behind noteFront).tokens noteText = noteConstructor.tokens ∧
      Cut noteFront noteBehind ∧ Cut noteFront (noteText ++ noteBehind) ∧
      Cut noteText noteBehind ∧
      (∃ sites, WalksTo true ((Token.ofText (noteFront ++ noteBehind)).drop 3) sites true
        ((Cursor.behind noteFront).tokens noteBehind)) ∧
      (bodyMembers (noteFront ++ noteBehind) 3 true).map Member.name = ["id", "owner", "parent"] ∧
      (bodyMembers (noteFront ++ noteText ++ noteBehind) 3 true).map Member.name =
        ["id", "parent"] ∧
      (bodyMembers (noteFront ++ noteText ++ noteBehind) 3 true).map Member.withoutLine ≠
        (bodyMembers (noteFront ++ noteBehind) 3 true).map Member.withoutLine := by
  have hfront : noteFront = _ := String.toList_ofList
  have hbehind : noteBehind = _ := String.toList_ofList
  have htext : noteText = _ := String.toList_ofList
  have hold : (bodyMembers (noteFront ++ noteBehind) 3 true).map Member.name =
      ["id", "owner", "parent"] := by
    rw [hfront, hbehind]
    decide +kernel
  have hnew : (bodyMembers (noteFront ++ noteText ++ noteBehind) 3 true).map Member.name =
      ["id", "parent"] := by
    rw [hfront, hbehind, htext]
    decide +kernel
  obtain ⟨hcut, hcutFront, hcutText⟩ := cuts_note
  refine ⟨noteConstructor_isWellFormed, tokens_noteText, hcut, hcutFront, hcutText,
    ⟨_, walksTo_note⟩, hold, hnew, fun hsame => ?_⟩
  have hnames := congrArg (List.map Member.name) hsame
  rw [List.map_map, List.map_map] at hnames
  exact absurd (hnew.symm.trans (hnames.trans hold)) (by decide)

end RowMapping
