import Mathlib.Tactic.SplitIfs
import RowMapping.Declaration.Body
/-!
# Nested brackets

Reading statements counts parentheses and brackets and jumps over groups of braces.  Where all
brackets are nested, the counting is right: a group is passed as a whole, and a statement never
reaches beyond the brace that closes the body around it.

* `Bracket`, `Nested`: tokens in which every bracket is closed by one of its kind;
* `nestedWithin`: the same, computed with a stack of open brackets;
* `AtTopLevel`: a property of the tokens outside of all groups;
* `closing_append_of_nested`, `read_append_of_nested`: a group is passed as a whole;
* `read_append_close`: a statement ends before the brace that closes the body.
-/

namespace RowMapping

/-- The three kinds of brackets. -/
inductive Bracket
  | round
  | square
  | curly
  deriving DecidableEq, Repr

namespace Bracket

/-- The text of the opening bracket. -/
def opening : Bracket → String
  | round => "("
  | square => "["
  | curly => "\x7b"

/-- The text of the closing bracket. -/
def closing : Bracket → String
  | round => ")"
  | square => "]"
  | curly => "\x7d"

/-- All kinds. -/
def all : List Bracket := [round, square, curly]

theorem mem_all (b : Bracket) : b ∈ all := by
  cases b <;> decide

theorem opening_inj {a b : Bracket} (h : a.opening = b.opening) : a = b := by
  cases a <;> cases b <;> first | rfl | exact absurd h (by decide)

theorem closing_inj {a b : Bracket} (h : a.closing = b.closing) : a = b := by
  cases a <;> cases b <;> first | rfl | exact absurd h (by decide)

theorem opening_ne_closing (a b : Bracket) : a.opening ≠ b.closing := by
  cases a <;> cases b <;> decide

end Bracket

namespace Token

/-- The bracket that a token opens. -/
def opens? (t : Token) : Option Bracket := Bracket.all.find? fun b => t.reads b.opening

/-- The bracket that a token closes. -/
def closes? (t : Token) : Option Bracket := Bracket.all.find? fun b => t.reads b.closing

variable {t : Token} {a b : String} {k : Bracket}

/-- A token reads one text only. -/
theorem reads_inj (ha : t.reads a = true) (hb : t.reads b = true) : a = b := by
  simp only [reads, Bool.and_eq_true, beq_iff_eq] at ha hb
  exact ha.2.symm.trans hb.2

theorem reads_of_ne (h : t.reads a = true) (hne : a ≠ b) : t.reads b = false :=
  Bool.eq_false_iff.2 fun hb => hne (reads_inj h hb)

theorem isComment_of_reads (h : t.reads a = true) : t.isComment = false := by
  simp only [reads, Bool.and_eq_true] at h
  simpa [isComment] using h.1

theorem reads_of_isComment (h : t.isComment = true) : t.reads a = false :=
  Bool.eq_false_iff.2 fun ha => by rw [isComment_of_reads ha] at h; cases h

theorem reads_of_opens? (h : t.opens? = some k) : t.reads k.opening = true := by
  have hk := List.find?_some h
  exact hk

theorem reads_of_closes? (h : t.closes? = some k) : t.reads k.closing = true := by
  have hk := List.find?_some h
  exact hk

theorem reads_opening_eq_false (h : t.opens? = none) (k : Bracket) : t.reads k.opening = false :=
  Bool.eq_false_iff.2 (List.find?_eq_none.1 h k (Bracket.mem_all k))

theorem reads_closing_eq_false (h : t.closes? = none) (k : Bracket) : t.reads k.closing = false :=
  Bool.eq_false_iff.2 (List.find?_eq_none.1 h k (Bracket.mem_all k))

theorem opens?_eq_some_iff : t.opens? = some k ↔ t.reads k.opening = true := by
  refine ⟨reads_of_opens?, fun h => ?_⟩
  cases hopen : t.opens? with
  | none => rw [reads_opening_eq_false hopen k] at h; cases h
  | some b => rw [Bracket.opening_inj (reads_inj h (reads_of_opens? hopen))]

theorem closes?_eq_some_iff : t.closes? = some k ↔ t.reads k.closing = true := by
  refine ⟨reads_of_closes?, fun h => ?_⟩
  cases hclose : t.closes? with
  | none => rw [reads_closing_eq_false hclose k] at h; cases h
  | some b => rw [Bracket.closing_inj (reads_inj h (reads_of_closes? hclose))]

theorem opens?_eq_none_of_reads (h : t.reads a = true) (hne : ∀ k : Bracket, k.opening ≠ a) :
    t.opens? = none := by
  cases hopen : t.opens? with
  | none => rfl
  | some k => exact absurd (reads_inj (reads_of_opens? hopen) h) (hne k)

theorem closes?_of_opens? (h : t.opens? = some k) : t.closes? = none := by
  cases hclose : t.closes? with
  | none => rfl
  | some b =>
    exact absurd (reads_inj (reads_of_opens? h) (reads_of_closes? hclose))
      (Bracket.opening_ne_closing k b)

theorem opens?_of_closes? (h : t.closes? = some k) : t.opens? = none := by
  cases hopen : t.opens? with
  | none => rfl
  | some b => rw [closes?_of_opens? hopen] at h; cases h

theorem opens?_of_isComment (h : t.isComment = true) : t.opens? = none :=
  List.find?_eq_none.2 fun b _ => by simp [reads_of_isComment h]

theorem closes?_of_isComment (h : t.isComment = true) : t.closes? = none :=
  List.find?_eq_none.2 fun b _ => by simp [reads_of_isComment h]

end Token

open Token

/-- Every bracket is closed by one of its kind, and groups lie inside of each other. -/
inductive Nested : List Token → Prop
  | nil : Nested []
  | plain {t : Token} {ts : List Token} (hopen : t.opens? = none) (hclose : t.closes? = none)
      (hts : Nested ts) : Nested (t :: ts)
  | group {o c : Token} {inner ts : List Token} (b : Bracket) (hopen : o.opens? = some b)
      (hinner : Nested inner) (hclose : c.closes? = some b) (hts : Nested ts) :
      Nested (o :: (inner ++ c :: ts))

/-- The tokens close these open brackets, the innermost of which comes first, and nest all others. -/
def nestedWithin : List Bracket → List Token → Bool
  | stack, [] => stack.isEmpty
  | stack, t :: ts =>
    if let some b := t.opens? then nestedWithin (b :: stack) ts
    else if let some b := t.closes? then stack.head? = some b && nestedWithin stack.tail ts
    else nestedWithin stack ts

namespace Nested

variable {a b ts : List Token} {t o c : Token} {k : Bracket}

theorem append (ha : Nested a) (hb : Nested b) : Nested (a ++ b) := by
  induction ha with
  | nil => exact hb
  | plain hopen hclose _ ih => exact .plain hopen hclose ih
  | group k hopen hinner hclose _ _ ih =>
    rw [List.cons_append, List.append_assoc, List.cons_append]
    exact .group k hopen hinner hclose ih

/-- Behind a token that is no bracket, the rest is nested. -/
theorem of_cons (h : Nested (t :: ts)) (hopen : t.opens? = none) : Nested ts := by
  cases h with
  | plain _ _ hts => exact hts
  | group b ho => rw [hopen] at ho; cases ho

/-- Nested tokens do not start by closing a bracket. -/
theorem closes?_head (h : Nested (t :: ts)) : t.closes? = none := by
  cases h with
  | plain _ hclose _ => exact hclose
  | group b ho => exact closes?_of_opens? ho

end Nested

/-! ### Nesting can be computed -/

/-- The tokens are nested up to the bracket that closes the innermost open one, and so on. -/
def ClosesAll : List Bracket → List Token → Prop
  | [], ts => Nested ts
  | b :: stack, ts => ∃ inner c rest, ts = inner ++ c :: rest ∧ Nested inner ∧
      c.closes? = some b ∧ ClosesAll stack rest

theorem ClosesAll.append {stack : List Bracket} {a ts : List Token} (ha : Nested a)
    (h : ClosesAll stack ts) : ClosesAll stack (a ++ ts) := by
  cases stack with
  | nil => exact ha.append h
  | cons b stack =>
    obtain ⟨inner, c, rest, rfl, hinner, hc, hrest⟩ := h
    exact ⟨a ++ inner, c, rest, by rw [List.append_assoc], ha.append hinner, hc, hrest⟩

theorem closesAll_of_nestedWithin {stack : List Bracket} {ts : List Token}
    (h : nestedWithin stack ts = true) : ClosesAll stack ts := by
  fun_induction nestedWithin stack ts with
  | case1 stack =>
    rw [List.isEmpty_iff] at h
    subst h
    exact Nested.nil
  | case2 stack t ts b hopen ih =>
    obtain ⟨inner, c, rest, rfl, hinner, hc, hrest⟩ := ih h
    have hgroup : Nested (t :: (inner ++ [c])) := .group b hopen hinner hc .nil
    simpa using hrest.append hgroup
  | case3 stack t ts b hclose _ ih =>
    rw [Bool.and_eq_true, decide_eq_true_iff] at h
    obtain ⟨hhead, h⟩ := h
    cases stack with
    | nil => cases hhead
    | cons b' stack =>
      cases hhead
      exact ⟨[], t, ts, rfl, .nil, hclose, ih h⟩
  | case4 stack t ts hopen hclose ih =>
    exact (ih h).append (.plain (Option.eq_none_iff_forall_ne_some.2 hopen)
      (Option.eq_none_iff_forall_ne_some.2 hclose) .nil)

theorem nestedWithin_append {a : List Token} (h : Nested a) (stack : List Bracket)
    (ts : List Token) : nestedWithin stack (a ++ ts) = nestedWithin stack ts := by
  induction h generalizing stack ts with
  | nil => rfl
  | plain hopen hclose _ ih =>
    rw [List.cons_append, nestedWithin]
    simp only [hopen, hclose, ih]
  | group b hopen _ hclose _ ihinner ih =>
    rw [List.cons_append, List.append_assoc, List.cons_append, nestedWithin]
    simp only [hopen, ihinner]
    rw [nestedWithin]
    simp [opens?_of_closes? hclose, hclose, ih]

theorem nestedWithin_iff {ts : List Token} : nestedWithin [] ts = true ↔ Nested ts := by
  constructor
  · exact closesAll_of_nestedWithin
  · intro h
    rw [← List.append_nil ts, nestedWithin_append h]
    rfl

instance (ts : List Token) : Decidable (Nested ts) := decidable_of_iff _ nestedWithin_iff

/-! ### Outside of all groups -/

/-- All tokens outside of all groups have a property, together with the tokens before them. -/
def AtTopLevel (p : List Token → Token → Prop) (ts : List Token) : Prop :=
  ∀ a t b, ts = a ++ t :: b → Nested a → p a t

instance (p : List Token → Token → Prop) [∀ a t, Decidable (p a t)] (ts : List Token) :
    Decidable (AtTopLevel p ts) :=
  decidable_of_iff (∀ i : Fin ts.length, Nested (ts.take i) → p (ts.take i) ts[i]) <| by
    constructor
    · rintro h a t b rfl ha
      have hi : a.length < (a ++ t :: b).length := by simp
      simpa using h ⟨a.length, hi⟩ (by simpa using ha)
    · intro h i
      exact h (ts.take i) ts[i] (ts.drop (i + 1)) (by simp)

section

variable {p : List Token → Token → Prop} {ts inner : List Token} {t o c : Token} {b : Bracket}

theorem AtTopLevel.head (h : AtTopLevel p (t :: ts)) : p [] t := h [] t ts rfl .nil

theorem AtTopLevel.of_plain (h : AtTopLevel p (t :: ts)) (hopen : t.opens? = none)
    (hclose : t.closes? = none) : AtTopLevel (fun a => p (t :: a)) ts := by
  rintro a u d rfl ha
  exact h (t :: a) u d rfl (.plain hopen hclose ha)

theorem AtTopLevel.of_group (h : AtTopLevel p (o :: (inner ++ c :: ts))) (hopen : o.opens? = some b)
    (hinner : Nested inner) (hclose : c.closes? = some b) :
    AtTopLevel (fun a => p (o :: (inner ++ c :: a))) ts := by
  rintro a u d rfl ha
  exact h (o :: (inner ++ c :: a)) u d (by simp) (.group b hopen hinner hclose ha)

theorem AtTopLevel.mono {q : List Token → Token → Prop} (h : AtTopLevel p ts)
    (hpq : ∀ a t, p a t → q a t) : AtTopLevel q ts :=
  fun a t b hts ha => hpq a t (h a t b hts ha)

end

/-! ### Groups are passed as a whole -/

section

variable {ts inner rest : List Token} {t o c : Token} {b : Bracket}

theorem isOpen_eq (t : Token) : t.isOpen = (t.opens? == some .curly) := by
  rw [Bool.eq_iff_iff, beq_iff_eq, opens?_eq_some_iff]
  exact Iff.rfl

theorem isClose_eq (t : Token) : t.isClose = (t.closes? == some .curly) := by
  rw [Bool.eq_iff_iff, beq_iff_eq, closes?_eq_some_iff]
  exact Iff.rfl

theorem isComment_head_close (hc : c.isClose = true) (rest : List Token) :
    ∀ t ∈ (c :: rest).head?, t.isComment = false := by
  rintro _ ⟨⟩
  exact isComment_of_reads hc

/-- Looking for a closing brace passes over nested tokens. -/
theorem closing_append_of_nested (h : Nested ts) (depth : Nat) (rest : List Token) :
    closing (depth + 1) (ts ++ rest) =
      (ts ++ (closing (depth + 1) rest).1, (closing (depth + 1) rest).2) := by
  induction h generalizing depth rest with
  | nil => rfl
  | plain hopen hclose _ ih => simp [closing, isOpen_eq, isClose_eq, hopen, hclose, ih]
  | group b hopen _ hclose _ ihinner ih =>
    rw [List.cons_append, List.append_assoc, List.cons_append]
    cases b <;>
      simp [closing, isOpen_eq, isClose_eq, hopen, hclose, closes?_of_opens? hopen,
        opens?_of_closes? hclose, ihinner, ih]

/-- The brace that closes a group is the one behind its nested tokens. -/
theorem closing_group (h : Nested inner) (hc : c.isClose = true) (rest : List Token) :
    closing 1 (inner ++ c :: rest) = (inner ++ [c], rest) := by
  have hlast : closing 1 (c :: rest) = ([c], rest) := by simp [closing, hc]
  rw [closing_append_of_nested h 0, hlast]

end

namespace Statement

variable {ts inner rest : List Token} {t o c : Token} {b : Bracket} {params : Bool}
  {found : Option Token}

theorem after_after (a b : List Token) (s : Statement) :
    after a (after b s) = after (a ++ b) s := by
  simp [after]

/-- The first token of code among the one found so far and these. -/
def leaderAmong (found : Option Token) (ts : List Token) : Option Token := ts.foldl leader found

/-- A parenthesis is opened somewhere. -/
def hasParen (ts : List Token) : Bool := ts.any fun t => t.reads "("

@[simp] theorem leader_some (u t : Token) : leader (some u) t = some u := rfl

@[simp] theorem leaderAmong_some (u : Token) (ts : List Token) :
    leaderAmong (some u) ts = some u := by
  induction ts with
  | nil => rfl
  | cons t ts ih => exact ih

theorem leader_of_reads {text : String} (h : t.reads text = true) :
    leader found t = some (found.getD t) := by
  cases found with
  | none => simp [leader, isComment_of_reads h]
  | some u => rfl

/-! ### One token -/

theorem read_plain (depth : Nat) (params : Bool) (found : Option Token) (rest : List Token)
    (hopen : t.opens? = none) (hclose : t.closes? = none)
    (hsemi : depth = 0 → t.reads ";" = false) :
    read depth params found (t :: rest) =
      after [t] (read depth params (leader found t) rest) := by
  have hround : t.reads "(" = false ∧ t.reads ")" = false :=
    ⟨reads_opening_eq_false hopen .round, reads_closing_eq_false hclose .round⟩
  have hsquare : t.reads "[" = false ∧ t.reads "]" = false :=
    ⟨reads_opening_eq_false hopen .square, reads_closing_eq_false hclose .square⟩
  rw [read]
  by_cases hd : depth = 0
  · simp [hround, hsquare, hsemi hd, isOpen_eq, isClose_eq, hopen, hclose]
  · simp [hround, hsquare, hd]

theorem read_open (depth : Nat) (params : Bool) (found : Option Token) (rest : List Token)
    (hopen : o.opens? = some b) (hb : b ≠ .curly) :
    read depth params found (o :: rest) =
      after [o] (read (depth + 1) (params || o.reads "(") (some (found.getD o)) rest) := by
  have ho := reads_of_opens? hopen
  rw [read, leader_of_reads ho]
  cases b with
  | round =>
    simp only [Bracket.opening] at ho
    simp [ho]
  | square =>
    simp only [Bracket.opening] at ho
    simp [reads_of_ne ho, ho]
  | curly => exact absurd rfl hb

theorem read_close (depth : Nat) (params : Bool) (u : Token) (rest : List Token)
    (hclose : c.closes? = some b) (hb : b ≠ .curly) :
    read (depth + 1) params (some u) (c :: rest) =
      after [c] (read depth params (some u) rest) := by
  have hc := reads_of_closes? hclose
  rw [read]
  cases b with
  | round =>
    simp only [Bracket.closing] at hc
    simp [reads_of_ne hc, hc]
  | square =>
    simp only [Bracket.closing] at hc
    simp [reads_of_ne hc, hc]
  | curly => exact absurd rfl hb

/-- Inside of parentheses, braces are like any other token. -/
theorem read_brace (depth : Nat) (params : Bool) (found : Option Token) (rest : List Token)
    (h : t.opens? = some .curly ∨ t.closes? = some .curly) :
    read (depth + 1) params found (t :: rest) =
      after [t] (read (depth + 1) params (leader found t) rest) := by
  have ht : t.reads "(" = false ∧ t.reads "[" = false ∧ t.reads ")" = false ∧
      t.reads "]" = false := by
    rcases h with h | h
    · have ht := reads_of_opens? h
      simp only [Bracket.opening] at ht
      simp [reads_of_ne ht]
    · have ht := reads_of_closes? h
      simp only [Bracket.closing] at ht
      simp [reads_of_ne ht]
  rw [read]
  simp [ht]

/-! ### Groups -/

theorem hasParen_append (a b : List Token) : hasParen (a ++ b) = (hasParen a || hasParen b) :=
  List.any_append

theorem hasParen_cons_of_none (hopen : t.opens? = none) (ts : List Token) :
    hasParen (t :: ts) = hasParen ts := by
  have ht := reads_opening_eq_false hopen .round
  simp only [Bracket.opening] at ht
  simp [hasParen, ht]

theorem hasParen_group (hclose : c.closes? = some b) (o : Token) (inner ts : List Token) :
    hasParen (o :: (inner ++ c :: ts)) = (hasParen (o :: inner) || hasParen ts) := by
  rw [← hasParen_cons_of_none (opens?_of_closes? hclose) ts, ← hasParen_append]
  rfl

theorem leaderAmong_cons_of_opens? (hopen : o.opens? = some b) (ts : List Token) :
    leaderAmong found (o :: ts) = some (found.getD o) := by
  rw [leaderAmong, List.foldl_cons, leader_of_reads (reads_of_opens? hopen)]
  exact leaderAmong_some _ _

/-- Inside of parentheses, nested tokens are passed over. -/
theorem read_append_of_nested (h : Nested ts) (depth : Nat) (params : Bool) (found : Option Token)
    (rest : List Token) :
    read (depth + 1) params found (ts ++ rest) =
      after ts (read (depth + 1) (params || hasParen ts) (leaderAmong found ts) rest) := by
  induction h generalizing depth params found rest with
  | nil => simp [hasParen, leaderAmong, after]
  | @plain t ts hopen hclose _ ih =>
    rw [List.cons_append, read_plain _ _ _ _ hopen hclose (by omega), ih, after_after,
      hasParen_cons_of_none hopen]
    rfl
  | @group o c inner ts b hopen _ hclose _ ihinner ih =>
    rw [List.cons_append, List.append_assoc, List.cons_append, leaderAmong_cons_of_opens? hopen,
      hasParen_group hclose]
    by_cases hb : b = .curly
    · subst hb
      have ho : o.reads "(" = false := reads_of_ne (reads_of_opens? hopen) (by decide)
      rw [read_brace _ _ _ _ (.inl hopen), leader_of_reads (reads_of_opens? hopen), ihinner,
        leaderAmong_some, read_brace _ _ _ _ (.inr hclose), leader_some, ih, leaderAmong_some]
      simp [after_after, hasParen, ho, Bool.or_assoc]
    · rw [read_open _ _ _ _ hopen hb, ihinner, leaderAmong_some, read_close _ _ _ _ hclose hb, ih,
        leaderAmong_some]
      simp [after_after, hasParen, Bool.or_assoc]

/-- Outside of parentheses, a group in parentheses or brackets is passed over. -/
theorem read_group (hopen : o.opens? = some b) (hb : b ≠ .curly) (h : Nested inner)
    (hclose : c.closes? = some b) (params : Bool) (found : Option Token) (rest : List Token) :
    read 0 params found (o :: (inner ++ c :: rest)) =
      after (o :: (inner ++ [c]))
        (read 0 (params || hasParen (o :: inner)) (some (found.getD o)) rest) := by
  rw [read_open _ _ _ _ hopen hb, read_append_of_nested h, leaderAmong_some,
    read_close _ _ _ _ hclose hb, after_after, after_after, Bool.or_assoc]
  rfl

/-- A group of braces ends a function, belongs to the definition of a type, or initializes a
member. -/
theorem read_braces (hopen : o.opens? = some .curly) (h : Nested inner)
    (hclose : c.closes? = some .curly) (params : Bool) (found : Option Token) (rest : List Token) :
    read 0 params found (o :: (inner ++ c :: rest)) =
      if params then ⟨.function, o :: (inner ++ [c]), skipSemicolon rest⟩
      else if definesType (found.getD o) then
        after (o :: (inner ++ [c])) (read 0 false none rest).nested
      else after (o :: (inner ++ [c])) (read 0 params (some (found.getD o)) rest) := by
  have ho := reads_of_opens? hopen
  simp only [Bracket.opening] at ho
  have hc : c.isClose = true := by rw [isClose_eq, hclose]; rfl
  rw [read, leader_of_reads ho]
  simp [reads_of_ne ho, isClose, isOpen, ho, closing_group h hc]

/-! ### Whole statements -/

/-- A statement with more tokens behind it. -/
def extend (more : List Token) (s : Statement) : Statement := { s with rest := s.rest ++ more }

theorem extend_after (a more : List Token) (s : Statement) :
    extend more (after a s) = after a (extend more s) := rfl

theorem extend_nested (more : List Token) (s : Statement) :
    extend more s.nested = (extend more s).nested := rfl

theorem skipSemicolon_append_close (hc : c.isClose = true) (ts rest : List Token) :
    skipSemicolon (ts ++ c :: rest) = skipSemicolon ts ++ c :: rest := by
  cases ts with
  | nil => exact if_neg (by simp [reads_of_ne hc])
  | cons t ts =>
    simp only [List.cons_append, skipSemicolon]
    split <;> rfl

theorem nested_skipSemicolon (h : Nested ts) : Nested (skipSemicolon ts) := by
  cases h with
  | nil => exact .nil
  | plain hopen hclose hts =>
    simp only [skipSemicolon]
    split
    · exact hts
    · exact .plain hopen hclose hts
  | group b hopen hinner hclose hts =>
    have ho : Token.reads _ ";" = false :=
      reads_of_ne (reads_of_opens? hopen) (by cases b <;> decide)
    simp only [skipSemicolon, ho]
    exact .group b hopen hinner hclose hts

/-- **A statement ends before the brace that closes the body.**  It is the statement that is read
when the body ends there, and the tokens behind it are nested again. -/
theorem read_append_close (h : Nested ts) (hc : c.isClose = true) (params : Bool)
    (found : Option Token) (rest : List Token) :
    read 0 params found (ts ++ c :: rest) = extend (c :: rest) (read 0 params found ts) ∧
      Nested (read 0 params found ts).rest := by
  induction h generalizing params found with
  | nil =>
    refine ⟨?_, by rw [read]; exact .nil⟩
    have hreads : c.reads "\x7d" = true := hc
    rw [List.nil_append, read, read]
    simp [reads_of_ne hreads, hc, extend]
  | @plain t ts hopen hclose hts ih =>
    by_cases hsemi : t.reads ";" = true
    · -- the statement ends here, whatever is behind it
      have hread : ∀ ts, read 0 params found (t :: ts) = ⟨.simple, [], ts⟩ := fun ts => by
        rw [read]
        simp [reads_of_ne hsemi, hsemi]
      rw [List.cons_append, hread, hread]
      exact ⟨rfl, hts⟩
    · rw [List.cons_append, read_plain _ _ _ _ hopen hclose (by simpa using hsemi),
        read_plain _ _ _ _ hopen hclose (by simpa using hsemi), extend_after, (ih _ _).1]
      exact ⟨rfl, (ih _ _).2⟩
  | @group o c' inner ts b hopen hinner hclose hts _ ih =>
    rw [List.cons_append, List.append_assoc, List.cons_append]
    by_cases hb : b = .curly
    · subst hb
      rw [read_braces hopen hinner hclose, read_braces hopen hinner hclose]
      -- the braces are the body of a function, of a nested type, or part of the statement
      split_ifs
      · rw [skipSemicolon_append_close hc]
        exact ⟨rfl, nested_skipSemicolon hts⟩
      · rw [extend_after, extend_nested, (ih _ _).1]
        exact ⟨rfl, (ih _ _).2⟩
      · rw [extend_after, (ih _ _).1]
        exact ⟨rfl, (ih _ _).2⟩
    · rw [read_group hopen hb hinner hclose, read_group hopen hb hinner hclose, extend_after,
        (ih _ _).1]
      exact ⟨rfl, (ih _ _).2⟩

end Statement

end RowMapping
