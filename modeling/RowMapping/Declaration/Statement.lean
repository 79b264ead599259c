import RowMapping.Token.Stream
/-!
# Statements of a class body

A class body is read statement by statement.  The end of the tokens ends every statement.

* `closing`: the tokens up to the brace that closes a group;
* `Statement.read`: one statement, and the tokens after it.

Main statement: `Statement.length_read`, a statement that does not start at a closing brace takes
at least one token.
-/

namespace RowMapping

namespace Token

/-- An opening brace. -/
def isOpen (t : Token) : Bool := t.reads "\x7b"

/-- A closing brace. -/
def isClose (t : Token) : Bool := t.reads "\x7d"

end Token

/-- The tokens up to the brace that closes `depth` open ones, that brace included, and the tokens
after it. -/
def closing : Nat → List Token → List Token × List Token
  | _, [] => ([], [])
  | depth, t :: ts =>
    if t.isClose && depth ≤ 1 then ([t], ts)
    else
      let deeper := if t.isOpen then depth + 1 else if t.isClose then depth - 1 else depth
      (t :: (closing deeper ts).1, (closing deeper ts).2)

theorem closing_append (depth : Nat) (ts : List Token) :
    (closing depth ts).1 ++ (closing depth ts).2 = ts := by
  induction ts generalizing depth with
  | nil => rfl
  | cons t ts ih =>
    simp only [closing]
    split
    · rfl
    · rw [List.cons_append, ih]

theorem length_closing_le (depth : Nat) (ts : List Token) :
    (closing depth ts).2.length ≤ ts.length := by
  have h := congrArg List.length (closing_append depth ts)
  rw [List.length_append] at h
  omega

namespace Statement

/-- How a statement ends: at its semicolon, with the body of a function, after the definition of a
type, or at the end of the body that holds it. -/
inductive Kind
  | simple
  | function
  | nestedType
  | incomplete
  deriving DecidableEq, Repr

end Statement

/-- A statement: how it ends, its tokens without the semicolon, and the tokens after it. -/
structure Statement where
  kind : Statement.Kind
  tokens : List Token
  rest : List Token
  deriving DecidableEq, Repr

namespace Statement

/-- The statement with more tokens in front. -/
def after (front : List Token) (s : Statement) : Statement :=
  { s with tokens := front ++ s.tokens }

@[simp] theorem kind_after (front : List Token) (s : Statement) : (after front s).kind = s.kind :=
  rfl

@[simp] theorem tokens_after (front : List Token) (s : Statement) :
    (after front s).tokens = front ++ s.tokens := rfl

@[simp] theorem rest_after (front : List Token) (s : Statement) : (after front s).rest = s.rest :=
  rfl

/-- The statement that defines a type, when `s` is what follows its body. -/
def nested (s : Statement) : Statement :=
  { s with kind := if s.kind = .incomplete then .incomplete else .nestedType }

@[simp] theorem tokens_nested (s : Statement) : s.nested.tokens = s.tokens := rfl

@[simp] theorem rest_nested (s : Statement) : s.nested.rest = s.rest := rfl

/-- The keywords that start the definition of a type. -/
def definesType (t : Token) : Bool :=
  t.reads "struct" || t.reads "class" || t.reads "union" || t.reads "enum"

/-- The first token of code among the one found so far and the next one. -/
def leader (found : Option Token) (t : Token) : Option Token :=
  if found.isSome || t.isComment then found else some t

/-- The tokens without a semicolon in front. -/
def skipSemicolon : List Token → List Token
  | [] => []
  | t :: ts => if t.reads ";" then ts else t :: ts

/-- Reads on in a statement, inside of `depth` parentheses and brackets, where `params` tells
whether there was a parenthesis and `found` is the first token of code so far.  A group of braces
ends a function, belongs to the definition of a type, or initializes a member. -/
def read (depth : Nat) (params : Bool) (found : Option Token) : List Token → Statement
  | [] => ⟨.incomplete, [], []⟩
  | t :: ts =>
    if t.reads "(" then after [t] (read (depth + 1) true (leader found t) ts)
    else if t.reads "[" then after [t] (read (depth + 1) params (leader found t) ts)
    else if t.reads ")" || t.reads "]" then
      after [t] (read (depth - 1) params (leader found t) ts)
    else if depth = 0 && t.reads ";" then ⟨.simple, [], ts⟩
    else if depth = 0 && t.isClose then ⟨.incomplete, [], t :: ts⟩
    else if depth = 0 && t.isOpen then
      if params then ⟨.function, t :: (closing 1 ts).1, skipSemicolon (closing 1 ts).2⟩
      else if ((leader found t).map definesType).getD false then
        after (t :: (closing 1 ts).1) (read 0 false none (closing 1 ts).2).nested
      else after (t :: (closing 1 ts).1) (read 0 params (leader found t) (closing 1 ts).2)
    else after [t] (read depth params (leader found t) ts)
termination_by ts => ts.length
decreasing_by
  all_goals
    have := length_closing_le 1 ts
    simp only [List.length_cons]
    omega

theorem length_skipSemicolon_le (ts : List Token) : (skipSemicolon ts).length ≤ ts.length := by
  cases ts with
  | nil => simp [skipSemicolon]
  | cons t ts =>
    simp only [skipSemicolon]
    split <;> simp

/-- A statement takes tokens from the front, at least one unless it starts at a closing brace. -/
theorem length_read (depth : Nat) (params : Bool) (found : Option Token) (ts : List Token) :
    (read depth params found ts).rest.length ≤ ts.length ∧
      ∀ t ∈ ts.head?, t.isClose = false →
        (read depth params found ts).rest.length < ts.length := by
  fun_induction read depth params found ts with
  | case1 => simp
  | case6 => simp_all
  | case7 _ _ _ ts =>
    have h := length_skipSemicolon_le (closing 1 ts).2
    have h' := length_closing_le 1 ts
    simp only [List.length_cons]
    exact ⟨by omega, fun _ _ _ => by omega⟩
  | case8 _ _ _ _ ts =>
    rename_i ih
    have h := length_closing_le 1 ts
    have h' := ih.1
    simp only [rest_after, rest_nested, List.length_cons]
    exact ⟨by omega, fun _ _ _ => by omega⟩
  | case9 _ _ _ _ ts =>
    rename_i ih
    have h := length_closing_le 1 ts
    have h' := ih.1
    simp only [rest_after, List.length_cons]
    exact ⟨by omega, fun _ _ _ => by omega⟩
  | _ =>
    simp only [rest_after, List.length_cons]
    exact ⟨by omega, fun _ _ _ => by omega⟩

end Statement

end RowMapping
