import RowMapping.Token.Stream
/-!
# Heads of namespaces and classes

* `Scope`, `Scope.path`: the scopes around a place, and the namespace that they make;
* `namespaceHead`: the name of a namespace that is opened;
* `classHead?`: the name of a class that is defined.
-/

namespace RowMapping

/-- What an opening brace outside of class heads opens. -/
inductive Scope
  | named (name : String)
  | block
  deriving DecidableEq, Repr

/-- The name that a scope adds to the names in it. -/
def Scope.name? : Scope → Option String
  | named name => if name.isEmpty then none else some name
  | block => none

/-- The namespace that scopes make, the innermost of which comes first. -/
def Scope.path (scopes : List Scope) : String :=
  "::".intercalate (scopes.reverse.filterMap Scope.name?)

namespace Declaration

/-- Reads the name of a namespace after `name`, and gives it when a brace follows, with the tokens
after all that was read. -/
def namespaceHead (name : String) : List Token → Option String × List Token
  | [] => (none, [])
  | t :: ts =>
    if t.reads "\x7b" then (some name, ts)
    else if t.kind == .word || t.reads "::" then namespaceHead (name ++ t.text) ts
    else if t.isComment then namespaceHead name ts
    else (none, t :: ts)

theorem length_namespaceHead_le (name : String) (ts : List Token) :
    (namespaceHead name ts).2.length ≤ ts.length := by
  fun_induction namespaceHead name ts with
  | case1 => simp
  | case2 => simp
  | case3 _ _ _ _ _ ih => exact Nat.le_succ_of_le ih
  | case4 _ _ _ _ _ _ ih => exact Nat.le_succ_of_le ih
  | case5 => simp

/-- The tokens from the brace that opens the body of a class, inside of `depth` parentheses and
angle brackets of its head.  A semicolon, closing brace or equals sign ends the search. -/
def bodyOf? : Nat → List Token → Option (List Token)
  | _, [] => none
  | depth, t :: ts =>
    if t.reads "(" || t.reads "<" then bodyOf? (depth + 1) ts
    else if t.reads ")" || t.reads ">" then bodyOf? (depth - 1) ts
    else if depth = 0 && t.reads "\x7b" then some (t :: ts)
    else if depth = 0 && (t.reads ";" || t.reads "\x7d" || t.reads "=") then none
    else bodyOf? depth ts

theorem length_bodyOf?_le {depth : Nat} {ts body : List Token} (h : bodyOf? depth ts = some body) :
    body.length ≤ ts.length := by
  fun_induction bodyOf? depth ts with
  | case1 => simp at h
  | case2 _ _ _ _ ih => exact Nat.le_succ_of_le (ih h)
  | case3 _ _ _ _ _ ih => exact Nat.le_succ_of_le (ih h)
  | case4 => simp_all
  | case5 => simp at h
  | case6 _ _ _ _ _ _ _ ih => exact Nat.le_succ_of_le (ih h)

/-- The tokens before a class keyword that make it something else than a definition: an
enumeration, a template parameter, a friend. -/
def forbidsClass (t : Token) : Bool :=
  t.reads "enum" || t.reads "<" || t.reads "," || t.reads "friend"

/-- The name token of a class that is defined by the tokens after its keyword, and the tokens from
its opening brace on; `before` is the token of code before the keyword. -/
def classHead? (before : Option Token) : List Token → Option (Token × List Token)
  | [] => none
  | name :: ts =>
    if (before.map forbidsClass).getD false || name.kind != .word ||
        (ts.head?.map (·.reads "::")).getD false then none
    else (bodyOf? 0 ts).map fun body => (name, body)

theorem length_classHead?_lt {before : Option Token} {ts body : List Token} {name : Token}
    (h : classHead? before ts = some (name, body)) : body.length < ts.length := by
  unfold classHead? at h
  split at h
  · simp at h
  · split at h
    · simp at h
    · obtain ⟨b, hb, heq⟩ := Option.map_eq_some_iff.1 h
      simp only [Prod.mk.injEq] at heq
      obtain ⟨rfl, rfl⟩ := heq
      exact Nat.lt_succ_of_le (length_bodyOf?_le hb)

end Declaration

end RowMapping
