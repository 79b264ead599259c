import RowMapping.Declaration.Declarator
import RowMapping.Declaration.Statement
/-!
# Bodies of classes

The body of a class is a list of statements, access labels and comments.  Only the statements that
are public and end at a semicolon can declare data members.

* `MemberSite`: such a statement and the comment behind it;
* `memberSites`: those of a body;
* `MemberSite.member?`, `MemberSite.notices`: what a statement declares, and what is left out.
-/

namespace RowMapping

/-- A public statement that ends at a semicolon: its line, its tokens, and the comment on the line
of its end. -/
structure MemberSite where
  line : Nat
  tokens : List Token
  trailing : Option Token
  deriving DecidableEq, Repr

namespace MemberSite

/-- The code of the statement, without comments and attributes. -/
def code (s : MemberSite) : List Token :=
  Declaration.withoutAttributes (s.tokens.filter fun t => !t.isComment)

/-- The member that the statement declares. -/
def member? (source : List Char) (s : MemberSite) : Option Member :=
  Member.ofCode? source s.code s.trailing

/-- What is left out of the statement: all of it, or some of the tags behind it. -/
def notices (source : List Char) (s : MemberSite) : List Notice :=
  match s.member? source with
  | none => [.notAMember s.line]
  | some m => ((Declaration.tagText? s.trailing).map (MemberTags.notices m.name)).getD []

end MemberSite

namespace Declaration

/-- The comment that stands on the line on which a statement ended. -/
def trailing? : List Token → Option Token
  | [] => none
  | t :: _ => if t.isComment && !t.firstOnLine then some t else none

/-- The access that a label gives, when `t` and the tokens after it start with one. -/
def accessLabel? (t : Token) (ts : List Token) : Option Bool :=
  if t.reads "public" || t.reads "private" || t.reads "protected" then
    if (ts.head?.map (·.reads ":")).getD false then some (t.reads "public") else none
  else none

end Declaration

open Declaration

/-- The member sites of a body whose opening brace has been read, where `isPublic` is the access so
far.  The closing brace ends the body. -/
def memberSites (isPublic : Bool) : List Token → List MemberSite
  | [] => []
  | t :: ts =>
    if t.isClose then []
    else if t.isComment || t.reads ";" then memberSites isPublic ts
    else
      match accessLabel? t ts with
      | some isPublic => memberSites isPublic ts.tail
      | none =>
        let s := Statement.read 0 false none (t :: ts)
        let trailing := trailing? s.rest
        let sites := memberSites isPublic (s.rest.drop trailing.toList.length)
        if isPublic && s.kind = .simple then ⟨t.line, s.tokens, trailing⟩ :: sites else sites
termination_by ts => ts.length
decreasing_by
  · simp
  · simp only [List.length_tail, List.length_cons]
    omega
  · have hs := (Statement.length_read 0 false none (t :: ts)).2 t rfl
      (Bool.eq_false_iff.2 ‹¬t.isClose = true›)
    simp only [List.length_drop]
    omega

end RowMapping
