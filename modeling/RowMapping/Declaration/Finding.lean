import RowMapping.Declaration.Body
import RowMapping.Declaration.Head
/-!
# Annotated classes in a header

A walk over the tokens of a header binds every annotation block to the next class that is defined.
While a class is sought, further annotations are passed over; inside of a bound class the search for
annotations goes on.

* `Finding`, `findings`: what the walk meets, in order;
* `DeclaredClass`: an annotated class with its tags and its public data members;
* `declaredClasses`: the annotated classes of a header, in order;
* `declarationNotices`: what the walk passes over.
-/

namespace RowMapping

open Declaration

/-- The annotation in a token: a comment that is first on its line. -/
def Token.tagLine? (t : Token) : Option TagLine :=
  if t.isComment && t.firstOnLine then TagLine.ofComment? t.text.toList else none

/-- The tags of a block of annotation lines. -/
def TagLine.blockTags (block : List TagLine) : List ClassTag := block.flatMap TagLine.tags

/-- An annotated class: its name, the kind of its definition, the namespace around it, its block,
and the statements that can declare its members. -/
structure ClassSite where
  name : Token
  isStruct : Bool
  scope : String
  block : List TagLine
  sites : List MemberSite
  deriving DecidableEq, Repr

/-- What a walk over the tokens meets: a block that is opened, an annotation that is passed over,
an annotated class, or the end with a block that no class follows. -/
inductive Finding
  | opened (block : List TagLine)
  | stray (line : Nat)
  | defined (site : ClassSite)
  | dangling
  deriving DecidableEq, Repr

/-- The annotation lines that come next, and the tokens after them. -/
def tagRun (ts : List Token) : List TagLine × List Token :=
  ((ts.takeWhile fun t => t.tagLine?.isSome).filterMap Token.tagLine?,
    ts.dropWhile fun t => t.tagLine?.isSome)

theorem length_tagRun_le (ts : List Token) : (tagRun ts).2.length ≤ ts.length := by
  have h := congrArg List.length
    (List.takeWhile_append_dropWhile (p := fun t : Token => t.tagLine?.isSome) (l := ts))
  rw [List.length_append] at h
  simp only [tagRun]
  omega

/-- The end of the tokens, with or without a block that waits for its class. -/
def finishing : Option (List TagLine) → List Finding
  | some block => if (TagLine.blockTags block).isEmpty then [] else [.dangling]
  | none => []

/-- Walks over tokens: `before` is the last token of code, `scopes` are the open scopes, the
innermost of which comes first, and `waiting` is the block whose class is sought. -/
def findings (before : Option Token) (scopes : List Scope) (waiting : Option (List TagLine)) :
    List Token → List Finding
  | [] => finishing waiting
  | t :: ts =>
    if t.isComment then
      match t.tagLine?, waiting with
      | none, _ => findings before scopes waiting ts
      | some _, some _ => .stray t.line :: findings before scopes waiting ts
      | some line, none =>
        .opened (line :: (tagRun ts).1) ::
          findings before scopes (some (line :: (tagRun ts).1)) (tagRun ts).2
    else if t.reads "namespace" then
      findings none (((namespaceHead "" ts).1.map Scope.named).toList ++ scopes) waiting
        (namespaceHead "" ts).2
    else if t.isOpen then findings (some t) (.block :: scopes) waiting ts
    else if t.isClose then findings (some t) scopes.tail waiting ts
    else if t.reads "struct" || t.reads "class" then
      match waiting, _h : classHead? before ts with
      | some block, some (name, body) =>
        .defined {
          name
          isStruct := t.reads "struct"
          scope := Scope.path scopes
          block
          sites := memberSites (t.reads "struct") body.tail } ::
          findings (some t) scopes none body
      | _, _ => findings (some t) scopes waiting ts
    else findings (some t) scopes waiting ts
termination_by ts => ts.length
decreasing_by
  all_goals simp only [List.length_cons]
  all_goals try omega
  · exact Nat.lt_succ_of_le (length_tagRun_le ts)
  · exact Nat.lt_succ_of_le (length_namespaceHead_le "" ts)
  · exact Nat.lt_succ_of_lt (length_classHead?_lt _h)

/-- An annotated class, before any default is filled in. -/
structure DeclaredClass where
  name : String
  scope : String
  isStruct : Bool
  line : Nat
  tags : List ClassTag
  members : List Member
  deriving DecidableEq, Repr

/-- The class that a site declares. -/
def ClassSite.declared (source : List Char) (s : ClassSite) : DeclaredClass where
  name := s.name.text
  scope := s.scope
  isStruct := s.isStruct
  line := s.name.line
  tags := TagLine.blockTags s.block
  members := s.sites.filterMap (MemberSite.member? source)

namespace Finding

/-- The class that a finding is, if it is one. -/
def site? : Finding → Option ClassSite
  | defined site => some site
  | _ => none

/-- What is passed over at a finding. -/
def notices (source : List Char) : Finding → List Notice
  | opened block => block.flatMap TagLine.notices
  | stray line => [.strayTagLine line]
  | defined site => site.sites.flatMap (MemberSite.notices source)
  | dangling => [.danglingBlock]

end Finding

/-- What the walk over the tokens of a header meets. -/
def sourceFindings (source : List Char) : List Finding :=
  findings none [] none (Token.ofText source)

/-- The annotated classes of a header, in order. -/
def declaredClasses (source : List Char) : List DeclaredClass :=
  ((sourceFindings source).filterMap Finding.site?).map (ClassSite.declared source)

/-- What the walk over a header passes over, in order. -/
def declarationNotices (source : List Char) : List Notice :=
  (sourceFindings source).flatMap (Finding.notices source)

end RowMapping
