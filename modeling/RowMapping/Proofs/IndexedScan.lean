import RowMapping.Compile
import RowMapping.Proofs.CheckedLoop
import RowMapping.Proofs.Tiling
/-!
# A scan by positions

The annotated classes of a header can be found by loops over the positions of its tokens.  A read of
one token never fails, because the end mark stands for whatever is behind it; every other read is
checked, and so is every count that is taken down.

* `Scanner`: a text, its tokens and the end mark;
* `Scanner.braceLoop`, `statementLoop`, `membersLoop`: bodies of classes;
* `bracketLoop`, `attributeLoop`, `Scanner.memberAt`: members from statements;
* `Scanner.namespaceLoop`, `headLoop`, `tagLoop`, `scanLoop`: the walk over a header;
* `scan`: the annotated classes of a header.
-/

namespace RowMapping

open Text Declaration

/-- The tokens of a text that come before an end mark, in order and each at its place. -/
structure Scanner where
  text : List Char
  code : List Token
  finish : Token
  finish_kind : finish.kind = .finish
  finish_text : finish.text = ""
  kind_ne_finish : ∀ t ∈ code, t.kind ≠ .finish
  boundary : ∀ t ∈ code, t.start ≤ t.stop ∧
    isBoundary t.start text = true ∧ isBoundary t.stop text = true
  ordered : code.Pairwise fun t u => t.stop ≤ u.start

/-- A position and a depth. -/
structure Nesting where
  index : Nat
  depth : Nat

/-! ### Attribute groups -/

/-- A turn of the search for the bracket that closes the first one. -/
def bracketTurn (code : List Token) (p : Nesting) : Except Fault (Turn Nesting Nat) :=
  if p.index < code.length then do
    let t ← elementAt code p.index
    if t.reads "[" then .ok (.again ⟨p.index + 1, p.depth + 1⟩ id)
    else if t.reads "]" then do
      let depth ← decrement p.depth
      if depth = 0 then .ok (.done p.index) else .ok (.again ⟨p.index + 1, depth⟩ id)
    else .ok (.again ⟨p.index + 1, p.depth⟩ id)
  else .ok (.done p.index)

/-- The position of the bracket that closes the first one, or the end. -/
def bracketLoop (code : List Token) : Loop Nesting Nat where
  turn := bracketTurn code
  index := Nesting.index
  bound := code.length
  forward h := by grind [bracketTurn, bind_eq_ok_iff]

theorem le_of_bracketLoop {code : List Token} {p : Nesting} {i : Nat}
    (h : (bracketLoop code).run p = .ok i) : p.index ≤ i := by
  refine Loop.of_run_eq_ok (P := fun p i => p.index ≤ i) (fun p i h => ?_)
    (fun p p' finish i h hi => ?_) h
  · change bracketTurn code p = _ at h
    grind [bracketTurn, bind_eq_ok_iff]
  · change bracketTurn code p = _ at h
    obtain ⟨rfl, hlt⟩ : finish = id ∧ p.index < p'.index := by grind [bracketTurn, bind_eq_ok_iff]
    exact Nat.le_trans (Nat.le_of_lt hlt) hi

/-- A position in code, and the code in front of it that is kept. -/
structure Kept where
  index : Nat
  code : List Token

/-- A turn of the walk over code that drops attribute groups. -/
def attributeTurn (code : List Token) (p : Kept) : Except Fault (Turn Kept (List Token)) :=
  if p.index < code.length then do
    let t ← elementAt code p.index
    if t.reads "[" && ((code[p.index + 1]?).map (·.reads "[")).getD false then do
      let close ← (bracketLoop code).run ⟨p.index, 0⟩
      .ok (.again ⟨close + 1, p.code⟩ id)
    else .ok (.again ⟨p.index + 1, p.code ++ [t]⟩ id)
  else .ok (.done p.code)

/-- Code without its attribute groups. -/
def attributeLoop (code : List Token) : Loop Kept (List Token) where
  turn := attributeTurn code
  index := Kept.index
  bound := code.length
  forward h := by grind [attributeTurn, bind_eq_ok_iff, → le_of_bracketLoop]

namespace Scanner

/-! ### Reads of tokens -/

section

variable (s : Scanner)

/-- The tokens and the end mark. -/
def tokens : List Token := s.code ++ [s.finish]

/-- The token at a position, or the end mark. -/
def token (i : Nat) : Token :=
  s.tokens.get ⟨min i (s.tokens.length - 1), by simp only [tokens, List.length_append]; grind⟩

/-- The last token of code in front of a position. -/
def codeBefore (i : Nat) : Except Fault (Option Token) :=
  (segment 0 i s.tokens).map fun ts => ts.reverse.find? fun t => !t.isComment

/-- The first token of code from a position on. -/
def firstCode (i : Nat) : Except Fault Token :=
  (segment i s.tokens.length s.tokens).map fun ts =>
    (ts.find? fun t => !t.isComment).getD (s.token i)

/-- The text from the first of some tokens to the last one. -/
def sourceAt (ts : List Token) : Except Fault String :=
  match ts.head?, ts.getLast? with
  | some first, some last =>
    (checkedSlice first.start last.stop s.text).map fun cs => String.ofList (trim cs)
  | _, _ => .ok ""

variable {s}

theorem token_of_lt {i : Nat} (h : i < s.code.length) : s.token i = s.code[i] := by
  have hlt : i < s.tokens.length := by grind [tokens]
  have hmin : min i (s.tokens.length - 1) = i := by omega
  calc s.token i = s.tokens[i] := by simp only [token, List.get_eq_getElem, hmin]
    _ = s.code[i] := List.getElem_append_left h

theorem token_of_le {i : Nat} (h : s.code.length ≤ i) : s.token i = s.finish := by
  have hlength : s.tokens.length = s.code.length + 1 := by simp [tokens]
  have hmin : min i (s.tokens.length - 1) = s.code.length := by omega
  calc s.token i = s.tokens[s.code.length] := by simp only [token, List.get_eq_getElem, hmin]
    _ = s.finish := by simp [tokens]

theorem reads_finish {text : String} (h : text ≠ "") : s.finish.reads text = false := by
  simp [Token.reads, s.finish_text, h.symm]

theorem isComment_finish : s.finish.isComment = false := by
  simp [Token.isComment, s.finish_kind]

/-- The end mark reads nothing. -/
theorem lt_of_reads {i : Nat} {text : String} (h : (s.token i).reads text = true)
    (htext : text ≠ "") : i < s.code.length := by
  by_contra hle
  rw [token_of_le (by omega), reads_finish htext] at h
  cases h

theorem lt_of_kind {i : Nat} (h : (s.token i).kind ≠ .finish) : i < s.code.length := by
  by_contra hle
  rw [token_of_le (by omega)] at h
  exact h s.finish_kind

end

/-! ### Statements -/

section

variable (s : Scanner)

/-- A turn of the search for the brace that closes the first one. -/
def braceTurn (p : Nesting) : Except Fault (Turn Nesting Nat) :=
  let t := s.token p.index
  if t.kind = .finish then .ok (.done p.index)
  else if t.isOpen then .ok (.again ⟨p.index + 1, p.depth + 1⟩ id)
  else if t.isClose then do
    let depth ← decrement p.depth
    if depth = 0 then .ok (.done p.index) else .ok (.again ⟨p.index + 1, depth⟩ id)
  else .ok (.again ⟨p.index + 1, p.depth⟩ id)

/-- The position of the brace that closes the first one, or that of the end mark. -/
def braceLoop : Loop Nesting Nat where
  turn := s.braceTurn
  index := Nesting.index
  bound := s.code.length
  forward {p _ _} h := by
    have := lt_of_kind (s := s) (i := p.index)
    grind [braceTurn, bind_eq_ok_iff]

theorem le_of_braceLoop {s : Scanner} {p : Nesting} {i : Nat} (h : s.braceLoop.run p = .ok i) :
    p.index ≤ i := by
  refine Loop.of_run_eq_ok (P := fun p i => p.index ≤ i) (fun p i h => ?_)
    (fun p p' finish i h hi => ?_) h
  · change s.braceTurn p = _ at h
    grind [braceTurn, bind_eq_ok_iff]
  · change s.braceTurn p = _ at h
    obtain ⟨rfl, hlt⟩ : finish = id ∧ p.index < p'.index := by grind [braceTurn, bind_eq_ok_iff]
    exact Nat.le_trans (Nat.le_of_lt hlt) hi

/-- A statement by positions: how it ends, its tokens without the semicolon, and what follows. -/
structure Span where
  kind : Statement.Kind
  start : Nat
  stop : Nat
  next : Nat

/-- The statement that defines a type, from its own start, when `span` is what follows its body. -/
def Span.nested (start : Nat) (span : Span) : Span :=
  { span with start, kind := if span.kind = .incomplete then .incomplete else .nestedType }

/-- A position in a statement, where it starts, the depth of parentheses and brackets, and whether
there was a parenthesis. -/
structure InStatement where
  start : Nat
  index : Nat
  depth : Nat
  params : Bool

/-- A turn at an opening brace outside of parentheses and brackets.  It opens the body of a function,
the body of a type, behind which a statement of its own follows, or an initial value. -/
def groupTurn (p : InStatement) : Except Fault (Turn InStatement Span) := do
  let close ← s.braceLoop.run ⟨p.index, 0⟩
  if p.params then
    let next := if (s.token (close + 1)).reads ";" then close + 2 else close + 1
    .ok (.done ⟨.function, p.start, close + 1, next⟩)
  else do
    let first ← s.firstCode p.start
    if Statement.definesType first then
      .ok (.again ⟨close + 1, close + 1, 0, false⟩ (Span.nested p.start))
    else .ok (.again ⟨p.start, close + 1, p.depth, p.params⟩ id)

/-- A turn of the walk over a statement. -/
def statementTurn (p : InStatement) : Except Fault (Turn InStatement Span) :=
  let t := s.token p.index
  if t.kind = .finish then .ok (.done ⟨.incomplete, p.start, p.index, p.index⟩)
  else if t.reads "(" || t.reads "[" then
    .ok (.again ⟨p.start, p.index + 1, p.depth + 1, p.params || t.reads "("⟩ id)
  else if t.reads ")" || t.reads "]" then
    .ok (.again ⟨p.start, p.index + 1, p.depth - 1, p.params⟩ id)
  else if p.depth = 0 && t.reads ";" then
    .ok (.done ⟨.simple, p.start, p.index, p.index + 1⟩)
  else if p.depth = 0 && t.isClose then .ok (.done ⟨.incomplete, p.start, p.index, p.index⟩)
  else if p.depth = 0 && t.isOpen then s.groupTurn p
  else .ok (.again ⟨p.start, p.index + 1, p.depth, p.params⟩ id)

/-- The statement that starts at a position. -/
def statementLoop : Loop InStatement Span where
  turn := s.statementTurn
  index := InStatement.index
  bound := s.code.length
  forward {p _ _} h := by
    have := lt_of_kind (s := s) (i := p.index)
    grind [statementTurn, groupTurn, bind_eq_ok_iff, → le_of_braceLoop]

/-- A statement that starts at a token of its own takes at least that one. -/
theorem lt_next_of_statementLoop {s : Scanner} {p : InStatement} {span : Span}
    (h : s.statementLoop.run p = .ok span) : p.index ≤ span.next ∧
      ((s.token p.index).kind ≠ .finish → (s.token p.index).isClose = false →
        p.index < span.next) := by
  refine Loop.of_run_eq_ok (P := fun p span => p.index ≤ span.next ∧
    ((s.token p.index).kind ≠ .finish → (s.token p.index).isClose = false → p.index < span.next))
    (fun p span h => ?_) (fun p p' finish span h hspan => ?_) h
  · change s.statementTurn p = _ at h
    grind [statementTurn, groupTurn, bind_eq_ok_iff, → le_of_braceLoop]
  · have hforward : p.index < p'.index ∧ _ := s.statementLoop.forward h
    change s.statementTurn p = _ at h
    have hnext : (finish span).next = span.next := by
      obtain rfl | rfl : finish = id ∨ finish = Span.nested p.start := by
        grind [statementTurn, groupTurn, bind_eq_ok_iff]
      · rfl
      · rfl
    omega

end

/-! ### Members -/

/-- The position of the first equals sign or brace outside of `angles` angle brackets, or the end.
A comma, colon or bracket before it is out of reach. -/
def declaratorEnd? : Nat → List Token → Option Nat
  | _, [] => some 0
  | angles, t :: ts =>
    if t.reads "<" then (declaratorEnd? (angles + 1) ts).map (· + 1)
    else if t.reads ">" then (declaratorEnd? (angles - 1) ts).map (· + 1)
    else if angles = 0 && (t.reads "=" || t.reads "\x7b") then some 0
    else if angles = 0 && (t.reads "," || t.reads ":" || t.reads "[") then none
    else (declaratorEnd? angles ts).map (· + 1)

/-- The keywords of access labels. -/
def accessKeywords : List String := ["public", "private", "protected"]

section

variable (s : Scanner)

/-- The text of the initial value from position `split` of code on. -/
def initialAt (code : List Token) (split : Nat) : Except Fault String :=
  match code[split]? with
  | none => .ok ""
  | some t => do
    let ts ← segment (if t.reads "=" then split + 1 else split) code.length code
    s.sourceAt ts

/-- The member that code declares, with the tags of the comment behind it. -/
def memberOf (code : List Token) (trailing : Option Token) : Except Fault (Option Member) :=
  match code.head? with
  | none => .ok none
  | some first =>
    if nonMemberKeywords.contains first.text || code.any (fun t => t.reads "(" || t.reads "~") then
      .ok none
    else
      match declaratorEnd? 0 code with
      | none => .ok none
      | some split => do
        let declarator ← segment 0 split code
        match declarator.getLast? with
        | none => .ok none
        | some name =>
          let type := declarator.dropLast
          if name.kind != .word || !(type.any fun t => t.kind == .word) then .ok none
          else do
            let rest ← segment split code.length code
            if hasTopLevelComma 0 rest then .ok none
            else do
              let initial ← s.initialAt code split
              .ok (some {
                name := name.text
                type := spelling type
                initial
                line := name.line
                tags := ((tagText? trailing).map (MemberTags.ofText name.text)).getD {} })

/-- The member that a statement declares. -/
def memberAt (span : Span) (trailing : Option Token) : Except Fault (Option Member) := do
  let ts ← segment span.start span.stop s.tokens
  let code ← (attributeLoop (ts.filter fun t => !t.isComment)).run ⟨0, []⟩
  s.memberOf code trailing

/-- The comment on the line on which a statement ended. -/
def trailingAt (span : Span) : Option Token :=
  let t := s.token span.next
  if 0 < span.next && t.isComment && !t.firstOnLine then some t else none

/-- A position in the body of a class, the access there, and the members so far. -/
structure InBody where
  index : Nat
  isPublic : Bool
  members : List Member

/-- A turn of the walk over the body of a class. -/
def membersTurn (p : InBody) : Except Fault (Turn InBody (List Member)) :=
  let t := s.token p.index
  if t.kind = .finish || t.isClose then .ok (.done p.members)
  else if t.isComment || t.reads ";" then .ok (.again ⟨p.index + 1, p.isPublic, p.members⟩ id)
  else if accessKeywords.contains t.text && (s.token (p.index + 1)).reads ":" then
    .ok (.again ⟨p.index + 2, t.reads "public", p.members⟩ id)
  else do
    let span ← s.statementLoop.run ⟨p.index, p.index, 0, false⟩
    let trailing := s.trailingAt span
    let member ← if p.isPublic && span.kind = .simple then s.memberAt span trailing else .ok none
    let next := if trailing.isSome then span.next + 1 else span.next
    .ok (.again ⟨next, p.isPublic, p.members ++ member.toList⟩ id)

/-- The public data members in the body of a class. -/
def membersLoop : Loop InBody (List Member) where
  turn := s.membersTurn
  index := InBody.index
  bound := s.code.length
  forward {p _ _} h := by
    have := lt_of_kind (s := s) (i := p.index)
    grind [membersTurn, bind_eq_ok_iff, → lt_next_of_statementLoop]

end

/-! ### The walk over a header -/

section

variable (s : Scanner)

/-- A position in the head of a namespace, and the name so far. -/
structure InName where
  index : Nat
  name : String

/-- A turn of the walk over the name of a namespace. -/
def namespaceTurn (p : InName) : Except Fault (Turn InName (Option String × Nat)) :=
  let t := s.token p.index
  if t.isOpen then .ok (.done (some p.name, p.index + 1))
  else if t.kind == .word || t.reads "::" then .ok (.again ⟨p.index + 1, p.name ++ t.text⟩ id)
  else if t.isComment then .ok (.again ⟨p.index + 1, p.name⟩ id)
  else .ok (.done (none, p.index))

/-- The name of a namespace when a brace opens it, and the position behind all that was read. -/
def namespaceLoop : Loop InName (Option String × Nat) where
  turn := s.namespaceTurn
  index := InName.index
  bound := s.code.length
  forward {p _ _} h := by
    have := lt_of_kind (s := s) (i := p.index)
    have hscope : (s.token p.index).reads "::" = true → p.index < s.code.length := fun h =>
      lt_of_reads h (by decide)
    grind [namespaceTurn, Token.isComment]

/-- A turn of the search for the brace that opens the body of a class. -/
def headTurn (p : Nesting) : Except Fault (Turn Nesting (Option Nat)) :=
  let t := s.token p.index
  if t.kind = .finish then .ok (.done none)
  else if t.reads "(" || t.reads "<" then .ok (.again ⟨p.index + 1, p.depth + 1⟩ id)
  else if t.reads ")" || t.reads ">" then .ok (.again ⟨p.index + 1, p.depth - 1⟩ id)
  else if p.depth = 0 && t.isOpen then .ok (.done (some p.index))
  else if p.depth = 0 && (t.reads ";" || t.isClose || t.reads "=") then .ok (.done none)
  else .ok (.again ⟨p.index + 1, p.depth⟩ id)

/-- The position of the brace that opens the body of a class. -/
def headLoop : Loop Nesting (Option Nat) where
  turn := s.headTurn
  index := Nesting.index
  bound := s.code.length
  forward {p _ _} h := by
    have := lt_of_kind (s := s) (i := p.index)
    grind [headTurn]

/-- The positions of the name and of the opening brace of the class that is defined with the keyword
at a position. -/
def classAt (index : Nat) : Except Fault (Option (Nat × Nat)) := do
  let before ← s.codeBefore index
  if (before.map forbidsClass).getD false then .ok none
  else if (s.token (index + 1)).kind != .word || (s.token (index + 2)).reads "::" then .ok none
  else do
    let brace ← s.headLoop.run ⟨index + 2, 0⟩
    .ok (brace.map fun brace => (index + 1, brace))

/-- The position of an annotation, and the tags so far. -/
structure InRun where
  index : Nat
  tags : List ClassTag

/-- A turn of the walk over a run of annotations. -/
def tagTurn (p : InRun) : Except Fault (Turn InRun InRun) :=
  match (s.token (p.index + 1)).tagLine? with
  | none => .ok (.done p)
  | some line => .ok (.again ⟨p.index + 1, p.tags ++ line.tags⟩ id)

/-- The last annotation of a run, and all of its tags. -/
def tagLoop : Loop InRun InRun where
  turn := s.tagTurn
  index := InRun.index
  bound := s.code.length
  forward {p _ _} h := by
    have := lt_of_kind (s := s) (i := p.index + 1)
    grind [tagTurn, Token.tagLine?, Token.isComment]

/-- A position in a header, the classes so far, the scopes around it, and the tags that wait for
their class when one is sought. -/
structure InHeader where
  index : Nat
  classes : List DeclaredClass
  scopes : List Scope
  tags : List ClassTag
  seeking : Bool

/-- A turn at a comment, which is passed or the first of a run of annotations. -/
def commentTurn (p : InHeader) (t : Token) : Except Fault (Turn InHeader (List DeclaredClass)) :=
  match t.tagLine? with
  | none => .ok (.again { p with index := p.index + 1 } id)
  | some line =>
    if p.seeking then .ok (.again { p with index := p.index + 1 } id)
    else do
      let run ← s.tagLoop.run ⟨p.index, p.tags ++ line.tags⟩
      .ok (.again { p with index := run.index + 1, tags := run.tags, seeking := true } id)

/-- A turn at a keyword that may define the class which is sought.  The walk goes on at its body,
where it may meet other classes. -/
def classTurn (p : InHeader) (t : Token) : Except Fault (Turn InHeader (List DeclaredClass)) := do
  let found ← s.classAt p.index
  match found with
  | none => .ok (.again { p with index := p.index + 1 } id)
  | some (name, brace) => do
    let members ← s.membersLoop.run ⟨brace + 1, t.reads "struct", []⟩
    .ok (.again {
      index := brace
      classes := p.classes ++ [{
        name := (s.token name).text
        scope := Scope.path p.scopes
        isStruct := t.reads "struct"
        line := (s.token name).line
        tags := p.tags
        members }]
      scopes := p.scopes
      tags := []
      seeking := false } id)

/-- A turn of the walk over a header. -/
def scanTurn (p : InHeader) : Except Fault (Turn InHeader (List DeclaredClass)) :=
  if p.index < s.tokens.length then
    let t := s.token p.index
    if t.kind = .finish then .ok (.done p.classes)
    else if t.isComment then s.commentTurn p t
    else if t.reads "namespace" then do
      let head ← s.namespaceLoop.run ⟨p.index + 1, ""⟩
      .ok (.again { p with
        index := head.2
        scopes := (head.1.map Scope.named).toList ++ p.scopes } id)
    else if t.isOpen then
      .ok (.again { p with index := p.index + 1, scopes := .block :: p.scopes } id)
    else if t.isClose then
      .ok (.again { p with index := p.index + 1, scopes := p.scopes.tail } id)
    else if p.seeking && (t.reads "struct" || t.reads "class") then s.classTurn p t
    else .ok (.again { p with index := p.index + 1 } id)
  else .ok (.done p.classes)

theorem le_of_namespaceLoop {s : Scanner} {p : InName} {head : Option String × Nat}
    (h : s.namespaceLoop.run p = .ok head) : p.index ≤ head.2 := by
  refine Loop.of_run_eq_ok (P := fun p head => p.index ≤ head.2) (fun p head h => ?_)
    (fun p p' finish head h hle => ?_) h
  · change s.namespaceTurn p = _ at h
    grind [namespaceTurn]
  · change s.namespaceTurn p = _ at h
    obtain ⟨rfl, hlt⟩ : finish = id ∧ p.index < p'.index := by grind [namespaceTurn]
    exact Nat.le_trans (Nat.le_of_lt hlt) hle

theorem le_of_headLoop {s : Scanner} {p : Nesting} {brace : Option Nat}
    (h : s.headLoop.run p = .ok brace) : ∀ i ∈ brace, p.index ≤ i := by
  refine Loop.of_run_eq_ok (P := fun p brace => ∀ i ∈ brace, p.index ≤ i) (fun p brace h => ?_)
    (fun p p' finish brace h hle => ?_) h
  · change s.headTurn p = _ at h
    grind [headTurn]
  · change s.headTurn p = _ at h
    obtain ⟨rfl, hlt⟩ : finish = id ∧ p.index < p'.index := by grind [headTurn]
    exact fun i hi => Nat.le_trans (Nat.le_of_lt hlt) (hle i hi)

theorem le_of_tagLoop {s : Scanner} {p run : InRun} (h : s.tagLoop.run p = .ok run) :
    p.index ≤ run.index := by
  refine Loop.of_run_eq_ok (P := fun p run => p.index ≤ run.index) (fun p run h => ?_)
    (fun p p' finish run h hle => ?_) h
  · change s.tagTurn p = _ at h
    grind [tagTurn]
  · change s.tagTurn p = _ at h
    obtain ⟨rfl, hlt⟩ : finish = id ∧ p.index < p'.index := by grind [tagTurn]
    exact Nat.le_trans (Nat.le_of_lt hlt) hle

theorem lt_of_classAt {s : Scanner} {index name brace : Nat}
    (h : s.classAt index = .ok (some (name, brace))) : index < brace := by
  obtain ⟨before, -, h⟩ := bind_eq_ok_iff.1 h
  split at h
  · cases h
  · split at h
    · cases h
    · obtain ⟨found, hrun, h⟩ := bind_eq_ok_iff.1 h
      obtain ⟨i, rfl, heq⟩ := Option.map_eq_some_iff.1 (Except.ok.inj h)
      cases heq
      exact Nat.lt_of_lt_of_le (Nat.lt_add_of_pos_right Nat.two_pos) (le_of_headLoop hrun _ rfl)

/-- The annotated classes of a header, in order. -/
def scanLoop : Loop InHeader (List DeclaredClass) where
  turn := s.scanTurn
  index := InHeader.index
  bound := s.code.length
  forward {p _ _} h := by
    have := lt_of_kind (s := s) (i := p.index)
    grind [scanTurn, commentTurn, classTurn, bind_eq_ok_iff, → le_of_tagLoop,
      → le_of_namespaceLoop, → lt_of_classAt]

end

end Scanner

/-- The tokens of a text as a scanner has them. -/
def Scanner.ofText (source : List Char) : Scanner where
  text := source
  code := Token.ofText source
  finish := ((lexemes source).foldl Cursor.pass .start).finish
  finish_kind := rfl
  finish_text := rfl
  kind_ne_finish _ := kind_ne_finish_of_mem
  boundary := by
    intro u hu
    obtain ⟨tiles, last, htiles, htokens, -⟩ := exists_tilesOf source
    rw [← htokens] at hu
    obtain ⟨t, ht, rfl⟩ := List.mem_map.1 hu
    obtain ⟨front, back, rfl⟩ := List.append_of_mem ht
    have hstands := tilesOf_stands source front t (back ++ [last]) (by rw [htiles]; simp)
    have hsource : source = front.flatMap Tile.text ++ t.gap.flatMap Lexeme.text ++
        t.token.text.toList ++ (back ++ [last]).flatMap Tile.text := by
      rw [← flatMap_text_tilesOf source, htiles]
      simp [Tile.text]
    refine ⟨by rw [hstands.stop]; exact Nat.le_add_right _ _, ?_, ?_⟩
    · rw [hstands.start, hsource, List.append_assoc _ _ (List.flatMap _ _)]
      exact isBoundary_append _ _
    · rw [hstands.stop, hstands.start, ← byteLength_append, hsource]
      exact isBoundary_append _ _
  ordered := (List.pairwise_append.1 (pairwise_stream source)).1

/-- The annotated classes of a header, in order, found by positions. -/
def scan (source : List Char) : Except Fault (List DeclaredClass) :=
  (Scanner.ofText source).scanLoop.run ⟨0, [], [], [], false⟩

end RowMapping
