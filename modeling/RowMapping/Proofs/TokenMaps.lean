import Mathlib.Tactic.SplitIfs
import RowMapping.Proofs.Declared
/-!
# Maps of tokens that the walk does not notice

The walk over a header reads no more of a token than its kind, its text and, of a comment, whether
it is first on its line; of the texts of comments and literals it does not even read everything.  A
map of tokens that keeps all this commutes with every part of the walk.

* `Token.Keeps`: the map keeps what is read of a token, and changes its line in a given way;
* `tagRun_map`, `namespaceHead_map`, `classHead?_map`: heads;
* `Statement.read_map`, `memberSites_map`: statements and bodies;
* `declarator?_map`, `declaresMember_map`, `MemberSite.member?_map`: members;
* `findings_map`: the walk.
-/

namespace RowMapping

open Declaration Text

/-- A character that quotes a literal. -/
def isQuote (c : Char) : Bool := c == '"' || c == '\''

namespace Token

/-- A literal. -/
def isLiteral (t : Token) : Bool := t.kind == .string || t.kind == .character

/-- The map `f` keeps what the walk over a header reads of a token, and `φ` tells its line. -/
structure Keeps (f : Token → Token) (φ : Nat → Nat) : Prop where
  kind : ∀ t, (f t).kind = t.kind
  line : ∀ t, (f t).line = φ t.line
  /-- A text without quotes is read alike. -/
  reads : ∀ t {text : String}, text.toList.any isQuote = false → (f t).reads text = t.reads text
  firstOnLine : ∀ t, t.isComment = true → (f t).firstOnLine = t.firstOnLine
  tagLine? : ∀ t, (f t).tagLine? = t.tagLine?
  memberText? : ∀ t, t.isComment = true →
    memberText? (f t).text.toList = memberText? t.text.toList
  /-- Only the texts of comments and literals may change. -/
  text : ∀ t, t.isLiteral = false → t.isComment = false → (f t).text = t.text

variable {f : Token → Token} {φ : Nat → Nat}

/-- A map that keeps the kinds and the texts of tokens, and where comments stand on their lines. -/
theorem Keeps.of_text (hkind : ∀ t, (f t).kind = t.kind) (hline : ∀ t, (f t).line = φ t.line)
    (htext : ∀ t, (f t).text = t.text)
    (hfirst : ∀ t, t.isComment = true → (f t).firstOnLine = t.firstOnLine) : Keeps f φ where
  kind := hkind
  line := hline
  reads t _ _ := by rw [Token.reads, Token.reads, hkind, htext]
  firstOnLine := hfirst
  tagLine? t := by
    have hcomment : (f t).isComment = t.isComment := by rw [isComment, isComment, hkind]
    rw [Token.tagLine?, Token.tagLine?, hcomment, htext]
    cases h : t.isComment with
    | false => rfl
    | true => rw [hfirst t h]
  memberText? t _ := by rw [htext]
  text t _ _ := htext t

namespace Keeps

variable (hf : Keeps f φ) (t : Token)
include hf

theorem isComment : (f t).isComment = t.isComment := by rw [Token.isComment, Token.isComment, hf.kind]

theorem isWordLike : (f t).isWordLike = t.isWordLike := by
  rw [Token.isWordLike, Token.isWordLike, hf.kind]

theorem isLiteral : (f t).isLiteral = t.isLiteral := by rw [Token.isLiteral, Token.isLiteral, hf.kind]

theorem isOpen : (f t).isOpen = t.isOpen := hf.reads t (by decide)

theorem isClose : (f t).isClose = t.isClose := hf.reads t (by decide)

theorem text_of_word (h : t.kind = .word) : (f t).text = t.text :=
  hf.text t (by rw [Token.isLiteral, h]; rfl) (by rw [Token.isComment, h]; rfl)

theorem text_of_reads {text : String} (h : text.toList.any isQuote = false)
    (hread : t.reads text = true) : (f t).text = t.text := by
  have hmap := hf.reads t h
  rw [hread] at hmap
  simp only [Token.reads, Bool.and_eq_true, beq_iff_eq] at hmap hread
  rw [hmap.2, hread.2]

end Keeps

end Token

open Token

section

variable {f : Token → Token} {φ : Nat → Nat} (hf : Keeps f φ) (t : Token) (ts : List Token)
include hf

/-! ### Heads -/

theorem head?_map_reads {text : String} (h : text.toList.any isQuote = false) :
    ((ts.map f).head?.map (·.reads text)).getD false = (ts.head?.map (·.reads text)).getD false := by
  cases ts with
  | nil => rfl
  | cons t ts => exact hf.reads t h

theorem tagRun_map : tagRun (ts.map f) = ((tagRun ts).1, (tagRun ts).2.map f) := by
  have hsome : (fun t : Token => (f t).tagLine?.isSome) = fun t => t.tagLine?.isSome :=
    funext fun t => by rw [hf.tagLine?]
  have htag : (fun t : Token => (f t).tagLine?) = Token.tagLine? := funext hf.tagLine?
  simp only [tagRun, List.takeWhile_map, List.dropWhile_map, List.filterMap_map, Function.comp_def,
    hsome, htag]

theorem namespaceHead_map (name : String) : namespaceHead name (ts.map f) =
    ((namespaceHead name ts).1, (namespaceHead name ts).2.map f) := by
  induction ts generalizing name with
  | nil => rfl
  | cons t ts ih =>
    have htext : (t.kind == .word || t.reads "::") = true → (f t).text = t.text := fun h =>
      (Bool.or_eq_true_iff.1 h).elim (fun hword => hf.text_of_word t (beq_iff_eq.1 hword))
        (hf.text_of_reads t (by decide))
    rw [List.map_cons, namespaceHead, namespaceHead, hf.reads t (by decide), hf.reads t (by decide),
      hf.kind, hf.isComment]
    split_ifs with hopen hword hcomment
    · rfl
    · rw [htext hword, ih]
    · exact ih name
    · rfl

theorem bodyOf?_map (depth : Nat) :
    bodyOf? depth (ts.map f) = (bodyOf? depth ts).map (List.map f) := by
  induction ts generalizing depth with
  | nil => rfl
  | cons t ts ih =>
    simp (disch := decide) only [List.map_cons, bodyOf?, hf.reads]
    split_ifs <;> first | rfl | exact ih _

theorem forbidsClass_map : forbidsClass (f t) = forbidsClass t := by
  simp (disch := decide) only [forbidsClass, hf.reads]

theorem classHead?_map (before : Option Token) : classHead? (before.map f) (ts.map f) =
    (classHead? before ts).map fun head => (f head.1, head.2.map f) := by
  cases ts with
  | nil => rfl
  | cons name ts =>
    have hbefore : ((before.map f).map forbidsClass).getD false =
        (before.map forbidsClass).getD false := by
      cases before with
      | none => rfl
      | some t => exact forbidsClass_map hf t
    rw [List.map_cons, classHead?, classHead?, hbefore, head?_map_reads hf ts (by decide), hf.kind,
      bodyOf?_map hf]
    split
    · rfl
    · rw [Option.map_map, Option.map_map]
      rfl

/-! ### Statements -/

theorem closing_map (depth : Nat) :
    closing depth (ts.map f) = ((closing depth ts).1.map f, (closing depth ts).2.map f) := by
  induction ts generalizing depth with
  | nil => rfl
  | cons t ts ih =>
    simp only [List.map_cons, closing, hf.isOpen, hf.isClose]
    split
    · rfl
    · rw [ih]; rfl

omit hf in
/-- A statement of the images. -/
def Statement.map (f : Token → Token) (s : Statement) : Statement :=
  ⟨s.kind, s.tokens.map f, s.rest.map f⟩

omit hf in
theorem Statement.map_after (front : List Token) (s : Statement) :
    (after front s).map f = after (front.map f) (s.map f) := by
  rw [map, tokens_after, List.map_append]
  rfl

omit hf in
theorem Statement.map_nested (s : Statement) : s.nested.map f = (s.map f).nested := rfl

theorem Statement.leader_map (found : Option Token) :
    leader (found.map f) (f t) = (leader found t).map f := by
  rw [leader, leader, Option.isSome_map, hf.isComment]
  split <;> rfl

theorem Statement.definesType_map : definesType (f t) = definesType t := by
  simp (disch := decide) only [definesType, hf.reads]

theorem Statement.leads_map (found : Option Token) :
    ((found.map f).map definesType).getD false = (found.map definesType).getD false := by
  cases found with
  | none => rfl
  | some t => exact definesType_map hf t

theorem Statement.skipSemicolon_map : skipSemicolon (ts.map f) = (skipSemicolon ts).map f := by
  cases ts with
  | nil => rfl
  | cons t ts =>
    simp (disch := decide) only [List.map_cons, skipSemicolon, hf.reads]
    split <;> rfl

theorem Statement.read_map (depth : Nat) (params : Bool) (found : Option Token) :
    read depth params (found.map f) (ts.map f) = (read depth params found ts).map f := by
  have hroundOpen : ∀ t : Token, (f t).reads "(" = t.reads "(" := fun t => hf.reads t (by decide)
  have hroundClose : ∀ t : Token, (f t).reads ")" = t.reads ")" := fun t => hf.reads t (by decide)
  have hsquareOpen : ∀ t : Token, (f t).reads "[" = t.reads "[" := fun t => hf.reads t (by decide)
  have hsquareClose : ∀ t : Token, (f t).reads "]" = t.reads "]" := fun t => hf.reads t (by decide)
  have hsemicolon : ∀ t : Token, (f t).reads ";" = t.reads ";" := fun t => hf.reads t (by decide)
  fun_induction read depth params found ts with
  | case1 => rw [List.map_nil, read]; rfl
  | case2 depth params found t ts hround ih =>
    rw [List.map_cons, read, hroundOpen, if_pos hround, leader_map hf, ih, map_after]
    rfl
  | case3 depth params found t ts hround hsquare ih =>
    rw [List.map_cons, read, hroundOpen, if_neg hround, hsquareOpen, if_pos hsquare, leader_map hf,
      ih, map_after]
    rfl
  | case4 depth params found t ts hround hsquare hclose ih =>
    rw [List.map_cons, read, hroundOpen, if_neg hround, hsquareOpen, if_neg hsquare, hroundClose,
      hsquareClose, if_pos hclose, leader_map hf, ih, map_after]
    rfl
  | case5 depth params found t ts hround hsquare hclose hsemi =>
    rw [List.map_cons, read, hroundOpen, if_neg hround, hsquareOpen, if_neg hsquare, hroundClose,
      hsquareClose, if_neg hclose, hsemicolon, if_pos hsemi]
    rfl
  | case6 depth params found t ts hround hsquare hclose hsemi hend =>
    rw [List.map_cons, read, hroundOpen, if_neg hround, hsquareOpen, if_neg hsquare, hroundClose,
      hsquareClose, if_neg hclose, hsemicolon, if_neg hsemi, hf.isClose, if_pos hend]
    rfl
  | case7 depth found t ts hround hsquare hclose hsemi hend hopen =>
    rw [List.map_cons, read, hroundOpen, if_neg hround, hsquareOpen, if_neg hsquare, hroundClose,
      hsquareClose, if_neg hclose, hsemicolon, if_neg hsemi, hf.isClose, if_neg hend, hf.isOpen,
      if_pos hopen, if_pos rfl, closing_map hf, skipSemicolon_map hf]
    rfl
  | case8 depth params found t ts hround hsquare hclose hsemi hend hopen hparams htype ih =>
    rw [List.map_cons, read, hroundOpen, if_neg hround, hsquareOpen, if_neg hsquare, hroundClose,
      hsquareClose, if_neg hclose, hsemicolon, if_neg hsemi, hf.isClose, if_neg hend, hf.isOpen,
      if_pos hopen, if_neg hparams, leader_map hf, leads_map hf, if_pos htype, closing_map hf,
      map_after, map_nested, ← ih]
    rfl
  | case9 depth params found t ts hround hsquare hclose hsemi hend hopen hparams htype ih =>
    rw [List.map_cons, read, hroundOpen, if_neg hround, hsquareOpen, if_neg hsquare, hroundClose,
      hsquareClose, if_neg hclose, hsemicolon, if_neg hsemi, hf.isClose, if_neg hend, hf.isOpen,
      if_pos hopen, if_neg hparams, leader_map hf, leads_map hf, if_neg htype, closing_map hf,
      map_after, ← ih]
    rfl
  | case10 depth params found t ts hround hsquare hclose hsemi hend hopen ih =>
    rw [List.map_cons, read, hroundOpen, if_neg hround, hsquareOpen, if_neg hsquare, hroundClose,
      hsquareClose, if_neg hclose, hsemicolon, if_neg hsemi, hf.isClose, if_neg hend, hf.isOpen,
      if_neg hopen, leader_map hf, ih, map_after]
    rfl

/-! ### Bodies -/

omit hf in
/-- A member site of the images. -/
def MemberSite.map (f : Token → Token) (φ : Nat → Nat) (s : MemberSite) : MemberSite :=
  ⟨φ s.line, s.tokens.map f, s.trailing.map f⟩

theorem trailing?_map : trailing? (ts.map f) = (trailing? ts).map f := by
  cases ts with
  | nil => rfl
  | cons t ts =>
    rw [List.map_cons, trailing?, trailing?, hf.isComment]
    cases h : t.isComment with
    | false => rfl
    | true =>
      rw [hf.firstOnLine t h]
      split <;> rfl

theorem accessLabel?_map : accessLabel? (f t) (ts.map f) = accessLabel? t ts := by
  rw [accessLabel?, accessLabel?, hf.reads t (by decide), hf.reads t (by decide),
    hf.reads t (by decide), head?_map_reads hf ts (by decide)]

omit hf in
/-- The sites behind a statement, its own site included when it is a public one that ends at a
semicolon. -/
theorem memberSites_of_statement (isPublic : Bool) {t : Token} {ts : List Token}
    (hclose : ¬t.isClose = true) (hskip : ¬(t.isComment || t.reads ";") = true)
    (haccess : accessLabel? t ts = none) {s : Statement}
    (hs : Statement.read 0 false none (t :: ts) = s) :
    memberSites isPublic (t :: ts) =
      (if isPublic && s.kind = .simple then [⟨t.line, s.tokens, trailing? s.rest⟩] else []) ++
        memberSites isPublic (s.rest.drop (trailing? s.rest).toList.length) := by
  rw [memberSites, if_neg hclose, if_neg hskip]
  simp only [haccess, hs]
  split <;> rfl

theorem memberSites_map (isPublic : Bool) :
    memberSites isPublic (ts.map f) = (memberSites isPublic ts).map (MemberSite.map f φ) := by
  have hmap : ∀ {isPublic : Bool} {t : Token} {ts : List Token}, ¬t.isClose = true →
      ¬(t.isComment || t.reads ";") = true → accessLabel? t ts = none → ∀ {s : Statement},
      Statement.read 0 false none (t :: ts) = s → memberSites isPublic ((t :: ts).map f) =
        (if isPublic && s.kind = .simple then
          [MemberSite.map f φ ⟨t.line, s.tokens, trailing? s.rest⟩] else []) ++
          memberSites isPublic ((s.rest.drop (trailing? s.rest).toList.length).map f) := by
    intro isPublic t ts hclose hskip haccess s hs
    have hread : Statement.read 0 false none ((t :: ts).map f) = s.map f :=
      (Statement.read_map hf (t :: ts) 0 false none).trans (congrArg (Statement.map f) hs)
    have hrest : (s.rest.drop (trailing? s.rest).toList.length).map f =
        (s.map f).rest.drop (trailing? (s.map f).rest).toList.length := by
      rw [Statement.map, trailing?_map hf, List.map_drop]
      cases trailing? s.rest <;> rfl
    have hclose' : ¬(f t).isClose = true := by rwa [hf.isClose]
    have hskip' : ¬((f t).isComment || (f t).reads ";") = true := by
      rwa [hf.isComment, hf.reads t (by decide)]
    have haccess' : accessLabel? (f t) (ts.map f) = none := by rw [accessLabel?_map hf, haccess]
    have hsites := memberSites_of_statement isPublic hclose' hskip' haccess' hread
    rw [List.map_cons, hsites, hrest, MemberSite.map, ← trailing?_map hf, hf.line]
    rfl
  fun_induction memberSites isPublic ts with
  | case1 => rw [List.map_nil, memberSites]; rfl
  | case2 isPublic t ts hclose =>
    rw [List.map_cons, memberSites, hf.isClose, if_pos hclose]; rfl
  | case3 isPublic t ts hclose hskip ih =>
    rw [List.map_cons, memberSites, hf.isClose, if_neg hclose, hf.isComment, hf.reads t (by decide),
      if_pos hskip, ih]
  | case4 isPublic t ts hclose hskip access haccess ih =>
    rw [List.map_cons, memberSites, hf.isClose, if_neg hclose, hf.isComment, hf.reads t (by decide),
      if_neg hskip, accessLabel?_map hf, haccess]
    rw [List.map_tail] at ih
    exact ih
  | case5 isPublic t ts hclose hskip haccess s trailing sites hsite ih =>
    rw [hmap hclose hskip haccess rfl, if_pos hsite, ih]
    rfl
  | case6 isPublic t ts hclose hskip haccess s trailing sites hsite ih =>
    rw [hmap hclose hskip haccess rfl, if_neg hsite, ih]
    rfl

/-! ### Members -/

theorem afterBrackets_map (depth : Nat) :
    afterBrackets depth (ts.map f) = (afterBrackets depth ts).map f := by
  induction ts generalizing depth with
  | nil => rfl
  | cons t ts ih =>
    simp (disch := decide) only [List.map_cons, afterBrackets, hf.reads, ih]
    split <;> rfl

theorem withoutAttributes_map : withoutAttributes (ts.map f) = (withoutAttributes ts).map f := by
  fun_induction withoutAttributes ts with
  | case1 => rw [List.map_nil, withoutAttributes]
  | case2 t => rw [List.map_singleton, withoutAttributes]
  | case3 t u ts hopen ih =>
    simp (disch := decide) only [List.map_cons, withoutAttributes, hf.reads, hopen, if_true,
      afterBrackets_map hf, ih]
  | case4 t u ts hopen ih =>
    rw [List.map_cons, List.map_cons, withoutAttributes, hf.reads t (by decide),
      hf.reads u (by decide), if_neg hopen, ← List.map_cons, ih]
    rfl

theorem MemberSite.code_map (s : MemberSite) : (s.map f φ).code = s.code.map f := by
  have hcode : (fun t : Token => !(f t).isComment) = fun t => !t.isComment :=
    funext fun t => by rw [hf.isComment]
  rw [code, code, ← withoutAttributes_map hf, map]
  simp only [List.filter_map, Function.comp_def, hcode]

theorem declarator?_map (angles : Nat) : declarator? angles (ts.map f) =
    (declarator? angles ts).map fun parts => (parts.1.map f, parts.2.map f) := by
  induction ts generalizing angles with
  | nil => rfl
  | cons t ts ih =>
    simp (disch := decide) only [List.map_cons, declarator?, hf.reads, ih]
    split_ifs <;> simp [Function.comp_def]

theorem hasTopLevelComma_map (depth : Nat) :
    hasTopLevelComma depth (ts.map f) = hasTopLevelComma depth ts := by
  induction ts generalizing depth with
  | nil => rfl
  | cons t ts ih =>
    simp (disch := decide) only [List.map_cons, hasTopLevelComma, hf.reads, ih]

theorem spelling_map (h : ∀ t ∈ ts, (f t).text = t.text) : spelling (ts.map f) = spelling ts := by
  fun_induction spelling ts with
  | case1 => rfl
  | case2 t => exact h t List.mem_cons_self
  | case3 t u ts ih =>
    have hrest := ih fun v hv => h v (List.mem_cons_of_mem t hv)
    rw [List.map_cons] at hrest
    rw [List.map_cons, List.map_cons, spelling, h t List.mem_cons_self, hf.isWordLike, hf.isWordLike,
      hf.reads t (by decide), hrest]

/-- The tag text behind a statement is read from a comment. -/
theorem tagText?_map {trailing : Option Token} (h : ∀ t ∈ trailing, t.isComment = true) :
    tagText? (trailing.map f) = tagText? trailing := by
  cases trailing with
  | none => rfl
  | some t => exact hf.memberText? t (h t rfl)

theorem contains_map (h : t.isComment = false) :
    nonMemberKeywords.contains (f t).text = nonMemberKeywords.contains t.text := by
  have hkind : (t.kind != .comment) = true := by simpa [Token.isComment] using h
  have hreads : ∀ u : Token, u.kind = t.kind → nonMemberKeywords.contains u.text =
      nonMemberKeywords.any fun k => u.reads k := by
    intro u hu
    simp only [Token.reads, hu, hkind, Bool.true_and, List.contains_eq_any_beq]
  rw [hreads t rfl, hreads (f t) (hf.kind t), Bool.eq_iff_iff, List.any_eq_true, List.any_eq_true]
  refine exists_congr fun k => and_congr_right fun hk => ?_
  rw [hf.reads t ((by decide : ∀ k ∈ nonMemberKeywords, k.toList.any isQuote = false) k hk)]

omit hf in
/-- Code whose declarator and initial value are `parts`, and whose name is `name`, declares a
member. -/
def declaresMember (code : List Token) (parts : List Token × List Token) (name : Token) : Bool :=
  (code.head?.map fun t => !(nonMemberKeywords.contains t.text)).getD false &&
    !(code.any fun t => t.reads "(" || t.reads "~") &&
    (name.kind == .word && parts.1.dropLast.any fun t => t.kind == .word) &&
    !(hasTopLevelComma 0 parts.2)

omit hf in
theorem kind_of_declaresMember {code : List Token} {parts : List Token × List Token} {name : Token}
    (h : declaresMember code parts name = true) : name.kind = .word := by
  simp only [declaresMember, Bool.and_eq_true, beq_iff_eq] at h
  exact h.1.2.1

theorem declaresMember_map {code : List Token} (h : ∀ t ∈ code, t.isComment = false)
    (parts : List Token × List Token) (name : Token) :
    declaresMember (code.map f) (parts.1.map f, parts.2.map f) (f name) =
      declaresMember code parts name := by
  have hhead : ((code.map f).head?.map fun t => !(nonMemberKeywords.contains t.text)).getD false =
      (code.head?.map fun t => !(nonMemberKeywords.contains t.text)).getD false := by
    cases code with
    | nil => rfl
    | cons t ts =>
      have hsame := contains_map hf t (h t List.mem_cons_self)
      simp only [List.map_cons, List.head?_cons, Option.map_some, hsame]
  have hany : ((code.map f).any fun t => t.reads "(" || t.reads "~") =
      code.any fun t => t.reads "(" || t.reads "~" := by
    rw [List.any_map]
    simp (disch := decide) only [Function.comp_def, hf.reads]
  have hword : ((parts.1.map f).dropLast.any fun t => t.kind == .word) =
      parts.1.dropLast.any fun t => t.kind == .word := by
    rw [← List.map_dropLast, List.any_map]
    simp only [Function.comp_def, hf.kind]
  simp only [declaresMember, hhead, hany, hword, hasTopLevelComma_map hf, hf.kind]

omit hf in
theorem guard_bind {α : Type} (b : Bool) (g : Unit → Option α) :
    (guard (b = true) : Option Unit).bind g = if b then g () else none := by
  cases b <;> rfl

omit hf in
theorem Member.ofCode?_eq (source : List Char) (code : List Token) (trailing : Option Token) :
    Member.ofCode? source code trailing =
      (declarator? 0 code).bind fun parts => parts.1.getLast?.bind fun name =>
        if declaresMember code parts name then some {
          name := name.text
          type := spelling parts.1.dropLast
          initial := initialText source parts.2
          line := name.line
          tags := ((tagText? trailing).map (MemberTags.ofText name.text)).getD {} }
        else none := by
  cases code with
  | nil => rfl
  | cons t ts =>
    simp only [Member.ofCode?, Option.bind_eq_bind, Option.pure_def, List.head?_cons,
      Option.bind_some]
    cases declarator? 0 (t :: ts) with
    | none => simp [guard]
    | some parts =>
      simp only [Option.bind_some]
      cases hname : parts.1.getLast? with
      | none => simp
      | some name =>
        simp only [Option.bind_some, guard_bind]
        simp only [declaresMember, List.head?_cons, Option.map_some, Option.getD_some,
          Bool.and_eq_true, ite_and]

omit hf in
theorem MemberSite.isComment_of_mem_code {s : MemberSite} (h : t ∈ s.code) :
    t.isComment = false := by
  have hmem := (withoutAttributes_sublist _).subset h
  simpa using (List.mem_filter.1 hmem).2

omit hf in
theorem isComment_of_mem_memberSites {isPublic : Bool} {ts : List Token} {s : MemberSite}
    (hs : s ∈ memberSites isPublic ts) : ∀ t ∈ s.trailing, t.isComment = true := by
  have htrailing : ∀ {ts : List Token}, ∀ t ∈ trailing? ts, t.isComment = true := by
    intro ts t ht
    cases ts with
    | nil => cases ht
    | cons u ts =>
      rw [trailing?] at ht
      split at ht
      · next hcomment =>
        cases ht
        exact (Bool.and_eq_true_iff.1 hcomment).1
      · cases ht
  fun_induction memberSites isPublic ts with
  | case1 => cases hs
  | case2 => cases hs
  | case3 _ _ _ _ _ ih => exact ih hs
  | case4 _ _ _ _ _ _ _ ih => exact ih hs
  | case5 _ _ _ _ _ _ _ _ _ _ ih =>
    rcases List.mem_cons.1 hs with rfl | hs
    · exact htrailing
    · exact ih hs
  | case6 _ _ _ _ _ _ _ _ _ _ ih => exact ih hs

/-! ### Members with their initial values -/

omit hf in
/-- A member whose line is told by `φ`. -/
def Member.relined (φ : Nat → Nat) (m : Member) : Member := { m with line := φ m.line }

omit hf in
/-- The part of the source between two of the tokens is the same behind the map. -/
def KeepsSlices (f : Token → Token) (source source' : List Char) (ts : List Token) : Prop :=
  ∀ t ∈ ts, ∀ u ∈ ts, slice (f t).start (f u).stop source' = slice t.start u.stop source

section

variable {source source' : List Char} {ts}

omit hf in
theorem KeepsSlices.mono (h : KeepsSlices f source source' ts) {us : List Token} (hus : us ⊆ ts) :
    KeepsSlices f source source' us := fun t ht u hu => h t (hus ht) u (hus hu)

omit hf in
theorem sourceOf_map (h : KeepsSlices f source source' ts) :
    sourceOf source' (ts.map f) = sourceOf source ts := by
  rw [sourceOf, sourceOf, List.head?_map, List.getLast?_map]
  cases hfirst : ts.head? with
  | none => rfl
  | some first =>
    cases hlast : ts.getLast? with
    | none => rfl
    | some last =>
      simp only [Option.map_some]
      rw [h first (List.mem_of_mem_head? hfirst) last (List.mem_of_getLast? hlast)]

theorem initialText_map (h : KeepsSlices f source source' ts) :
    initialText source' (ts.map f) = initialText source ts := by
  cases ts with
  | nil => rfl
  | cons t ts =>
    rw [List.map_cons, initialText, initialText, hf.reads t (by decide), ← List.map_cons,
      sourceOf_map h, sourceOf_map (h.mono (List.subset_cons_self t ts))]

/-- The member that the images of code declare. -/
theorem Member.ofCode?_map {code : List Token} {trailing : Option Token}
    (hcode : ∀ t ∈ code, t.isComment = false) (htext : ∀ t ∈ code, (f t).text = t.text)
    (hslices : KeepsSlices f source source' code) (htrailing : ∀ t ∈ trailing, t.isComment = true) :
    Member.ofCode? source' (code.map f) (trailing.map f) =
      (Member.ofCode? source code trailing).map (relined φ) := by
  rw [Member.ofCode?_eq, Member.ofCode?_eq, tagText?_map hf htrailing, declarator?_map hf]
  cases hparts : declarator? 0 code with
  | none => rfl
  | some parts =>
    have happend := declarator?_append hparts
    have htype : parts.1.dropLast ⊆ code :=
      List.Subset.trans (List.dropLast_subset _) (happend ▸ List.subset_append_left _ _)
    have hinitial : parts.2 ⊆ code := happend ▸ List.subset_append_right _ _
    simp only [Option.map_some, Option.bind_some, List.getLast?_map]
    cases hname : parts.1.getLast? with
    | none => rfl
    | some name =>
      simp only [Option.map_some, Option.bind_some, declaresMember_map hf hcode]
      split
      · next hdeclares =>
        rw [hf.text_of_word name (kind_of_declaresMember hdeclares), ← List.map_dropLast,
          spelling_map hf _ fun t ht => htext t (htype ht), initialText_map hf (hslices.mono hinitial),
          hf.line]
        rfl
      · rfl

theorem MemberSite.member?_map {s : MemberSite} (htext : ∀ t ∈ s.tokens, (f t).text = t.text)
    (hslices : KeepsSlices f source source' s.tokens)
    (htrailing : ∀ t ∈ s.trailing, t.isComment = true) :
    (s.map f φ).member? source' = (s.member? source).map (Member.relined φ) := by
  have hcode : s.code ⊆ s.tokens :=
    List.Subset.trans (withoutAttributes_sublist _).subset (List.filter_subset_self _)
  rw [member?, member?, code_map hf]
  exact Member.ofCode?_map hf (fun t ht => isComment_of_mem_code t ht) (fun t ht => htext t (hcode ht))
    (hslices.mono hcode) htrailing

end

/-! ### The walk -/

omit hf in
/-- A class site of the images. -/
def ClassSite.map (f : Token → Token) (φ : Nat → Nat) (s : ClassSite) : ClassSite :=
  { s with name := f s.name, sites := s.sites.map (MemberSite.map f φ) }

omit hf in
/-- What is met in the images. -/
def Finding.map (f : Token → Token) (φ : Nat → Nat) : Finding → Finding
  | opened block => opened block
  | stray line => stray (φ line)
  | defined site => defined (site.map f φ)
  | dangling => dangling

omit hf in
theorem site?_finishing (waiting : Option (List TagLine)) :
    (finishing waiting).filterMap Finding.site? = [] := by
  cases waiting with
  | none => rfl
  | some block =>
    rw [finishing]
    split <;> rfl

omit hf in
theorem map_finishing (waiting : Option (List TagLine)) :
    (finishing waiting).map (Finding.map f φ) = finishing waiting := by
  cases waiting with
  | none => rfl
  | some block =>
    rw [finishing]
    split <;> rfl

/-- **The walk over the images of tokens meets the images of what it meets in the tokens.** -/
theorem findings_map (before : Option Token) (scopes : List Scope)
    (waiting : Option (List TagLine)) : findings (before.map f) scopes waiting (ts.map f) =
      (findings before scopes waiting ts).map (Finding.map f φ) := by
  have hspaceWord : ∀ t : Token, (f t).reads "namespace" = t.reads "namespace" := fun t =>
    hf.reads t (by decide)
  have hstructWord : ∀ t : Token, (f t).reads "struct" = t.reads "struct" := fun t =>
    hf.reads t (by decide)
  have hclassWord : ∀ t : Token, (f t).reads "class" = t.reads "class" := fun t =>
    hf.reads t (by decide)
  fun_induction findings before scopes waiting ts with
  | case1 before scopes waiting => rw [List.map_nil, findings.eq_def, map_finishing]
  | case2 before scopes waiting t ts hcomment hnone ih =>
    rw [List.map_cons, findings.eq_def]
    simp only [hf.isComment, if_pos hcomment, hf.tagLine?, hnone]
    exact ih
  | case3 before scopes t ts hcomment line block hline ih =>
    rw [List.map_cons, findings.eq_def]
    simp only [hf.isComment, if_pos hcomment, hf.tagLine?, hline, hf.line]
    exact congrArg _ ih
  | case4 before scopes t ts hcomment line hline ih =>
    rw [List.map_cons, findings.eq_def]
    simp only [hf.isComment, if_pos hcomment, hf.tagLine?, hline, tagRun_map hf]
    exact congrArg _ ih
  | case5 before scopes waiting t ts hcomment hspace ih =>
    rw [List.map_cons, findings.eq_def]
    simp only [hf.isComment, hcomment, hspaceWord, hspace, namespaceHead_map hf]
    exact ih
  | case6 before scopes waiting t ts hcomment hspace hopen ih =>
    rw [List.map_cons, findings.eq_def]
    simp only [hf.isComment, hcomment, hspaceWord, hspace, hf.isOpen, hopen]
    exact ih
  | case7 before scopes waiting t ts hcomment hspace hopen hclose ih =>
    rw [List.map_cons, findings.eq_def]
    simp only [hf.isComment, hcomment, hspaceWord, hspace, hf.isOpen, hopen, hf.isClose, hclose]
    exact ih
  | case8 before scopes t ts hcomment hspace hopen hclose hkeyword block name body hhead ih =>
    have hmap : classHead? (before.map f) (ts.map f) = some (f name, body.map f) := by
      rw [classHead?_map hf, hhead, Option.map_some]
    rw [List.map_cons, findings.eq_def]
    simp only [hf.isComment, hcomment, hspaceWord, hspace, hf.isOpen, hopen, hf.isClose, hclose,
      hstructWord, hclassWord, hkeyword, Bool.false_eq_true, if_false, if_true]
    split
    · next block' name' body' hblock hbody =>
      cases hblock
      cases hmap.symm.trans hbody
      have hsites := memberSites_map hf body.tail (t.reads "struct")
      rw [List.map_tail] at hsites
      rw [List.map_cons, ← ih, hsites]
      rfl
    · next hno => exact absurd hmap (hno block (f name) (body.map f) rfl)
  | case9 before scopes waiting t ts hcomment hspace hopen hclose hkeyword hnone ih =>
    rw [List.map_cons, findings.eq_def]
    simp only [hf.isComment, hcomment, hspaceWord, hspace, hf.isOpen, hopen, hf.isClose, hclose,
      hstructWord, hclassWord, hkeyword, Bool.false_eq_true, if_false, if_true]
    split
    · next block name body hbody =>
      rw [classHead?_map hf] at hbody
      obtain ⟨⟨name', body'⟩, hhead, -⟩ := Option.map_eq_some_iff.1 hbody
      exact absurd hhead (hnone block name' body' rfl)
    · exact ih
  | case10 before scopes waiting t ts hcomment hspace hopen hclose hkeyword ih =>
    rw [List.map_cons, findings.eq_def]
    simp only [hf.isComment, hcomment, hspaceWord, hspace, hf.isOpen, hopen, hf.isClose, hclose,
      hstructWord, hclassWord, hkeyword, Bool.false_eq_true, if_false]
    exact ih

end

end RowMapping
