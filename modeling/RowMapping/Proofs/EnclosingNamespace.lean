import Mathlib.Data.List.DropRight
import RowMapping.Proofs.LineByLine
import RowMapping.Proofs.Nested
/-!
# The namespace around a class

The walk over a header keeps a stack of open scopes while it jumps over the heads of namespaces and
of classes.  The stack can be told from the text alone: a brace is open at a place when the text
between them does not close it, and it opens a namespace when the word `namespace` and nothing but
a name stand in front of it.

* `StaysOpen`, `strayClosers`: braces that are not closed, and closing braces that close nothing;
* `namespaceName?`: the name of the namespace that a brace opens, from the tokens in front of it;
* `scopesAround`: the scopes that are open behind some tokens, the outermost first;
* `scopesBehind`, `scopesBehind_eq`: the same, kept as a stack;
* `PlainHeads`: no class head holds a brace or the word `namespace`;
* `enclosedIn_of_mem_findings`: the stack of the walk is the one of the text;
* `declaredClasses_scope`: the namespace of a class is the one that encloses its keyword.
-/

namespace RowMapping

open Declaration Text Token

/-! ### Braces that stay open -/

/-- A brace in front of the tokens stays open: no beginning of them closes more than it opens. -/
def StaysOpen (ts : List Token) : Prop := ∀ a, a <+: ts → a.countP isClose ≤ a.countP isOpen

/-- The number of closing braces that close nothing among the tokens. -/
def strayClosers : List Token → Nat
  | [] => 0
  | t :: ts =>
    if t.isOpen then strayClosers ts - 1
    else if t.isClose then strayClosers ts + 1
    else strayClosers ts

section

variable {t : Token} {a ts : List Token} {k : Nat}

theorem isClose_of_isOpen (h : t.isOpen = true) : t.isClose = false := reads_of_ne h (by decide)

theorem forall_prefix_cons {P : List Token → Prop} :
    (∀ a, a <+: t :: ts → P a) ↔ P [] ∧ ∀ a, a <+: ts → P (t :: a) := by
  simp only [List.prefix_cons_iff]
  exact ⟨fun h => ⟨h [] (.inl rfl), fun a ha => h (t :: a) (.inr ⟨a, rfl, ha⟩)⟩,
    fun h _ ha => ha.elim (fun ha => ha ▸ h.1) fun ⟨a, ha, hts⟩ => ha ▸ h.2 a hts⟩

theorem strayClosers_le_iff :
    strayClosers ts ≤ k ↔ ∀ a, a <+: ts → a.countP isClose ≤ a.countP isOpen + k := by
  induction ts generalizing k with
  | nil => simp [strayClosers]
  | cons t ts ih =>
    rw [forall_prefix_cons, strayClosers]
    simp only [List.countP_nil, List.countP_cons]
    split
    · next hopen =>
      rw [Nat.sub_le_iff_le_add, ih]
      simp [isClose_of_isOpen hopen, Nat.add_assoc, Nat.add_comm 1]
    · split
      · cases k with
        | zero =>
          -- the brace itself is one closing brace too many
          refine iff_of_false (Nat.not_succ_le_zero _) fun h => ?_
          have hself := h.2 [] List.nil_prefix
          simp at hself
        | succ k =>
          rw [Nat.add_le_add_iff_right, ih]
          simp [← Nat.add_assoc]
      · rw [ih]
        simp

theorem staysOpen_iff : StaysOpen ts ↔ strayClosers ts = 0 := by
  rw [← Nat.le_zero, strayClosers_le_iff]
  rfl

instance (ts : List Token) : Decidable (StaysOpen ts) := decidable_of_iff _ staysOpen_iff.symm

end

/-! ### Scopes from the text -/

/-- The head of a namespace goes on with the token: an identifier, a scope sign or a comment. -/
def Token.isInHead (t : Token) : Bool :=
  !t.isOpen && (t.kind == .word || t.reads "::" || t.isComment)

/-- The name of the namespace that a brace behind the tokens opens.  The tokens end with the word
`namespace` and identifiers, scope signs and comments; the name is made of the former two. -/
def namespaceName? (front : List Token) : Option String :=
  match (front.rtakeWhile isInHead).dropWhile fun t => !t.reads "namespace" with
  | [] => none
  | _ :: head => some (String.join ((head.filter fun t => !t.isComment).map Token.text))

/-- The scope that a brace behind the tokens opens. -/
def scopeAt (front : List Token) : Scope :=
  match namespaceName? front with
  | some name => .named name
  | none => .block

/-- The scopes that are opened by the tokens behind `front` and not closed by them, the outermost
first. -/
def scopesAround (front : List Token) : List Token → List Scope
  | [] => []
  | t :: ts =>
    if t.isOpen ∧ StaysOpen ts then scopeAt front :: scopesAround (front ++ [t]) ts
    else scopesAround (front ++ [t]) ts

/-- The scopes that are open behind more tokens, the innermost first, where `scopes` are those that
are open behind `front`. -/
def scopesBehind (front : List Token) (scopes : List Scope) : List Token → List Scope
  | [] => scopes
  | t :: ts =>
    scopesBehind (front ++ [t])
      (if t.isOpen then scopeAt front :: scopes else if t.isClose then scopes.tail else scopes) ts

section

variable {t : Token} {a ts front : List Token} {scopes : List Scope}

/-- The stack holds the scopes that stay open, on top of those that no stray brace closes. -/
theorem scopesBehind_eq (front : List Token) (scopes : List Scope) (ts : List Token) :
    scopesBehind front scopes ts =
      (scopesAround front ts).reverse ++ scopes.drop (strayClosers ts) := by
  induction ts generalizing front scopes with
  | nil => rfl
  | cons t ts ih =>
    rw [scopesBehind, scopesAround, strayClosers, ih]
    split
    · next hopen =>
      cases hstray : strayClosers ts with
      | zero => simp [hopen, staysOpen_iff, hstray]
      | succ n => simp [hopen, staysOpen_iff, hstray]
    · next hopen =>
      split
      · simp [hopen, ← List.drop_one, List.drop_drop, Nat.add_comm 1]
      · simp [hopen]

theorem scopesBehind_append (front : List Token) (scopes : List Scope) (a ts : List Token) :
    scopesBehind front scopes (a ++ ts) =
      scopesBehind (front ++ a) (scopesBehind front scopes a) ts := by
  induction a generalizing front scopes with
  | nil => simp [scopesBehind]
  | cons t a ih => rw [List.cons_append, scopesBehind, ih, scopesBehind, List.append_assoc]; rfl

/-- Tokens without braces leave the scopes as they are. -/
theorem scopesBehind_of_plain (h : ∀ t ∈ ts, t.isOpen = false ∧ t.isClose = false) :
    scopesBehind front scopes ts = scopes := by
  induction ts generalizing front with
  | nil => rfl
  | cons t ts ih =>
    obtain ⟨⟨hopen, hclose⟩, hts⟩ := List.forall_mem_cons.1 h
    rw [scopesBehind, if_neg (by simp [hopen]), if_neg (by simp [hclose]), ih hts]

end

/-! ### Heads of classes -/

/-- The last token of code. -/
def lastCode (ts : List Token) : Option Token := (ts.filter fun t => !t.isComment).getLast?

/-- The tokens between a class keyword and the brace that opens the body of its class, where the
first of the tokens behind `front` is a keyword with which a class is defined. -/
def headAt? (front : List Token) : List Token → Option (List Token)
  | [] => none
  | t :: ts =>
    if t.reads "struct" || t.reads "class" then
      (classHead? (lastCode front) ts).map fun head => ts.take (ts.length - head.2.length)
    else none

/-- No class head holds a brace or the word `namespace`. -/
def PlainHeads (ts : List Token) : Prop :=
  ∀ front back, ts = front ++ back → ∀ head ∈ headAt? front back, ∀ t ∈ head,
    t.isOpen = false ∧ t.isClose = false ∧ t.reads "namespace" = false

instance (ts : List Token) : Decidable (PlainHeads ts) :=
  decidable_of_iff (∀ i < ts.length + 1, ∀ head ∈ headAt? (ts.take i) (ts.drop i), ∀ t ∈ head,
      t.isOpen = false ∧ t.isClose = false ∧ t.reads "namespace" = false) <| by
    constructor
    · rintro h front back rfl
      simpa using h front.length (by simp only [List.length_append]; omega)
    · exact fun h i _ => h (ts.take i) (ts.drop i) (List.take_append_drop i ts).symm

/-- Of the token in front of its keyword, a class head only tells whether it forbids a class. -/
theorem classHead?_congr {before before' : Option Token}
    (h : (before.map forbidsClass).getD false = (before'.map forbidsClass).getD false)
    (ts : List Token) : classHead? before ts = classHead? before' ts := by
  cases ts with
  | nil => rfl
  | cons name ts => rw [classHead?, classHead?, h]

/-! ### The head of a namespace -/

section

variable {t o : Token} {a front ts : List Token} {source : List Char}

/-- The identifiers and scope signs among the tokens, put together. -/
def headName (head : List Token) : String :=
  String.join ((head.filter fun t => !t.isComment).map Token.text)

theorem headName_cons (t : Token) (head : List Token) :
    headName (t :: head) = if t.isComment then headName head else t.text ++ headName head := by
  rw [headName, List.filter_cons]
  cases t.isComment <;> simp [headName, String.join_cons]

theorem isInHead_of_word (h : t.kind = .word) (hopen : t.isOpen = false) :
    t.isInHead = true := by
  simp [isInHead, h, hopen]

theorem isInHead_of_isComment (h : t.isComment = true) : t.isInHead = true := by
  have hopen : t.isOpen = false := reads_of_isComment h
  simp [isInHead, h, hopen]

theorem isOpen_of_isInHead (h : t.isInHead = true) : t.isOpen = false := by
  simp only [isInHead, Bool.and_eq_true, Bool.not_eq_true'] at h
  exact h.1

theorem isClose_of_isInHead (h : t.isInHead = true) (hword : t.kind = .word → t.isClose = false) :
    t.isClose = false := by
  simp only [isInHead, Bool.and_eq_true, Bool.or_eq_true, beq_iff_eq] at h
  rcases h.2 with (hkind | hscope) | hcomment
  · exact hword hkind
  · exact reads_of_ne hscope (by decide)
  · exact reads_of_isComment hcomment

/-- The head of a namespace is read up to its opening brace, or up to the token that makes it
none. -/
theorem namespaceHead_cases (name : String) (ts : List Token) :
    ∃ head rest, (∀ t ∈ head, t.isInHead = true) ∧
      ((∃ o, o.isOpen = true ∧ ts = head ++ o :: rest ∧
          namespaceHead name ts = (some (name ++ headName head), rest)) ∨
        (∀ t ∈ rest.head?, t.isInHead = false ∧ t.isOpen = false) ∧ ts = head ++ rest ∧
          namespaceHead name ts = (none, rest)) := by
  fun_induction namespaceHead name ts with
  | case1 => exact ⟨[], [], by simp, .inr ⟨by simp, rfl, rfl⟩⟩
  | case2 name t ts hopen => exact ⟨[], ts, by simp, .inl ⟨t, hopen, rfl, by simp [headName]⟩⟩
  | case3 name t ts hopen hword ih =>
    obtain ⟨head, rest, hhead, hends⟩ := ih
    have hcomment : t.isComment = false := by
      rcases Bool.or_eq_true_iff.1 hword with hword | hscope
      · rw [isComment, beq_iff_eq.1 hword]; rfl
      · exact isComment_of_reads hscope
    have ht : t.isInHead = true := by
      rw [isInHead, hword, isOpen, Bool.eq_false_iff.2 hopen]; rfl
    have hname : headName (t :: head) = t.text ++ headName head := by
      rw [headName_cons, hcomment]; rfl
    refine ⟨t :: head, rest, List.forall_mem_cons.2 ⟨ht, hhead⟩, hends.imp ?_ ?_⟩
    · rintro ⟨o, ho, rfl, hread⟩
      exact ⟨o, ho, rfl, by rw [hread, hname, String.append_assoc]⟩
    · rintro ⟨hnext, rfl, hread⟩
      exact ⟨hnext, rfl, hread⟩
  | case4 name t ts hopen hword hcomment ih =>
    obtain ⟨head, rest, hhead, hends⟩ := ih
    have hname : headName (t :: head) = headName head := by
      rw [headName_cons, hcomment]; rfl
    refine ⟨t :: head, rest, List.forall_mem_cons.2 ⟨isInHead_of_isComment hcomment, hhead⟩,
      hends.imp ?_ ?_⟩
    · rintro ⟨o, ho, rfl, hread⟩
      exact ⟨o, ho, rfl, by rw [hread, hname]⟩
    · rintro ⟨hnext, rfl, hread⟩
      exact ⟨hnext, rfl, hread⟩
  | case5 name t ts hopen hword hcomment =>
    refine ⟨[], t :: ts, by simp, .inr ⟨?_, rfl, rfl⟩⟩
    rintro _ ⟨⟩
    refine ⟨?_, Bool.eq_false_iff.2 hopen⟩
    rw [isInHead, Bool.eq_false_iff.2 hword, Bool.eq_false_iff.2 hcomment, Bool.or_self,
      Bool.and_false]

/-- No word `namespace` is left whose head could go on behind the tokens. -/
def ClosedHead (front : List Token) : Prop :=
  ∀ t ∈ front.rtakeWhile isInHead, t.reads "namespace" = false

theorem scopeAt_of_closedHead (h : ClosedHead front) : scopeAt front = .block := by
  have hnone : (front.rtakeWhile isInHead).dropWhile (fun t => !t.reads "namespace") = [] :=
    List.dropWhile_eq_nil_iff.2 fun t ht => by rw [h t ht]; rfl
  rw [scopeAt, namespaceName?, hnone]

theorem rtakeWhile_append_of_all (h : ∀ t ∈ a, t.isInHead = true) (front : List Token) :
    (front ++ a).rtakeWhile isInHead = front.rtakeWhile isInHead ++ a := by
  rw [List.rtakeWhile, List.reverse_append, List.takeWhile_append_of_pos (by simpa using h),
    List.reverse_append, List.reverse_reverse, List.rtakeWhile]

theorem ClosedHead.concat (h : ClosedHead front ∨ t.isInHead = false)
    (ht : t.reads "namespace" = false) : ClosedHead (front ++ [t]) := by
  intro u hu
  cases hhead : t.isInHead with
  | false =>
    rw [List.rtakeWhile_concat_neg _ _ _ (by simp [hhead])] at hu
    cases hu
  | true =>
    rw [List.rtakeWhile_concat_pos _ _ _ hhead, List.mem_append, List.mem_singleton] at hu
    rcases hu with hu | rfl
    · exact h.resolve_right (by simp [hhead]) u hu
    · exact ht

theorem ClosedHead.append (h : ClosedHead front) (ha : ∀ t ∈ a, t.reads "namespace" = false) :
    ClosedHead (front ++ a) := by
  induction a generalizing front with
  | nil => rwa [List.append_nil]
  | cons t a ih =>
    obtain ⟨ht, ha⟩ := List.forall_mem_cons.1 ha
    rw [List.append_cons]
    exact ih (.concat (.inl h) ht) ha

theorem scopeAt_of_namespace (h : ClosedHead front) (ht : t.reads "namespace" = true)
    (hword : t.isInHead = true) (ha : ∀ u ∈ a, u.isInHead = true) :
    scopeAt (front ++ t :: a) = .named (headName a) := by
  have hrun : (front ++ t :: a).rtakeWhile isInHead = front.rtakeWhile isInHead ++ t :: a :=
    rtakeWhile_append_of_all (List.forall_mem_cons.2 ⟨hword, ha⟩) front
  have hdrop : ((front ++ t :: a).rtakeWhile isInHead).dropWhile
      (fun u => !u.reads "namespace") = t :: a := by
    rw [hrun, List.dropWhile_append_of_pos fun u hu => by rw [h u hu]; rfl,
      List.dropWhile_cons_of_neg (by simp [ht])]
  rw [scopeAt, namespaceName?, hdrop]
  rfl

/-- A token that reads a keyword is a word. -/
theorem kind_of_reads {text : String} (ht : t ∈ Token.ofText source) (hread : t.reads text = true)
    (hstart : text.toList.head?.any isNameStart = true) (hquote : '"' ∉ text.toList) :
    t.kind = .word := by
  obtain ⟨l, hl, hkind, htext⟩ := exists_lexeme_of_mem_located ht
  obtain ⟨rest, hfits⟩ := exists_fits hl
  have heq : l.text = text.toList := by
    simp only [reads, Bool.and_eq_true, beq_iff_eq] at hread
    rw [← htext, hread.2]
  rw [← heq] at hstart hquote
  have hdigit : ∀ c, isDigit c = true → isNameStart c = false := fun c hc =>
    Bool.eq_false_iff.2 fun hname => by rw [isDigit_of_isNameStart hname] at hc; cases hc
  cases hfits with
  | word => exact (Option.some.inj hkind).symm
  | number hc => simp [hdigit _ (Lexeme.isDigit_of_isAsciiDigit hc)] at hstart
  | foreignNumber hc => simp [hdigit _ hc] at hstart
  | @literal shape =>
    rename_i hshape _
    cases shape <;> cases hshape <;> exact absurd hstart (by simp; decide)
  | raw => simp at hquote
  | mark hc =>
    simp only [isMark, Bool.not_eq_true', Bool.or_eq_false_iff] at hc
    simp [hc.1.1.2] at hstart
  | doubleColon | colon | slash | lineComment => exact absurd hstart (by simp; decide)
  | blank | closedComment | openComment | directive => cases hkind

end

/-! ### The walk -/

section

variable {before : Option Token} {scopes : List Scope} {waiting : Option (List TagLine)}
  {t : Token} {a front ts all : List Token} {source : List Char}

theorem lastCode_append_comments (ha : ∀ t ∈ a, t.isComment = true) :
    lastCode (front ++ a) = lastCode front := by
  have hnone : a.filter (fun t => !t.isComment) = [] :=
    List.filter_eq_nil_iff.2 fun t ht => by simp [ha t ht]
  rw [lastCode, List.filter_append, hnone, List.append_nil, lastCode]

theorem lastCode_concat (ht : t.isComment = false) : lastCode (front ++ [t]) = some t := by
  simp [lastCode, ht]

/-- A class keyword. -/
def Token.isClassKeyword (t : Token) : Bool := t.reads "struct" || t.reads "class"

/-- The token forbids that the next one defines a class. -/
def forbids (before : Option Token) : Bool := (before.map forbidsClass).getD false

/-- What holds when the walk has passed the tokens `front` and `ts` are next. -/
structure Walked (before : Option Token) (scopes : List Scope) (front ts : List Token) : Prop where
  /-- The stack is the one of the text. -/
  stack : scopes = scopesBehind [] [] front
  /-- No head of a namespace goes on. -/
  head : ClosedHead front ∨ ∀ t ∈ ts.head?, t.isInHead = false ∧ t.isOpen = false
  /-- Where a class keyword is next, the token of code before it is known. -/
  code : forbids before = forbids (lastCode front) ∨
    ∀ t ∈ ts.head?, t.isComment = false ∧ t.isClassKeyword = false

theorem walked_nil (ts : List Token) : Walked none [] [] ts where
  stack := rfl
  head := .inl (by simp [ClosedHead])
  code := .inl rfl

theorem Walked.closedHead (h : Walked before scopes front (t :: ts))
    (ht : t.isInHead = true ∨ t.isOpen = true) : ClosedHead front := by
  refine h.head.resolve_right fun hnext => ?_
  obtain ⟨hhead, hopen⟩ := hnext t rfl
  simp [hhead, hopen] at ht

/-- Comments are passed over. -/
theorem Walked.comments (h : Walked before scopes front (a ++ ts))
    (ha : ∀ t ∈ a, t.isComment = true) : Walked before scopes (front ++ a) ts := by
  cases a with
  | nil => rwa [List.append_nil]
  | cons t a =>
    have ht : t.isComment = true := ha t List.mem_cons_self
    have hbraces : ∀ u ∈ t :: a, u.isOpen = false ∧ u.isClose = false := fun u hu =>
      ⟨reads_of_isComment (ha u hu), reads_of_isComment (ha u hu)⟩
    refine ⟨?_, .inl ?_, .inl ?_⟩
    · rw [scopesBehind_append, ← h.stack, scopesBehind_of_plain hbraces]
    · exact (h.closedHead (.inl (isInHead_of_isComment ht))).append fun u hu =>
        reads_of_isComment (ha u hu)
    · rw [lastCode_append_comments ha]
      refine h.code.resolve_right fun hnext => ?_
      rw [(hnext t rfl).1] at ht
      cases ht

/-- A token of code, but for the word `namespace`, is passed alone. -/
theorem Walked.step (h : Walked before scopes front (t :: ts)) (hcode : t.isComment = false)
    (hspace : t.reads "namespace" = false) :
    Walked (some t) (if t.isOpen then .block :: scopes else if t.isClose then scopes.tail
      else scopes) (front ++ [t]) ts := by
  refine ⟨?_, .inl (.concat (h.head.imp_right fun hnext => (hnext t rfl).1) hspace), .inl ?_⟩
  · rw [scopesBehind_append, ← h.stack, scopesBehind, scopesBehind, List.nil_append]
    split
    · next hopen => rw [scopeAt_of_closedHead (h.closedHead (.inr hopen))]
    · rfl
  · rw [lastCode_concat hcode]

/-- The head of a class without braces is passed as a whole. -/
theorem Walked.classHead {head body : List Token}
    (h : Walked before scopes front (t :: (head ++ body))) (ht : t.isClassKeyword = true)
    (hword : t.kind = .word) (hbody : ∀ u ∈ body.head?, u.isOpen = true)
    (hplain : ∀ u ∈ head, u.isOpen = false ∧ u.isClose = false ∧ u.reads "namespace" = false) :
    Walked (some t) scopes (front ++ t :: head) body := by
  have hreads : ∀ text, text ≠ "struct" → text ≠ "class" → t.reads text = false := by
    intro text hstruct hclass
    rcases Bool.or_eq_true_iff.1 ht with ht | ht
    · exact reads_of_ne ht hstruct.symm
    · exact reads_of_ne ht hclass.symm
  have hopen : t.isOpen = false := hreads _ (by decide) (by decide)
  have hclose : t.isClose = false := hreads _ (by decide) (by decide)
  refine ⟨?_, .inl ?_, .inr fun u hu => ?_⟩
  · rw [scopesBehind_append, ← h.stack, scopesBehind_of_plain]
    exact List.forall_mem_cons.2 ⟨⟨hopen, hclose⟩, fun u hu => ⟨(hplain u hu).1, (hplain u hu).2.1⟩⟩
  · exact (h.closedHead (.inl (isInHead_of_word hword hopen))).append
      (List.forall_mem_cons.2 ⟨hreads _ (by decide) (by decide), fun u hu => (hplain u hu).2.2⟩)
  · have hbrace := hbody u hu
    refine ⟨isComment_of_reads hbrace, ?_⟩
    rw [isClassKeyword, reads_of_ne hbrace (by decide), reads_of_ne hbrace (by decide)]
    rfl

theorem kind_of_isClassKeyword (ht : t ∈ Token.ofText source) (h : t.isClassKeyword = true) :
    t.kind = .word := by
  rcases Bool.or_eq_true_iff.1 h with h | h
  · exact kind_of_reads ht h (by decide) (by decide)
  · exact kind_of_reads ht h (by decide) (by decide)

theorem isClose_of_word (ht : t ∈ Token.ofText source) (h : t.kind = .word) :
    t.isClose = false := by
  refine Bool.eq_false_iff.2 fun hclose => ?_
  have hpart := isNamePart_of_ofText ht h
  simp only [isClose, reads, Bool.and_eq_true, beq_iff_eq] at hclose
  rw [hclose.2] at hpart
  exact absurd (hpart _ List.mem_cons_self) (by decide)

/-- The head of a namespace is passed as a whole, and its brace with it. -/
theorem Walked.namespaceHead (h : Walked before scopes front (t :: ts))
    (ht : t.reads "namespace" = true) (hts : t :: ts ⊆ Token.ofText source) :
    ∃ a, ts = a ++ (namespaceHead "" ts).2 ∧
      Walked none (((namespaceHead "" ts).1.map Scope.named).toList ++ scopes)
        (front ++ t :: a) (namespaceHead "" ts).2 := by
  have hopen : t.isOpen = false := reads_of_ne ht (by decide)
  have hword : t.isInHead = true :=
    isInHead_of_word (kind_of_reads (hts List.mem_cons_self) ht (by decide) (by decide)) hopen
  have hmem : ∀ u ∈ ts, u ∈ Token.ofText source := fun u hu => hts (List.mem_cons_of_mem t hu)
  obtain ⟨head, rest, hhead, hends⟩ := namespaceHead_cases "" ts
  have hsame : (∀ u ∈ head, u ∈ ts) → scopesBehind [] [] (front ++ t :: head) = scopes := by
    intro hsub
    rw [scopesBehind_append, ← h.stack, scopesBehind_of_plain]
    refine List.forall_mem_cons.2 ⟨⟨hopen, reads_of_ne ht (by decide)⟩, fun u hu => ?_⟩
    exact ⟨isOpen_of_isInHead (hhead u hu),
      isClose_of_isInHead (hhead u hu) (isClose_of_word (hmem u (hsub u hu)))⟩
  rcases hends with ⟨o, ho, rfl, hread⟩ | ⟨hnext, rfl, hread⟩
  · -- the brace opens the namespace that the head names
    refine ⟨head ++ [o], by simp [hread], ?_⟩
    have hscope : scopeAt (front ++ t :: head) = .named (headName head) :=
      scopeAt_of_namespace (h.closedHead (.inl hword)) ht hword hhead
    have hforbids : forbids (some o) = false := by
      simp only [forbids, Option.map_some, Option.getD_some, forbidsClass]
      rw [reads_of_ne ho (by decide), reads_of_ne ho (by decide), reads_of_ne ho (by decide),
        reads_of_ne ho (by decide)]
      rfl
    rw [hread, ← List.cons_append, ← List.append_assoc]
    refine ⟨?_, .inl (.concat (.inr ?_) (reads_of_ne ho (by decide))), .inl ?_⟩
    · rw [scopesBehind_append, hsame fun u hu => List.mem_append_left _ hu, scopesBehind,
        scopesBehind, if_pos ho, List.nil_append, hscope, String.empty_append]
      rfl
    · rw [isInHead, ho]; rfl
    · rw [lastCode_concat (isComment_of_reads ho), hforbids]; rfl
  · refine ⟨head, by rw [hread], ?_⟩
    rw [hread]
    refine ⟨(hsame fun u hu => List.mem_append_left _ hu).symm, .inr hnext, .inr fun u hu => ?_⟩
    obtain ⟨hout, huopen⟩ := hnext u hu
    refine ⟨Bool.eq_false_iff.2 fun hcomment => ?_, Bool.eq_false_iff.2 fun hkeyword => ?_⟩
    · rw [isInHead_of_isComment hcomment] at hout
      cases hout
    · have hu := hmem u (List.mem_append_right _ (List.mem_of_mem_head? hu))
      rw [isInHead_of_word (kind_of_isClassKeyword hu hkeyword) huopen] at hout
      cases hout

end

/-! ### The walk -/

section

variable {before : Option Token} {scopes : List Scope} {waiting : Option (List TagLine)}
  {t : Token} {front ts all : List Token} {source : List Char} {site : ClassSite}

/-- The site defines a class behind its keyword in the tokens, and its scope is made of the
namespaces that are open there. -/
def ClassSite.EnclosedIn (s : ClassSite) (ts : List Token) : Prop :=
  ∃ front keyword back, ts = front ++ keyword :: s.name :: back ∧ keyword.isClassKeyword = true ∧
    s.isStruct = keyword.reads "struct" ∧
    s.scope = "::".intercalate ((scopesAround [] front).filterMap Scope.name?)

theorem isComment_of_tagLine? (h : t.tagLine?.isSome = true) : t.isComment = true := by
  rw [tagLine?] at h
  split at h
  · next hcode => exact (Bool.and_eq_true_iff.1 hcode).1
  · cases h

theorem path_scopesBehind (front : List Token) : Scope.path (scopesBehind [] [] front) =
    "::".intercalate ((scopesAround [] front).filterMap Scope.name?) := by
  rw [scopesBehind_eq, List.drop_nil, List.append_nil, Scope.path, List.reverse_reverse]

theorem enclosedIn_of_mem_findings (hplain : PlainHeads (Token.ofText source))
    (hwalked : Walked before scopes front ts) (hsource : Token.ofText source = front ++ ts)
    (h : .defined site ∈ findings before scopes waiting ts) :
    site.EnclosedIn (Token.ofText source) := by
  have hsplit : ∀ {front ts : List Token}, Token.ofText source = front ++ ts →
      ts ⊆ Token.ofText source := fun h => h ▸ List.subset_append_right _ _
  fun_induction findings before scopes waiting ts generalizing front with
  | case1 _ _ waiting => exact absurd h (not_mem_finishing waiting site)
  | case2 before scopes waiting t ts hcomment hnone ih =>
    exact ih (hwalked.comments (a := [t]) (by simpa using hcomment)) (by simpa using hsource) h
  | case3 before scopes t ts hcomment line block hline ih =>
    replace h := List.mem_of_ne_of_mem (by simp) h
    exact ih (hwalked.comments (a := [t]) (by simpa using hcomment)) (by simpa using hsource) h
  | case4 before scopes t ts hcomment line hline ih =>
    replace h := List.mem_of_ne_of_mem (by simp) h
    have hrun : ts.takeWhile (fun u => u.tagLine?.isSome) ++ (tagRun ts).2 = ts :=
      List.takeWhile_append_dropWhile
    have hall : ∀ u ∈ t :: ts.takeWhile (fun u => u.tagLine?.isSome), u.isComment = true :=
      List.forall_mem_cons.2 ⟨hcomment, fun u hu => isComment_of_tagLine? (List.mem_takeWhile_imp
        (p := fun u : Token => u.tagLine?.isSome) hu)⟩
    have hwhole : Walked before scopes front
        ((t :: ts.takeWhile fun u => u.tagLine?.isSome) ++ (tagRun ts).2) := by
      rwa [List.cons_append, hrun]
    exact ih (hwhole.comments hall) (by rw [hsource, List.append_assoc, List.cons_append, hrun]) h
  | case5 before scopes waiting t ts hcomment hspace ih =>
    obtain ⟨a, hts, hmore⟩ := hwalked.namespaceHead hspace (hsplit hsource)
    exact ih hmore (by rw [hsource, List.append_assoc, List.cons_append, ← hts]) h
  | case6 before scopes waiting t ts hcomment hspace hopen ih =>
    have hmore := hwalked.step (Bool.eq_false_iff.2 hcomment) (Bool.eq_false_iff.2 hspace)
    rw [if_pos hopen] at hmore
    exact ih hmore (by simpa using hsource) h
  | case7 before scopes waiting t ts hcomment hspace hopen hclose ih =>
    have hmore := hwalked.step (Bool.eq_false_iff.2 hcomment) (Bool.eq_false_iff.2 hspace)
    rw [if_neg hopen, if_pos hclose] at hmore
    exact ih hmore (by simpa using hsource) h
  | case8 before scopes t ts hcomment hspace hopen hclose hkeyword block name body hhead ih =>
    obtain ⟨-, mid, rfl, hbody⟩ := exists_classHead? hhead
    have ht : t ∈ Token.ofText source := hsplit hsource List.mem_cons_self
    rcases List.mem_cons.1 h with heq | h
    · cases heq
      exact ⟨front, t, mid ++ body, hsource, hkeyword, rfl, by rw [hwalked.stack, path_scopesBehind]⟩
    · have hknown := hwalked.code.resolve_right fun hnext => by
        exact absurd hkeyword (Bool.eq_false_iff.1 (hnext t rfl).2)
      have hheadAt : headAt? front (t :: name :: (mid ++ body)) = some (name :: mid) := by
        rw [headAt?, if_pos hkeyword, ← classHead?_congr hknown, hhead, Option.map_some,
          ← List.cons_append, List.length_append, Nat.add_sub_cancel, List.take_left]
      have hwhole : Walked before scopes front (t :: ((name :: mid) ++ body)) := hwalked
      exact ih (hwhole.classHead hkeyword (kind_of_isClassKeyword ht hkeyword) hbody
        (hplain _ _ hsource _ hheadAt)) (by simpa using hsource) h
  | case9 before scopes waiting t ts hcomment hspace hopen hclose hkeyword hnone ih =>
    have hmore := hwalked.step (Bool.eq_false_iff.2 hcomment) (Bool.eq_false_iff.2 hspace)
    rw [if_neg hopen, if_neg hclose] at hmore
    exact ih hmore (by simpa using hsource) h
  | case10 before scopes waiting t ts hcomment hspace hopen hclose hkeyword ih =>
    have hmore := hwalked.step (Bool.eq_false_iff.2 hcomment) (Bool.eq_false_iff.2 hspace)
    rw [if_neg hopen, if_neg hclose] at hmore
    exact ih hmore (by simpa using hsource) h

end

/-- **The namespace of a class is the one around it.**  In a header without braces or the word
`namespace` in its class heads, every annotated class has the namespace that is made of the names
of the namespaces that are opened before its keyword and not closed before it, the outermost
first. -/
theorem declaredClasses_scope (source : List Char) (h : PlainHeads (Token.ofText source)) :
    ∃ sites : List ClassSite, declaredClasses source = sites.map (ClassSite.declared source) ∧
      ∀ s ∈ sites, s.EnclosedIn (Token.ofText source) := by
  refine ⟨(sourceFindings source).filterMap Finding.site?, rfl, fun s hs => ?_⟩
  obtain ⟨finding, hfinding, hsite⟩ := List.mem_filterMap.1 hs
  cases finding with
  | defined site =>
    cases hsite
    exact enclosedIn_of_mem_findings h (walked_nil _) rfl hfinding
  | _ => cases hsite

/-- A header with a stray brace, an alias, a namespace that is closed, one without a name, and two
that are never closed. -/
def shopHeader : List Char := (
  "\x7d\n" ++
  "namespace shop::api \x7b\n" ++
  "namespace vat = shop::tax;\n" ++
  "namespace old \x7b inline int zero() \x7b return 0; \x7d \x7d\n" ++
  "namespace \x7b\n" ++
  "// @relais table=items\n" ++
  "struct Item \x7b\n" ++
  "    int64_t id;\n" ++
  "\x7d;\n").toList

/-- The class in it is enclosed by the one namespace that is open and has a name. -/
theorem declaredClasses_scope_item : PlainHeads (Token.ofText shopHeader) ∧
    ∃ s : ClassSite, declaredClasses shopHeader = [s.declared shopHeader] ∧
      s.EnclosedIn (Token.ofText shopHeader) ∧ s.scope = "shop::api" := by
  have hsource : shopHeader = _ :=
    toList_append_of_eq (toList_append_of_eq (toList_append_of_eq (toList_append_of_eq
      (toList_append_of_eq (toList_append_of_eq (toList_append_of_eq (toList_append_of_eq
      String.toList_ofList String.toList_ofList) String.toList_ofList) String.toList_ofList)
      String.toList_ofList) String.toList_ofList) String.toList_ofList) String.toList_ofList)
      String.toList_ofList
  have hplain : PlainHeads (Token.ofText shopHeader) := by
    rw [hsource]
    decide +kernel
  obtain ⟨sites, hsites, henclosed⟩ := declaredClasses_scope shopHeader hplain
  have hclasses : (declaredClasses shopHeader).map DeclaredClass.scope = ["shop::api"] := by
    rw [hsource]
    decide +kernel
  rw [hsites, List.map_map] at hclasses
  obtain ⟨s, rfl, hscope⟩ := List.map_eq_singleton_iff.1 hclasses
  exact ⟨hplain, s, hsites, henclosed s List.mem_cons_self, hscope⟩

end RowMapping
