import RowMapping.Proofs.HeaderPlaces
/-!
# Attributes on the head of a class

Attributes stand between the keyword of a class and its name.  They are left out of the declaration
of a member, but not of the head of a class, where the token behind the keyword is taken for the
name.  So a class with attributes is never found under its name: an alignment in front gives the
class its own word as a name, and a group in double brackets hides the class, whose annotations go
to the next one.

* `Attribute`: the tokens of an attribute;
* `headDepth?`: brackets that the search for the body of a class passes;
* `HeadInsertion`: attributes that are inserted into the head of an annotated class;
* `HeadInsertion.name_ne`, `HeadInsertion.classes_of_alignment`, `HeadInsertion.classes_of_group`:
  what becomes of the classes;
* `attributes_on_class_head`: the statement about headers.
-/

namespace RowMapping

open Declaration Text Token

/-- An attribute: a group in double brackets, or an alignment. -/
inductive Attribute
  | group (opening opening' : Token) (inner : List Token) (closing closing' : Token)
  | alignment (word opening : Token) (inner : List Token) (closing : Token)
  deriving DecidableEq, Repr

namespace Attribute

/-- The tokens, in order. -/
def tokens : Attribute → List Token
  | group o o' inner c c' => o :: o' :: (inner ++ [c, c'])
  | alignment word o inner c => word :: o :: (inner ++ [c])

/-- The brackets are nested. -/
def IsWellFormed : Attribute → Prop
  | group o o' inner c c' =>
    o.reads "[" = true ∧ o'.reads "[" = true ∧ Nested inner ∧ c.reads "]" = true ∧
      c'.reads "]" = true
  | alignment word o inner c =>
    word.kind = .word ∧ word.text = "alignas" ∧ o.reads "(" = true ∧ Nested inner ∧
      c.reads ")" = true

instance (g : Attribute) : Decidable g.IsWellFormed := by
  cases g <;> unfold IsWellFormed <;> infer_instance

/-- The attribute is an alignment. -/
def isAlignment : Attribute → Bool
  | alignment .. => true
  | group .. => false

variable {g : Attribute}

theorem nested_tokens (h : g.IsWellFormed) : Nested g.tokens := by
  cases g with
  | group o o' inner c c' =>
    obtain ⟨ho, ho', hinner, hc, hc'⟩ := h
    have hgroup : Nested (o' :: (inner ++ [c])) :=
      .group .square (opens?_eq_some_iff.2 ho') hinner (closes?_eq_some_iff.2 hc) .nil
    have houter : Nested (o :: ((o' :: (inner ++ [c])) ++ [c'])) :=
      .group .square (opens?_eq_some_iff.2 ho) hgroup (closes?_eq_some_iff.2 hc') .nil
    simpa [tokens] using houter
  | alignment word o inner c =>
    obtain ⟨-, htext, ho, hinner, hc⟩ := h
    have hgroup : Nested (o :: (inner ++ [c])) :=
      .group .round (opens?_eq_some_iff.2 ho) hinner (closes?_eq_some_iff.2 hc) .nil
    have hreads : ∀ {text : String}, text ≠ "alignas" → word.reads text = false := by
      intro text hne
      simp [reads, htext, hne.symm]
    refine .plain ?_ ?_ hgroup
    · exact List.find?_eq_none.2 fun k _ => by rw [hreads (by cases k <;> decide)]; simp
    · exact List.find?_eq_none.2 fun k _ => by rw [hreads (by cases k <;> decide)]; simp

/-- An attribute does not start with a scope sign. -/
theorem exists_head (h : g.IsWellFormed) : ∃ t ts, g.tokens = t :: ts ∧ t.reads "::" = false := by
  cases g with
  | group o o' inner c c' => exact ⟨o, _, rfl, reads_of_ne h.1 (by decide)⟩
  | alignment word o inner c => exact ⟨word, _, rfl, by simp [reads, h.2.1]⟩

/-- An attribute ends with a bracket. -/
theorem exists_getLast (h : g.IsWellFormed) :
    ∃ front c, g.tokens = front ++ [c] ∧ c.isClassKeyword = false := by
  have hclose : ∀ {c : Token} {text : String}, c.reads text = true → text ≠ "struct" →
      text ≠ "class" → c.isClassKeyword = false := by
    intro c text hc hstruct hclass
    rw [isClassKeyword, reads_of_ne hc hstruct, reads_of_ne hc hclass]
    rfl
  cases g with
  | group o o' inner c c' =>
    obtain ⟨-, -, -, -, hc'⟩ := h
    exact ⟨o :: o' :: (inner ++ [c]), c', by simp [tokens], hclose hc' (by decide) (by decide)⟩
  | alignment word o inner c =>
    obtain ⟨-, -, -, -, hc⟩ := h
    exact ⟨word :: o :: inner, c, by simp [tokens], hclose hc (by decide) (by decide)⟩

end Attribute

theorem Attribute.nested_flatMap {groups : List Attribute} (h : ∀ g ∈ groups, g.IsWellFormed) :
    Nested (groups.flatMap Attribute.tokens) := by
  induction groups with
  | nil => exact .nil
  | cons g groups ih =>
    obtain ⟨hg, hgroups⟩ := List.forall_mem_cons.1 h
    rw [List.flatMap_cons]
    exact (nested_tokens hg).append (ih hgroups)

/-! ### Searching for a body -/

/-- The number of parentheses and angle brackets that are open behind some tokens, when `depth` were
open in front of them.  There is none when a bracket is closed that was not open, or when a brace, a
semicolon or an equals sign stands outside of them. -/
def headDepth? : Nat → List Token → Option Nat
  | depth, [] => some depth
  | depth, t :: ts =>
    if t.reads "(" || t.reads "<" then headDepth? (depth + 1) ts
    else if t.reads ")" || t.reads ">" then if depth = 0 then none else headDepth? (depth - 1) ts
    else if depth = 0 && (t.reads "\x7b" || t.reads ";" || t.reads "\x7d" || t.reads "=") then none
    else headDepth? depth ts

/-- The search for the body of a class passes such tokens. -/
theorem bodyOf?_append_of_headDepth? {depth depth' : Nat} {ts : List Token}
    (h : headDepth? depth ts = some depth') (more : Nat) (rest : List Token) :
    bodyOf? (depth + more) (ts ++ rest) = bodyOf? (depth' + more) rest := by
  induction ts generalizing depth with
  | nil =>
    cases h
    rfl
  | cons t ts ih =>
    rw [headDepth?] at h
    rw [List.cons_append, bodyOf?]
    split_ifs at h with hopen hclose hzero hstop
    · rw [if_pos hopen, Nat.add_right_comm, ih h]
    · have hdepth : depth + more - 1 = depth - 1 + more := by omega
      rw [if_neg hopen, if_pos hclose, hdepth, ih h]
    · rw [if_neg hopen, if_neg hclose]
      rcases Nat.eq_zero_or_pos (depth + more) with hd | hd
      · -- outside of all brackets, none of the tokens stands here that end the search
        obtain ⟨rfl, rfl⟩ := Nat.add_eq_zero_iff.1 hd
        simp only [decide_true, Bool.true_and, Bool.or_eq_true, not_or, Bool.not_eq_true] at hstop
        simpa [hstop] using ih h
      · have hd' : decide (depth + more = 0) = false := decide_eq_false (by omega)
        rw [hd']
        simpa using ih h

/-- The search for a body passes tokens that leave no bracket open. -/
theorem bodyOf?_append {ts : List Token} (h : headDepth? 0 ts = some 0) (depth : Nat)
    (rest : List Token) : bodyOf? depth (ts ++ rest) = bodyOf? depth rest := by
  have hpass := bodyOf?_append_of_headDepth? h depth rest
  rwa [Nat.zero_add] at hpass

/-- A word of a header reads only what is made of the characters of names. -/
theorem reads_of_word {source : List Char} {t : Token} (ht : t ∈ Token.ofText source)
    (hword : t.kind = .word) {text : String} (htext : text.toList.all isNamePart = false) :
    t.reads text = false := by
  refine Bool.eq_false_iff.2 fun hreads => ?_
  simp only [reads, Bool.and_eq_true, beq_iff_eq] at hreads
  have hall := List.all_eq_true.2 (isNamePart_of_ofText ht hword)
  rw [hreads.2, htext] at hall
  cases hall

/-- The search for a body passes a word. -/
theorem bodyOf?_cons_of_word {source : List Char} {t : Token} (ht : t ∈ Token.ofText source)
    (hword : t.kind = .word) (depth : Nat) (ts : List Token) :
    bodyOf? depth (t :: ts) = bodyOf? depth ts := by
  rw [bodyOf?]
  simp (disch := decide) only [reads_of_word ht hword]
  simp

/-! ### Walking over attributes -/

/-- While a block waits, a token that is no keyword of a class or namespace is passed alone. -/
theorem exists_step_of_plain {s : WalkState} {block : List TagLine} {t : Token}
    (hwaiting : s.waiting = some block) (hspace : t.reads "namespace" = false)
    (hkeyword : t.isClassKeyword = false) (ts : List Token) :
    ∃ found s', Step s (t :: ts) found s' ts ∧ s'.scopes = (s.passing t).scopes ∧
      s'.waiting = some block ∧ found.filterMap Finding.site? = [] := by
  cases hcomment : t.isComment with
  | false =>
    refine ⟨[], s.passing t, .code hcomment hspace fun h => ?_, rfl, hwaiting, rfl⟩
    rw [hkeyword] at h
    cases h
  | true =>
    have hscopes : s.scopes = (s.passing t).scopes := by
      have hopen : t.isOpen = false := reads_of_isComment hcomment
      have hclose : t.isClose = false := reads_of_isComment hcomment
      simp [WalkState.passing, hopen, hclose]
    cases hline : t.tagLine? with
    | none => exact ⟨[], s, .comment hcomment hline, hscopes, hwaiting, rfl⟩
    | some line =>
      exact ⟨[.stray t.line], s, .stray hcomment hline hwaiting, hscopes, hwaiting, rfl⟩

theorem scopes_passing_of_plain {s : WalkState} {t : Token} (hopen : t.opens? = none)
    (hclose : t.closes? = none) : (s.passing t).scopes = s.scopes := by
  simp [WalkState.passing, isOpen_eq, isClose_eq, hopen, hclose]

/-- A bracket takes the scope away that its partner brings. -/
theorem scopes_passing_group {s s' : WalkState} {o c : Token} {b : Bracket}
    (hopen : o.opens? = some b) (hclose : c.closes? = some b)
    (hscopes : s'.scopes = (s.passing o).scopes) : (s'.passing c).scopes = s.scopes := by
  simp only [WalkState.passing] at hscopes ⊢
  rw [hscopes]
  cases b <;>
    simp [isOpen_eq, isClose_eq, hopen, hclose, closes?_of_opens? hopen, opens?_of_closes? hclose]

/-- While a block waits, the walk passes nested tokens without such keywords, and finds no class in
them. -/
theorem exists_comes_append {ts : List Token} (h : Nested ts)
    (hplain : ∀ t ∈ ts, t.reads "namespace" = false ∧ t.isClassKeyword = false) {s : WalkState}
    {block : List TagLine} (hwaiting : s.waiting = some block) (rest : List Token) :
    ∃ found s', Comes s (ts ++ rest) found s' rest ∧ s'.scopes = s.scopes ∧
      s'.waiting = some block ∧ found.filterMap Finding.site? = [] := by
  induction h generalizing s rest with
  | nil => exact ⟨[], s, .here, rfl, hwaiting, rfl⟩
  | @plain t ts hopen hclose hts ih =>
    obtain ⟨ht, hplain⟩ := List.forall_mem_cons.1 hplain
    obtain ⟨found, s₁, hstep, hscopes₁, hwaiting₁, hfound⟩ :=
      exists_step_of_plain hwaiting ht.1 ht.2 (ts ++ rest)
    obtain ⟨more, s₂, hcomes, hscopes₂, hwaiting₂, hmore⟩ := ih hplain hwaiting₁ rest
    refine ⟨found ++ more, s₂, .step hstep hcomes, ?_, hwaiting₂, ?_⟩
    · rw [hscopes₂, hscopes₁, scopes_passing_of_plain hopen hclose]
    · rw [List.filterMap_append, hfound, hmore, List.nil_append]
  | @group o c inner ts b hopen hinner hclose hts ihinner ih =>
    obtain ⟨ho, hplain⟩ := List.forall_mem_cons.1 hplain
    rw [List.forall_mem_append, List.forall_mem_cons] at hplain
    obtain ⟨hinner, hc, hts⟩ := hplain
    obtain ⟨found, s₁, hstep, hscopes₁, hwaiting₁, hfound⟩ :=
      exists_step_of_plain hwaiting ho.1 ho.2 (inner ++ c :: (ts ++ rest))
    obtain ⟨more, s₂, hcomes, hscopes₂, hwaiting₂, hmore⟩ :=
      ihinner hinner hwaiting₁ (c :: (ts ++ rest))
    obtain ⟨found', s₃, hstep', hscopes₃, hwaiting₃, hfound'⟩ :=
      exists_step_of_plain hwaiting₂ hc.1 hc.2 (ts ++ rest)
    obtain ⟨more', s₄, hcomes', hscopes₄, hwaiting₄, hmore'⟩ := ih hts hwaiting₃ rest
    refine ⟨found ++ (more ++ (found' ++ more')), s₄, ?_, ?_, hwaiting₄, ?_⟩
    · rw [List.cons_append, List.append_assoc, List.cons_append]
      exact .step hstep (hcomes.trans (.step hstep' hcomes'))
    · rw [hscopes₄, hscopes₃, scopes_passing_group hopen hclose (hscopes₂.trans hscopes₁)]
    · simp only [List.filterMap_append, hfound, hmore, hfound', hmore', List.append_nil]

/-! ### Attributes that are inserted -/

/-- A token of a header stands in one place only. -/
theorem append_cons_inj_of_ofText {source : List Char} {t : Token} {x x' y y' : List Token}
    (h : Token.ofText source = x ++ t :: y) (h' : Token.ofText source = x' ++ t :: y') :
    x = x' ∧ y = y' := by
  have hnodup := nodup_ofText source
  rw [h, List.nodup_middle, List.nodup_cons, List.mem_append, not_or] at hnodup
  obtain ⟨hx, -, hy⟩ := (List.append_cons_inj_of_notMem hnodup.1.1 hnodup.1.2).1 (h.symm.trans h')
  exact ⟨hx, hy⟩

/-- Attributes are inserted into a header between the keyword and the name of an annotated class, and
no token is cut. -/
structure HeadInsertion (a more b : List Char) (site : ClassSite) (groups : List Attribute) :
    Prop where
  cut : Cut a b
  cutMore : Cut a (more ++ b)
  cutBehind : Cut more b
  defined : .defined site ∈ sourceFindings (a ++ b)
  name : ((Cursor.behind a).tokens b).head? = some site.name
  attributes : (Cursor.behind a).tokens more = groups.flatMap Attribute.tokens
  wellFormed : ∀ g ∈ groups, g.IsWellFormed
  nonempty : groups ≠ []

/-- The tokens of the text behind the attributes. -/
def tokensBehind (a more b : List Char) : List Token :=
  ((Cursor.behind a).past (lexemes more)).tokens b

section

variable {a more b : List Char} {body body' : List Token}

/-- The class at a keyword, but for its name and for lines, when the text from its body on is moved
by the text that is inserted. -/
theorem declared_of_moved (s : WalkState) (keyword : Token) {name : Token} (word : Token)
    (block : List TagLine) (hbody : body ⊆ (Cursor.behind a).tokens b)
    (hbody' : body' ⊆ tokensBehind a more b)
    (hmap : body'.map (rebased (byteLength (a ++ more))) = body.map (rebased (byteLength a))) :
    ((s.site keyword word block body').declared (a ++ more ++ b)).withoutLines =
      { ((s.site keyword name block body).declared (a ++ b)).withoutLines with
        name := word.text } := by
  -- both are told from the place on
  have hold := declared_rebased (Cursor.offset_behind a)
    (show (s.site keyword name block body).sites = _ from rfl)
    (List.Subset.trans (List.tail_subset body) hbody)
  have hnew := declared_rebased (Cursor.offset_past_behind a more)
    (show (s.site keyword word block body').sites = _ from rfl)
    (List.Subset.trans (List.tail_subset body') hbody')
  have hsites : (memberSites (keyword.reads "struct") body'.tail).map
        (MemberSite.map (rebased (byteLength (a ++ more))) fun _ => 0) =
      (memberSites (keyword.reads "struct") body.tail).map
        (MemberSite.map (rebased (byteLength a)) fun _ => 0) := by
    rw [← memberSites_map (keeps_rebased _), ← memberSites_map (keeps_rebased _), List.map_tail,
      List.map_tail, hmap]
  rw [← hold, ← hnew, Cursor.offset_behind, Cursor.offset_past_behind]
  simp only [ClassSite.declared, ClassSite.map, WalkState.site, hsites]
  rfl

/-- The classes that are defined from its body on. -/
theorem sites_of_moved (s : WalkState) {keyword : Token} (hkeyword : keyword ∈ Token.ofText a)
    (hbody : body ⊆ (Cursor.behind a).tokens b) (hbody' : body' ⊆ tokensBehind a more b)
    (hmap : body'.map (rebased (byteLength (a ++ more))) = body.map (rebased (byteLength a))) :
    (((s.behindClass keyword).sites body').map (ClassSite.declared (a ++ more ++ b))).map
        DeclaredClass.withoutLines =
      (((s.behindClass keyword).sites body).map (ClassSite.declared (a ++ b))).map
        DeclaredClass.withoutLines := by
  have hrebased : keyword.rebased (byteLength (a ++ more)) = keyword.rebased (byteLength a) := by
    refine rebased_in_front hkeyword ?_ (Nat.le_refl _)
    rw [byteLength_append]
    exact Nat.le_add_right _ _
  have hold := classes_rebased (Cursor.offset_behind a) hbody (some keyword) s.scopes none
  have hnew :=
    classes_rebased (Cursor.offset_past_behind a more) hbody' (some keyword) s.scopes none
  rw [Cursor.offset_behind] at hold
  rw [Cursor.offset_past_behind, hmap, Option.map_some, hrebased] at hnew
  exact hnew.symm.trans hold

end

namespace HeadInsertion

variable {a more b : List Char} {site : ClassSite} {groups : List Attribute}

/-- The tokens of the header without the attributes. -/
theorem ofText_eq (h : HeadInsertion a more b site groups) :
    Token.ofText (a ++ b) = Token.ofText a ++ (Cursor.behind a).tokens b := h.cut .start

theorem name_mem (h : HeadInsertion a more b site groups) :
    site.name ∈ Token.ofText (a ++ b) := by
  rw [h.ofText_eq]
  exact List.mem_append_right _ (List.mem_of_mem_head? h.name)

/-- The tokens of the header with the attributes. -/
theorem ofText_eq_of_more (h : HeadInsertion a more b site groups) :
    Token.ofText (a ++ more ++ b) =
      Token.ofText a ++ (groups.flatMap Attribute.tokens ++ tokensBehind a more b) := by
  rw [← h.attributes, tokensBehind, ← h.cutBehind, List.append_assoc]
  exact h.cutMore .start

/-- The walk comes to the keyword of the class, which stands in front of the place. -/
theorem exists_place (h : HeadInsertion a more b site groups) :
    ∃ front keyword rest found s body, Token.ofText a = front ++ [keyword] ∧
      (Cursor.behind a).tokens b = site.name :: rest ∧
      Defines .start (Token.ofText (a ++ b)) found s keyword (site.name :: rest) body site := by
  obtain ⟨found, s, keyword, tail, body, hdefines⟩ := exists_defines_of_mem h.defined
  obtain ⟨-, head, rfl, -⟩ := exists_classHead? hdefines.head
  obtain ⟨front, -, htext, -⟩ :=
    hdefines.comes.exists_append rfl hdefines.isClassKeyword (.refl _)
  obtain ⟨rest, hbehind⟩ := List.head?_eq_some_iff.1 h.name
  have htext' : Token.ofText (a ++ b) = front ++ [keyword] ++ site.name :: (head ++ body) := by
    rw [htext, List.append_assoc, List.singleton_append]
  obtain ⟨ha, hrest⟩ := append_cons_inj_of_ofText (h.ofText_eq.trans (by rw [hbehind])) htext'
  exact ⟨front, keyword, rest, found, s, body, ha, hbehind, hrest ▸ hdefines⟩

/-- The text behind the attributes has the same tokens, with their positions told from it on. -/
theorem map_tokensBehind (h : HeadInsertion a more b site groups)
    (hword : site.name.kind = .word) :
    (tokensBehind a more b).map (rebased (byteLength (a ++ more))) =
      ((Cursor.behind a).tokens b).map (rebased (byteLength a)) := by
  rw [tokensBehind, ← Cursor.offset_past_behind, ← Cursor.offset_behind]
  refine (Cursor.map_rebased_tokens (Cursor.isOrdered_behind a)
    ((Cursor.isOrdered_behind a).past _) fun t ht => ?_).symm
  rw [h.name] at ht
  cases ht
  rw [isComment, hword]
  rfl

/-- **The class is not found under its name**: the token in front of the name ends an attribute. -/
theorem name_ne (h : HeadInsertion a more b site groups) {site' : ClassSite}
    (hsite : .defined site' ∈ sourceFindings (a ++ more ++ b)) :
    some site'.name ≠ (tokensBehind a more b).head? := by
  intro hname
  obtain ⟨found, s, keyword, tail, body, hdefines⟩ := exists_defines_of_mem hsite
  obtain ⟨-, head, rfl, -⟩ := exists_classHead? hdefines.head
  obtain ⟨front, -, htext, -⟩ :=
    hdefines.comes.exists_append rfl hdefines.isClassKeyword (.refl _)
  obtain ⟨rest', hbehind⟩ : ∃ rest', tokensBehind a more b = site'.name :: rest' :=
    List.head?_eq_some_iff.1 hname.symm
  -- the last token of the attributes stands in front of the name
  obtain ⟨groups', g, rfl⟩ := (List.eq_nil_or_concat' groups).resolve_left h.nonempty
  obtain ⟨inner, c, hc, hplain⟩ := Attribute.exists_getLast (h.wellFormed g (by simp))
  have hnew : Token.ofText (a ++ more ++ b) =
      Token.ofText a ++ (groups'.flatMap Attribute.tokens ++ inner) ++ [c] ++
        site'.name :: rest' := by
    rw [h.ofText_eq_of_more, hbehind, List.flatMap_append, List.flatMap_singleton, hc]
    simp only [List.append_assoc]
  have htext' : Token.ofText (a ++ more ++ b) =
      front ++ [keyword] ++ site'.name :: (head ++ body) := by
    rw [htext, List.append_assoc, List.singleton_append]
  obtain ⟨hfront, -⟩ := append_cons_inj_of_ofText hnew htext'
  obtain rfl : c = keyword := List.singleton_inj.1 (List.append_inj_right' hfront rfl)
  rw [hdefines.isClassKeyword] at hplain
  cases hplain

/-- To the heads in front of it, the keyword is followed by the same with the attributes as
without them, when these leave no bracket open. -/
theorem headsAlike (h : HeadInsertion a more b site groups)
    (hdepth : headDepth? 0 (groups.flatMap Attribute.tokens) = some 0)
    (hword : site.name.kind = .word) :
    HeadsAlike ((Cursor.behind a).tokens b)
      (groups.flatMap Attribute.tokens ++ tokensBehind a more b) := by
  have hmap := h.map_tokensBehind hword
  refine ⟨fun depth hnone => ?_, ?_⟩
  · have hbody := congrArg (Declaration.bodyOf? depth) hmap
    rw [bodyOf?_map (keeps_rebased _), bodyOf?_map (keeps_rebased _), hnone, Option.map_none,
      Option.map_eq_none_iff] at hbody
    rw [bodyOf?_append hdepth, hbody]
  · obtain ⟨rest, hbehind⟩ := List.head?_eq_some_iff.1 h.name
    obtain ⟨g, groups, rfl⟩ := List.exists_cons_of_ne_nil h.nonempty
    obtain ⟨t, ts, hg, ht⟩ := g.exists_head (h.wellFormed g List.mem_cons_self)
    rw [hbehind, List.flatMap_cons, hg]
    have hname : site.name.reads "::" = false := reads_of_word h.name_mem hword (by decide)
    simp [hname, ht]

/-- With attributes that leave no bracket open, the walk comes to the keyword as it does without
them. -/
theorem exists_walk (h : HeadInsertion a more b site groups)
    (hdepth : headDepth? 0 (groups.flatMap Attribute.tokens) = some 0) :
    ∃ keyword rest s body found found', keyword ∈ Token.ofText a ∧
      (Cursor.behind a).tokens b = site.name :: rest ∧
      Defines .start (Token.ofText (a ++ b)) found s keyword (site.name :: rest) body site ∧
      Comes .start (Token.ofText (a ++ more ++ b)) found' s
        (keyword :: (groups.flatMap Attribute.tokens ++ tokensBehind a more b)) ∧
      KeptInFront (a ++ b) (Token.ofText a) ((Cursor.behind a).tokens b)
        (found.filterMap Finding.site?)
        ((found'.filterMap Finding.site?).map (ClassSite.declared (a ++ more ++ b))) := by
  obtain ⟨front, keyword, rest, found, s, body, ha, hbehind, hdefines⟩ := h.exists_place
  have hkeyword := hdefines.isClassKeyword
  have halike := h.headsAlike hdepth (exists_classHead? hdefines.head).1
  rw [hbehind] at halike
  obtain ⟨front', found', htext, hcomes', hfound⟩ :=
    hdefines.comes.exists_append rfl hkeyword halike
  -- both places are the one behind the text in front
  have hfront : front' ++ [keyword] = Token.ofText a := by
    rw [h.ofText_eq, hbehind] at htext
    refine (List.append_cancel_right (htext.trans ?_)).symm
    rw [List.append_assoc, List.singleton_append]
  have hnew : Token.ofText (a ++ more ++ b) =
      front' ++ keyword :: (groups.flatMap Attribute.tokens ++ tokensBehind a more b) := by
    rw [h.ofText_eq_of_more, ← hfront, List.append_assoc, List.singleton_append]
  rw [← hnew] at hcomes'
  have hkept := keptInFront (hfront ▸ List.subset_append_left front' [keyword]) hfound b (more ++ b)
  rw [← List.append_assoc] at hkept
  replace hkept := hkept.behind (reads_of_isClassKeyword hkeyword (by decide) (by decide))
  rw [hfront, ← hbehind] at hkept
  exact ⟨keyword, rest, s, body, found, found', by simp [ha], hbehind, hdefines, hcomes', hkept⟩

/-- The body of the class is found behind the attributes as well. -/
theorem exists_body (h : HeadInsertion a more b site groups) {before : Option Token}
    {rest body : List Token} (hbehind : (Cursor.behind a).tokens b = site.name :: rest)
    (hhead : classHead? before (site.name :: rest) = some (site.name, body)) :
    (before.map forbidsClass).getD false = false ∧ body ⊆ (Cursor.behind a).tokens b ∧
      ∃ body', bodyOf? 0 (tokensBehind a more b) = some body' ∧ body' ⊆ tokensBehind a more b ∧
        body'.map (rebased (byteLength (a ++ more))) = body.map (rebased (byteLength a)) := by
  have hword := (exists_classHead? hhead).1
  have hsubset := classHead?_subset hhead
  rw [classHead?] at hhead
  split_ifs at hhead with hno
  simp only [Bool.or_eq_true, not_or, Bool.not_eq_true] at hno
  obtain ⟨body₀, hbody, hpair⟩ := Option.map_eq_some_iff.1 hhead
  cases hpair
  have hmap := congrArg (bodyOf? 0) (h.map_tokensBehind hword)
  rw [bodyOf?_map (keeps_rebased _), bodyOf?_map (keeps_rebased _), hbehind,
    bodyOf?_cons_of_word h.name_mem hword, hbody, Option.map_some, Option.map_eq_some_iff] at hmap
  obtain ⟨body', hbody', hmap⟩ := hmap
  obtain ⟨front, hfront, -⟩ := exists_bodyOf? hbody'
  exact ⟨hno.1.1, hbehind ▸ hsubset, body', hbody',
    hfront ▸ List.subset_append_right front body', hmap⟩

/-- The head of the class with an alignment in front: its word is the name. -/
theorem classHead?_alignment {before : Option Token} {word o c : Token}
    {inner body : List Token} {groups : List Attribute} {ts : List Token}
    (hform : (Attribute.alignment word o inner c).IsWellFormed)
    (hdepth : headDepth? 0 ((Attribute.alignment word o inner c :: groups).flatMap
      Attribute.tokens) = some 0)
    (hbefore : (before.map forbidsClass).getD false = false) (hbody : bodyOf? 0 ts = some body) :
    classHead? before ((Attribute.alignment word o inner c :: groups).flatMap Attribute.tokens ++
      ts) = some (word, body) := by
  obtain ⟨hword, htext, ho, -, -⟩ := hform
  have hreads : ∀ {text : String}, text ≠ "alignas" → word.reads text = false := fun hne => by
    simp [reads, htext, hne.symm]
  simp only [List.flatMap_cons, Attribute.tokens, List.cons_append] at hdepth ⊢
  have hdepth' :
      headDepth? 0 (o :: (inner ++ [c] ++ groups.flatMap Attribute.tokens)) = some 0 := by
    rw [headDepth?] at hdepth
    simpa [hreads] using hdepth
  have hpass := bodyOf?_append hdepth' 0 ts
  rw [hbody] at hpass
  simp only [List.cons_append, List.append_assoc, List.nil_append] at hpass ⊢
  rw [classHead?, hbefore, hword]
  simp [hpass, reads_of_ne ho]

theorem exists_classHead?_alignment (h : HeadInsertion a more b site groups)
    (hdepth : headDepth? 0 (groups.flatMap Attribute.tokens) = some 0)
    (hfirst : groups.head?.any Attribute.isAlignment = true) {before : Option Token}
    {body : List Token} (hbefore : (before.map forbidsClass).getD false = false)
    (hbody : bodyOf? 0 (tokensBehind a more b) = some body) :
    ∃ word : Token, word.text = "alignas" ∧
      classHead? before (groups.flatMap Attribute.tokens ++ tokensBehind a more b) =
        some (word, body) := by
  obtain ⟨g, groups, rfl⟩ := List.exists_cons_of_ne_nil h.nonempty
  cases g with
  | group => cases hfirst
  | alignment word o inner c =>
    have hform := h.wellFormed _ List.mem_cons_self
    exact ⟨word, hform.2.1, classHead?_alignment hform hdepth hbefore hbody⟩

/-- **An alignment in front gives the class its own word as a name.**  The other classes are the
same, but for the lines of those behind it and for the members of those in front of it. -/
theorem classes_of_alignment (h : HeadInsertion a more b site groups)
    (hdepth : headDepth? 0 (groups.flatMap Attribute.tokens) = some 0)
    (hfirst : groups.head?.any Attribute.isAlignment = true) :
    ∃ earlier earlier' c later later',
      (sourceFindings (a ++ b)).filterMap Finding.site? = earlier ++ site :: later ∧
      declaredClasses (a ++ more ++ b) = earlier' ++ c :: later' ∧
      KeptInFront (a ++ b) (Token.ofText a) ((Cursor.behind a).tokens b) earlier earlier' ∧
      c.withoutLines = { (site.declared (a ++ b)).withoutLines with name := "alignas" } ∧
      later'.map DeclaredClass.withoutLines =
        (later.map (ClassSite.declared (a ++ b))).map DeclaredClass.withoutLines := by
  obtain ⟨keyword, rest, s, body, found, found', hmem, hbehind, hdefines, hcomes', hkept⟩ :=
    h.exists_walk hdepth
  obtain ⟨hbefore, hsubset, body', hbody', hsubset', hmap⟩ := h.exists_body hbehind hdefines.head
  obtain ⟨word, hword, hhead'⟩ := h.exists_classHead?_alignment hdepth hfirst hbefore hbody'
  have hdefines' : Defines .start (Token.ofText (a ++ more ++ b)) found' s keyword _ body'
      (s.site keyword word site.block body') :=
    ⟨hcomes', hdefines.isClassKeyword, hdefines.waiting, hhead', rfl⟩
  refine ⟨_, _, _, _, _, hdefines.sites_eq,
    (congrArg (List.map (ClassSite.declared (a ++ more ++ b))) hdefines'.sites_eq).trans
      List.map_append, hkept, ?_, sites_of_moved s hmem hsubset hsubset' hmap⟩
  rw [declared_of_moved s keyword word site.block hsubset hsubset' hmap, ← hdefines.site_eq, hword]

/-- Behind a keyword in front of a group in double brackets no class is found. -/
theorem classHead?_group (h : HeadInsertion a more b site groups)
    (hfirst : groups.head?.any Attribute.isAlignment = false) (before : Option Token) :
    classHead? before (groups.flatMap Attribute.tokens ++ tokensBehind a more b) = none := by
  cases hgroups : groups with
  | nil => exact absurd hgroups h.nonempty
  | cons g groups' =>
    subst hgroups
    cases g with
    | alignment => cases hfirst
    | group o o' inner c c' =>
      have ho : o.reads "[" = true := (h.wellFormed _ List.mem_cons_self).1
      have hmem : o ∈ Token.ofText (a ++ more ++ b) := by
        rw [h.ofText_eq_of_more, List.flatMap_cons, Attribute.tokens]
        simp
      have hkind : (o.kind != .word) = true := by
        rw [bne_iff_ne]
        intro hword
        rw [reads_of_word hmem hword (by decide)] at ho
        cases ho
      rw [List.flatMap_cons, Attribute.tokens, List.cons_append, List.cons_append, classHead?,
        hkind]
      simp

/-- **A group in double brackets in front hides the class.**  The walk goes on from its name with
the block of the class still waiting, so the next class that is found takes it. -/
theorem classes_of_group (h : HeadInsertion a more b site groups)
    (hdepth : headDepth? 0 (groups.flatMap Attribute.tokens) = some 0)
    (hfirst : groups.head?.any Attribute.isAlignment = false)
    (hplain : ∀ t ∈ groups.flatMap Attribute.tokens,
      t.reads "namespace" = false ∧ t.isClassKeyword = false) :
    ∃ (earlier : List ClassSite) (earlier' : List DeclaredClass) (later : List ClassSite)
        (later' : List DeclaredClass) (s : WalkState),
      s.waiting = some site.block ∧ Scope.path s.scopes = site.scope ∧
      (sourceFindings (a ++ b)).filterMap Finding.site? = earlier ++ site :: later ∧
      declaredClasses (a ++ more ++ b) = earlier' ++ later' ∧
      KeptInFront (a ++ b) (Token.ofText a) ((Cursor.behind a).tokens b) earlier earlier' ∧
      later' = (s.sites (tokensBehind a more b)).map (ClassSite.declared (a ++ more ++ b)) ∧
      ∀ c ∈ later'.head?, c.tags = (site.declared (a ++ b)).tags := by
  obtain ⟨keyword, rest, s, body, found, found', -, -, hdefines, hcomes', hkept⟩ :=
    h.exists_walk hdepth
  have hkeyword := hdefines.isClassKeyword
  have hcode : Step s (keyword :: (groups.flatMap Attribute.tokens ++ tokensBehind a more b)) []
      (s.passing keyword) (groups.flatMap Attribute.tokens ++ tokensBehind a more b) :=
    .code (isComment_of_isClassKeyword hkeyword)
      (reads_of_isClassKeyword hkeyword (by decide) (by decide))
      fun _ _ => h.classHead?_group hfirst s.before
  have hscopes : (s.passing keyword).scopes = s.scopes := by
    have hopen : keyword.isOpen = false := reads_of_isClassKeyword hkeyword (by decide) (by decide)
    have hclose : keyword.isClose = false :=
      reads_of_isClassKeyword hkeyword (by decide) (by decide)
    simp [WalkState.passing, hopen, hclose]
  have hwaiting : (s.passing keyword).waiting = some site.block := hdefines.waiting
  obtain ⟨passed, s', hpassed, hscopes', hwaiting', hnone⟩ := exists_comes_append
    (Attribute.nested_flatMap h.wellFormed) hplain hwaiting (tokensBehind a more b)
  refine ⟨_, _, _, _, s', hwaiting', ?_, hdefines.sites_eq, ?_, hkept, rfl, fun c hc => ?_⟩
  · rw [hscopes', hscopes, hdefines.site_eq]
    rfl
  · rw [WalkState.declaredClasses_eq, (hcomes'.trans (.step hcode hpassed)).sites_eq,
      List.map_append, List.nil_append, List.filterMap_append, hnone, List.append_nil]
  · rw [List.head?_map, Option.mem_map] at hc
    obtain ⟨site', hsite', rfl⟩ := hc
    exact congrArg TagLine.blockTags (WalkState.block_of_sites hwaiting' hsite')

end HeadInsertion

/-- **Attributes on the head of an annotated class change what is found.**  Whatever attributes are
inserted between the keyword and the name, no class is found under the name.  When they leave no
parenthesis and no angle bracket open, and no brace, semicolon or equals sign stands outside of
these: with an alignment in front the class is found under the word of the alignment and everything
else is the same, but for the lines behind the place and the members of the classes around it; with
a group in double brackets in front and no keyword of a class or namespace in the attributes, the
class is missing, and its annotations go to the class that is found next. -/
theorem attributes_on_class_head {a more b : List Char} {site : ClassSite}
    {groups : List Attribute} (h : HeadInsertion a more b site groups) :
    (∀ site', .defined site' ∈ sourceFindings (a ++ more ++ b) →
      some site'.name ≠ (tokensBehind a more b).head?) ∧
    (headDepth? 0 (groups.flatMap Attribute.tokens) = some 0 →
      (groups.head?.any Attribute.isAlignment = true →
        ∃ earlier earlier' c later later',
          (sourceFindings (a ++ b)).filterMap Finding.site? = earlier ++ site :: later ∧
          declaredClasses (a ++ more ++ b) = earlier' ++ c :: later' ∧
          KeptInFront (a ++ b) (Token.ofText a) ((Cursor.behind a).tokens b) earlier earlier' ∧
          c.withoutLines = { (site.declared (a ++ b)).withoutLines with name := "alignas" } ∧
          later'.map DeclaredClass.withoutLines =
            (later.map (ClassSite.declared (a ++ b))).map DeclaredClass.withoutLines) ∧
      (groups.head?.any Attribute.isAlignment = false →
        (∀ t ∈ groups.flatMap Attribute.tokens,
          t.reads "namespace" = false ∧ t.isClassKeyword = false) →
        ∃ (earlier : List ClassSite) (earlier' : List DeclaredClass) (later : List ClassSite)
        (later' : List DeclaredClass) (s : WalkState),
          s.waiting = some site.block ∧ Scope.path s.scopes = site.scope ∧
          (sourceFindings (a ++ b)).filterMap Finding.site? = earlier ++ site :: later ∧
          declaredClasses (a ++ more ++ b) = earlier' ++ later' ∧
          KeptInFront (a ++ b) (Token.ofText a) ((Cursor.behind a).tokens b) earlier earlier' ∧
          later' = (s.sites (tokensBehind a more b)).map (ClassSite.declared (a ++ more ++ b)) ∧
          ∀ c ∈ later'.head?, c.tags = (site.declared (a ++ b)).tags)) :=
  ⟨fun _ => h.name_ne, fun hdepth =>
    ⟨h.classes_of_alignment hdepth, h.classes_of_group hdepth⟩⟩

/-- The text of a header in front of the name of a class. -/
def ticketFront : List Char := "// @relais table=tickets\nstruct ".toList

/-- The text from the name on: the class, and another one that has no annotations. -/
def ticketBehind : List Char :=
  "Ticket \x7b\n    int64_t id;\n\x7d;\nstruct User \x7b\n\x7d;\n".toList

/-- The class in this header. -/
def ticketSite : ClassSite where
  name := ⟨.word, "Ticket", 2, 8, 32, 38, false⟩
  isStruct := true
  scope := ""
  block := [⟨false, "table=tickets".toList⟩]
  sites :=
    [⟨3, [⟨.word, "int64_t", 3, 5, 45, 52, true⟩, ⟨.word, "id", 3, 13, 53, 55, false⟩], none⟩]

/-- An alignment in front of the name. -/
def ticketAlignment : Attribute :=
  .alignment ⟨.word, "alignas", 2, 8, 32, 39, false⟩ ⟨.mark, "(", 2, 15, 39, 40, false⟩
    [⟨.number, "8", 2, 16, 40, 41, false⟩] ⟨.mark, ")", 2, 17, 41, 42, false⟩

/-- A group in double brackets in front of the name. -/
def ticketGroup : Attribute :=
  .group ⟨.mark, "[", 2, 8, 32, 33, false⟩ ⟨.mark, "[", 2, 9, 33, 34, false⟩
    [⟨.word, "nodiscard", 2, 10, 34, 43, false⟩] ⟨.mark, "]", 2, 19, 43, 44, false⟩
    ⟨.mark, "]", 2, 20, 44, 45, false⟩

/-- The parts of an insertion into this header that do not depend on the attributes. -/
theorem ticket_insertion {more : List Char} {g : Attribute}
    (hmore : lexemes (ticketFront ++ (more ++ ticketBehind)) =
      lexemes ticketFront ++ lexemes (more ++ ticketBehind))
    (hbehind : lexemes (more ++ ticketBehind) = lexemes more ++ lexemes ticketBehind)
    (htokens : (Cursor.behind ticketFront).tokens more = g.tokens) (hg : g.IsWellFormed) :
    HeadInsertion ticketFront more ticketBehind ticketSite [g] := by
  have hfrontText : ticketFront = _ := String.toList_ofList
  have hbehindText : ticketBehind = _ := String.toList_ofList
  have hcut : lexemes (ticketFront ++ ticketBehind) =
      lexemes ticketFront ++ lexemes ticketBehind := by
    rw [hfrontText, hbehindText]
    decide +kernel
  have hdefined : .defined ticketSite ∈ sourceFindings (ticketFront ++ ticketBehind) := by
    rw [hfrontText, hbehindText]
    decide +kernel
  have hname : ((Cursor.behind ticketFront).tokens ticketBehind).head? = some ticketSite.name := by
    rw [hfrontText, hbehindText]
    decide +kernel
  exact {
    cut := cut_of_lexemes hcut
    cutMore := cut_of_lexemes hmore
    cutBehind := cut_of_lexemes hbehind
    defined := hdefined
    name := hname
    attributes := by rw [htokens, List.flatMap_singleton]
    wellFormed := List.forall_mem_singleton.2 hg
    nonempty := List.cons_ne_nil g [] }

theorem ticketAlignment_insertion : HeadInsertion ticketFront "alignas(8) ".toList ticketBehind
    ticketSite [ticketAlignment] := by
  have hfront : ticketFront = _ := String.toList_ofList
  have hmore : "alignas(8) ".toList = _ := String.toList_ofList
  have hbehind : ticketBehind = _ := String.toList_ofList
  exact ticket_insertion (by rw [hfront, hmore, hbehind]; decide +kernel)
    (by rw [hmore, hbehind]; decide +kernel) (by rw [hfront, hmore]; decide +kernel) (by decide)

theorem ticketGroup_insertion : HeadInsertion ticketFront "[[nodiscard]] ".toList ticketBehind
    ticketSite [ticketGroup] := by
  have hfront : ticketFront = _ := String.toList_ofList
  have hmore : "[[nodiscard]] ".toList = _ := String.toList_ofList
  have hbehind : ticketBehind = _ := String.toList_ofList
  exact ticket_insertion (by rw [hfront, hmore, hbehind]; decide +kernel)
    (by rw [hmore, hbehind]; decide +kernel) (by rw [hfront, hmore]; decide +kernel) (by decide)

/-- With an alignment the class of the tickets is found under another name, and with a group in
double brackets its annotation belongs to the users. -/
theorem attributes_on_class_head_ticket :
    HeadInsertion ticketFront "alignas(8) ".toList ticketBehind ticketSite [ticketAlignment] ∧
      (∃ (earlier' later' : List DeclaredClass) (c : DeclaredClass),
        declaredClasses (ticketFront ++ "alignas(8) ".toList ++ ticketBehind) =
          earlier' ++ c :: later' ∧
        c.withoutLines =
          { (ticketSite.declared (ticketFront ++ ticketBehind)).withoutLines with
            name := "alignas" }) ∧
      HeadInsertion ticketFront "[[nodiscard]] ".toList ticketBehind ticketSite [ticketGroup] ∧
      ∃ earlier' later' : List DeclaredClass,
        declaredClasses (ticketFront ++ "[[nodiscard]] ".toList ++ ticketBehind) =
          earlier' ++ later' ∧
        ∀ c ∈ later'.head?, c.tags = [.table "tickets"] := by
  refine ⟨ticketAlignment_insertion, ?_, ticketGroup_insertion, ?_⟩
  · obtain ⟨-, halignment⟩ := attributes_on_class_head ticketAlignment_insertion
    obtain ⟨-, earlier', c, -, later', -, hclasses, -, hname, -⟩ :=
      (halignment (by decide +kernel)).1 rfl
    exact ⟨earlier', later', c, hclasses, hname⟩
  · obtain ⟨-, hgroup⟩ := attributes_on_class_head ticketGroup_insertion
    obtain ⟨-, earlier', -, later', -, -, -, -, hclasses, -, -, htags⟩ :=
      (hgroup (by decide +kernel)).2 rfl (by decide +kernel)
    exact ⟨earlier', later', hclasses, fun c hc => (htags c hc).trans (by decide +kernel)⟩

/-- Both attributes change what is found, although no line has moved. -/
theorem exists_class_changed_by_attributes :
    HeadInsertion ticketFront "alignas(8) ".toList ticketBehind ticketSite [ticketAlignment] ∧
      HeadInsertion ticketFront "[[nodiscard]] ".toList ticketBehind ticketSite [ticketGroup] ∧
      (declaredClasses (ticketFront ++ ticketBehind)).map (fun c => (c.name, c.tags)) =
        [("Ticket", [.table "tickets"])] ∧
      (declaredClasses (ticketFront ++ "alignas(8) ".toList ++ ticketBehind)).map
        (fun c => (c.name, c.tags)) = [("alignas", [.table "tickets"])] ∧
      (declaredClasses (ticketFront ++ "[[nodiscard]] ".toList ++ ticketBehind)).map
        (fun c => (c.name, c.tags)) = [("User", [.table "tickets"])] := by
  refine ⟨ticketAlignment_insertion, ticketGroup_insertion, ?_⟩
  have hfront : ticketFront = _ := String.toList_ofList
  have halignment : "alignas(8) ".toList = _ := String.toList_ofList
  have hgroup : "[[nodiscard]] ".toList = _ := String.toList_ofList
  have hbehind : ticketBehind = _ := String.toList_ofList
  rw [hfront, halignment, hgroup, hbehind]
  refine ⟨?_, ?_, ?_⟩ <;> decide +kernel

end RowMapping
