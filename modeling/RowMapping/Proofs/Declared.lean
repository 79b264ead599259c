import Mathlib.Data.List.Basic
import Mathlib.Data.List.TakeWhile
import Mathlib.Data.Option.Basic
import RowMapping.Compile
/-!
# Names of declared members

The name of a member is a token of the header, and that token is a word.  So it consists of letters,
digits and underscores only, whatever else stands in the header.

* `isNamePart_of_ofText`: a word is made of the characters of names;
* `Statement.tokens_read_subset`, `tokens_memberSites_subset`, `tokens_findings_subset`: a statement
  takes its tokens from the header;
* `Member.exists_word_of_ofCode?`: the name of a member is a word of its statement;
* `isNamePart_of_name`: the names of members are made of the characters of names;
* `isNamePart_of_className`: so are the names of classes.
-/

namespace RowMapping

open Declaration Text

/-! ### Words -/

namespace Lexeme

theorem isNamePart_wordOrRaw {c : Char} (hc : isNameStart c = true) (cs : List Char) :
    (wordOrRaw c cs).1.shape = .word → ∀ d ∈ (wordOrRaw c cs).1.text, isNamePart d := by
  have hword : ∀ d ∈ c :: cs.takeWhile isNamePart, isNamePart d := by
    intro d hd
    rcases List.mem_cons.1 hd with rfl | hd
    · rw [isNamePart, hc, Bool.true_or]
    · exact List.mem_takeWhile_imp hd
  unfold wordOrRaw
  simp only
  split
  · split
    · exact fun h => nomatch h
    · exact fun _ => hword
  · exact fun _ => hword

theorem shape_slash_ne_word (cs : List Char) : (slash cs).1.shape ≠ .word := by
  unfold slash
  split
  · split <;> exact fun h => nomatch h
  · exact fun h => nomatch h
  · exact fun h => nomatch h

theorem shape_colon_ne_word (cs : List Char) : (colon cs).1.shape ≠ .word := by
  unfold colon
  split <;> exact fun h => nomatch h

/-- A word is made of the characters of names. -/
theorem isNamePart_first (c : Char) (cs : List Char) :
    (first c cs).1.shape = .word → ∀ d ∈ (first c cs).1.text, isNamePart d := by
  refine first_cases (motive := fun p => p.1.shape = .word → ∀ d ∈ p.1.text, isNamePart d)
    ?slash ?directive ?string ?character ?digit ?name ?colon ?blank ?mark
  case slash => exact fun _ h => absurd h (shape_slash_ne_word cs)
  case digit =>
    cases hascii : isAsciiDigit c <;> exact fun _ h => nomatch h
  case name => exact fun hc => isNamePart_wordOrRaw hc cs
  case colon => exact fun _ h => absurd h (shape_colon_ne_word cs)
  all_goals intros; contradiction

end Lexeme

theorem isNamePart_lexemes {cs : List Char} {l : Lexeme} (hl : l ∈ lexemes cs)
    (h : l.shape = .word) : ∀ c ∈ l.text, isNamePart c := by
  induction cs using lexemes.induct with
  | case1 => simp at hl
  | case2 c cs ih =>
    rw [lexemes_cons, List.mem_cons] at hl
    rcases hl with rfl | hl
    · exact Lexeme.isNamePart_first c cs h
    · exact ih hl

theorem exists_lexeme_of_mem_located {cursor : Cursor} {ls : List Lexeme} {t : Token}
    (ht : t ∈ located cursor ls) :
    ∃ l ∈ ls, Token.Kind.ofShape? l.shape = some t.kind ∧ t.text.toList = l.text := by
  induction ls generalizing cursor with
  | nil => simp [located] at ht
  | cons l ls ih =>
    rw [located, List.mem_append] at ht
    rcases ht with ht | ht
    · obtain ⟨kind, hkind, rfl⟩ := Option.map_eq_some_iff.1 (Option.mem_toList.1 ht)
      exact ⟨l, List.mem_cons_self, hkind, String.toList_ofList⟩
    · obtain ⟨l', hl', h⟩ := ih ht
      exact ⟨l', List.mem_cons_of_mem l hl', h⟩

/-- A word of a header is made of the characters of names. -/
theorem isNamePart_of_ofText {cs : List Char} {t : Token} (ht : t ∈ Token.ofText cs)
    (h : t.kind = .word) : ∀ c ∈ t.text.toList, isNamePart c := by
  obtain ⟨l, hl, hkind, htext⟩ := exists_lexeme_of_mem_located ht
  have hshape : l.shape = .word := by
    rw [h] at hkind
    cases hl : l.shape <;> rw [hl] at hkind <;> first | rfl | cases hkind
  rw [htext]
  exact isNamePart_lexemes hl hshape

/-! ### Tokens of statements -/

namespace Declaration

theorem afterBrackets_sublist (depth : Nat) (ts : List Token) :
    (afterBrackets depth ts).Sublist ts := by
  induction ts generalizing depth with
  | nil => exact .slnil
  | cons t ts ih =>
    rw [afterBrackets]
    split
    · exact List.sublist_cons_self t ts
    · exact (ih _).cons t

theorem withoutAttributes_sublist (ts : List Token) : (withoutAttributes ts).Sublist ts := by
  fun_induction withoutAttributes ts with
  | case1 => exact .slnil
  | case2 t => exact .refl [t]
  | case3 t u ts _ ih => exact ((ih.trans (afterBrackets_sublist 2 ts)).cons u).cons t
  | case4 t u ts _ ih => exact ih.cons_cons t

/-- A declarator and the code from its initial value on are the code. -/
theorem declarator?_append {angles : Nat} {ts d rest : List Token}
    (h : declarator? angles ts = some (d, rest)) : d ++ rest = ts := by
  fun_induction declarator? angles ts generalizing d with
  | case1 =>
    cases h
    rfl
  | case2 _ t _ _ ih | case3 _ t _ _ _ ih | case6 _ t _ _ _ _ _ ih =>
    obtain ⟨_, hd, heq⟩ := Option.map_eq_some_iff.1 h
    cases heq
    exact congrArg (t :: ·) (ih hd)
  | case4 =>
    cases h
    rfl
  | case5 => cases h

theorem declarator?_subset {angles : Nat} {ts d rest : List Token}
    (h : declarator? angles ts = some (d, rest)) : d ⊆ ts :=
  declarator?_append h ▸ List.subset_append_left d rest

/-- Looking for a body passes over the tokens in front of its opening brace. -/
theorem exists_bodyOf? {depth : Nat} {ts body : List Token} (h : bodyOf? depth ts = some body) :
    ∃ front, ts = front ++ body ∧ ∀ t ∈ body.head?, t.reads "\x7b" = true := by
  fun_induction bodyOf? depth ts with
  | case1 => cases h
  | case2 _ t _ _ ih =>
    obtain ⟨front, rfl, hbody⟩ := ih h
    exact ⟨t :: front, rfl, hbody⟩
  | case3 _ t _ _ _ ih =>
    obtain ⟨front, rfl, hbody⟩ := ih h
    exact ⟨t :: front, rfl, hbody⟩
  | case4 depth t ts _ _ hopen =>
    cases h
    rw [Bool.and_eq_true] at hopen
    refine ⟨[], rfl, ?_⟩
    rintro _ ⟨⟩
    exact hopen.2
  | case5 => cases h
  | case6 _ t _ _ _ _ _ ih =>
    obtain ⟨front, rfl, hbody⟩ := ih h
    exact ⟨t :: front, rfl, hbody⟩

/-- The head of a class: its name comes first, and the tokens behind it up to the opening brace are
passed over. -/
theorem exists_classHead? {before : Option Token} {ts body : List Token} {name : Token}
    (h : classHead? before ts = some (name, body)) :
    name.kind = .word ∧ ∃ front, ts = name :: (front ++ body) ∧
      ∀ t ∈ body.head?, t.reads "\x7b" = true := by
  cases ts with
  | nil => cases h
  | cons t ts =>
    rw [classHead?] at h
    split at h
    · cases h
    · next hno =>
      obtain ⟨body, hbody, hpair⟩ := Option.map_eq_some_iff.1 h
      cases hpair
      obtain ⟨front, rfl, hopen⟩ := exists_bodyOf? hbody
      simp only [Bool.or_eq_true, not_or, bne_iff_ne, ne_eq, not_not] at hno
      exact ⟨hno.1.2, front, rfl, hopen⟩

theorem classHead?_subset {before : Option Token} {ts body : List Token} {name : Token}
    (h : classHead? before ts = some (name, body)) : body ⊆ ts := by
  obtain ⟨-, front, rfl, -⟩ := exists_classHead? h
  exact List.subset_cons_of_subset name (List.subset_append_right front body)

/-- The head of a namespace is passed over up to its opening brace, or up to code that makes it
none. -/
theorem exists_namespaceHead (name : String) (ts : List Token) :
    ∃ front, ts = front ++ (namespaceHead name ts).2 ∧
      ((∃ t ∈ front.getLast?, t.reads "\x7b" = true) ∨
        ∀ t ∈ (namespaceHead name ts).2.head?, t.isComment = false) := by
  fun_induction namespaceHead name ts with
  | case1 => exact ⟨[], rfl, .inr (by simp)⟩
  | case2 name t ts hopen => exact ⟨[t], rfl, .inl ⟨t, rfl, hopen⟩⟩
  | case3 name t ts _ _ ih =>
    obtain ⟨front, hts, hfront⟩ := ih
    exact ⟨t :: front, congrArg (t :: ·) hts,
      hfront.imp_left (.imp fun _ => .imp_left List.mem_getLast?_cons)⟩
  | case4 name t ts _ _ _ ih =>
    obtain ⟨front, hts, hfront⟩ := ih
    exact ⟨t :: front, congrArg (t :: ·) hts,
      hfront.imp_left (.imp fun _ => .imp_left List.mem_getLast?_cons)⟩
  | case5 name t ts _ _ hcomment =>
    refine ⟨[], rfl, .inr ?_⟩
    rintro _ ⟨⟩
    exact Bool.eq_false_iff.2 hcomment

theorem namespaceHead_subset (name : String) (ts : List Token) :
    (namespaceHead name ts).2 ⊆ ts := by
  obtain ⟨front, hts, -⟩ := exists_namespaceHead name ts
  have hsubset := List.subset_append_right front (namespaceHead name ts).2
  rwa [← hts] at hsubset

end Declaration

namespace Statement

theorem skipSemicolon_subset (ts : List Token) : skipSemicolon ts ⊆ ts := by
  cases ts with
  | nil => exact List.Subset.refl _
  | cons t ts =>
    rw [skipSemicolon]
    split
    · exact List.subset_cons_self t ts
    · exact List.Subset.refl _

theorem closing_subset (depth : Nat) (ts : List Token) :
    (closing depth ts).1 ⊆ ts ∧ (closing depth ts).2 ⊆ ts := by
  have h := closing_append depth ts
  exact ⟨fun t ht => h ▸ List.mem_append_left _ ht, fun t ht => h ▸ List.mem_append_right _ ht⟩

/-- A statement and what is behind it are taken from these tokens. -/
def Within (s : Statement) (ts : List Token) : Prop := s.tokens ⊆ ts ∧ s.rest ⊆ ts

theorem Within.after {s : Statement} {front ts all : List Token} (h : s.Within ts)
    (hfront : front ⊆ all) (hts : ts ⊆ all) : (Statement.after front s).Within all :=
  ⟨List.append_subset.2 ⟨hfront, List.Subset.trans h.1 hts⟩, List.Subset.trans h.2 hts⟩

theorem read_within (depth : Nat) (params : Bool) (found : Option Token) (ts : List Token) :
    (read depth params found ts).Within ts := by
  have hsingle : ∀ (t : Token) (ts : List Token), [t] ⊆ t :: ts := fun t ts =>
    List.cons_subset_cons t (List.nil_subset ts)
  fun_induction read depth params found ts with
  | case1 => exact ⟨List.nil_subset _, List.nil_subset _⟩
  | case2 _ _ _ t ts _ ih => exact ih.after (hsingle t ts) (List.subset_cons_self t ts)
  | case3 _ _ _ t ts _ _ ih => exact ih.after (hsingle t ts) (List.subset_cons_self t ts)
  | case4 _ _ _ t ts _ _ _ ih => exact ih.after (hsingle t ts) (List.subset_cons_self t ts)
  | case5 _ _ _ t ts => exact ⟨List.nil_subset _, List.subset_cons_self t ts⟩
  | case6 => exact ⟨List.nil_subset _, List.Subset.refl _⟩
  | case7 _ _ t ts =>
    obtain ⟨hgroup, hrest⟩ := closing_subset 1 ts
    exact ⟨List.cons_subset_cons t hgroup,
      List.subset_cons_of_subset t (List.Subset.trans (skipSemicolon_subset _) hrest)⟩
  | case8 _ _ _ t ts =>
    rename_i ih
    obtain ⟨hgroup, hrest⟩ := closing_subset 1 ts
    exact Within.after (s := Statement.nested _) ih (List.cons_subset_cons t hgroup)
      (List.subset_cons_of_subset t hrest)
  | case9 _ _ _ t ts =>
    rename_i ih
    obtain ⟨hgroup, hrest⟩ := closing_subset 1 ts
    exact ih.after (List.cons_subset_cons t hgroup) (List.subset_cons_of_subset t hrest)
  | case10 _ _ _ t ts =>
    rename_i ih
    exact ih.after (hsingle t ts) (List.subset_cons_self t ts)

end Statement

/-- The statements of a body are taken from its tokens. -/
theorem tokens_memberSites_subset {isPublic : Bool} {ts : List Token} {s : MemberSite}
    (hs : s ∈ memberSites isPublic ts) : s.tokens ⊆ ts := by
  fun_induction memberSites isPublic ts with
  | case1 => cases hs
  | case2 => cases hs
  | case3 _ t ts _ _ ih => exact List.subset_cons_of_subset t (ih hs)
  | case4 _ t ts _ _ _ _ ih =>
    exact List.subset_cons_of_subset t (List.Subset.trans (ih hs) (List.tail_sublist ts).subset)
  | case5 _ t ts _ _ _ read =>
    rename_i ih
    have hread : read.Within (t :: ts) := Statement.read_within 0 false none (t :: ts)
    rcases List.mem_cons.1 hs with rfl | hs
    · exact hread.1
    · exact List.Subset.trans (ih hs) (List.Subset.trans (List.drop_subset _ _) hread.2)
  | case6 _ t ts _ _ _ read =>
    rename_i ih
    have hread : read.Within (t :: ts) := Statement.read_within 0 false none (t :: ts)
    exact List.Subset.trans (ih hs) (List.Subset.trans (List.drop_subset _ _) hread.2)

theorem tagRun_subset (ts : List Token) : (tagRun ts).2 ⊆ ts :=
  (List.dropWhile_suffix _).subset

theorem not_mem_finishing (waiting : Option (List TagLine)) (site : ClassSite) :
    .defined site ∉ finishing waiting := by
  cases waiting with
  | none => simp [finishing]
  | some block =>
    rw [finishing]
    split <;> simp

/-- The statements of an annotated class are those of a body with which the tokens end. -/
theorem exists_body_of_mem_findings {before : Option Token} {scopes : List Scope}
    {waiting : Option (List TagLine)} {ts : List Token} {site : ClassSite}
    (h : .defined site ∈ findings before scopes waiting ts) :
    ∃ body, body <:+ ts ∧ site.sites = memberSites site.isStruct body := by
  have hmore : ∀ {part whole : List Token}, part <:+ whole →
      (∃ body, body <:+ part ∧ site.sites = memberSites site.isStruct body) →
      ∃ body, body <:+ whole ∧ site.sites = memberSites site.isStruct body := fun hpart hbody =>
    hbody.imp fun _ => And.imp_left fun hsuffix => hsuffix.trans hpart
  fun_induction findings before scopes waiting ts with
  | case1 _ _ waiting => exact absurd h (not_mem_finishing waiting site)
  | case2 _ _ _ t ts _ _ ih => exact hmore (List.suffix_cons t ts) (ih h)
  | case3 _ _ t ts _ _ _ _ ih =>
    exact hmore (List.suffix_cons t ts) (ih (List.mem_of_ne_of_mem (by simp) h))
  | case4 _ _ t ts _ _ _ ih =>
    have hrun : (tagRun ts).2 <:+ t :: ts := (List.dropWhile_suffix _).trans (List.suffix_cons t ts)
    exact hmore hrun (ih (List.mem_of_ne_of_mem (by simp) h))
  | case5 _ _ _ t ts _ _ ih =>
    obtain ⟨front, hts, -⟩ := exists_namespaceHead "" ts
    exact hmore ⟨t :: front, congrArg (t :: ·) hts.symm⟩ (ih h)
  | case8 _ _ t ts _ _ _ _ _ _ name body hhead ih =>
    obtain ⟨-, front, rfl, -⟩ := exists_classHead? hhead
    have hbody : body <:+ t :: name :: (front ++ body) := ⟨t :: name :: front, rfl⟩
    rcases List.mem_cons.1 h with heq | h
    · -- the walk goes on inside of the body, whose statements are taken from the same tokens
      cases heq
      exact ⟨body.tail, (List.tail_suffix body).trans hbody, rfl⟩
    · exact hmore hbody (ih h)
  | case6 _ _ _ t ts _ _ _ ih => exact hmore (List.suffix_cons t ts) (ih h)
  | case7 _ _ _ t ts _ _ _ _ ih => exact hmore (List.suffix_cons t ts) (ih h)
  | case9 _ _ _ t ts _ _ _ _ _ _ ih => exact hmore (List.suffix_cons t ts) (ih h)
  | case10 _ _ _ t ts _ _ _ _ _ ih => exact hmore (List.suffix_cons t ts) (ih h)

/-- The annotated classes take their statements from the tokens of the header. -/
theorem tokens_subset_of_mem_findings {before : Option Token} {scopes : List Scope}
    {waiting : Option (List TagLine)} {ts : List Token} {site : ClassSite} {s : MemberSite}
    (h : .defined site ∈ findings before scopes waiting ts) (hs : s ∈ site.sites) :
    s.tokens ⊆ ts := by
  obtain ⟨body, hbody, hsites⟩ := exists_body_of_mem_findings h
  rw [hsites] at hs
  exact List.Subset.trans (tokens_memberSites_subset hs) hbody.subset

/-! ### Names of members -/

/-- The name of a member is a word of its statement. -/
theorem Member.exists_word_of_ofCode? {source : List Char} {code : List Token}
    {trailing : Option Token} {m : Member} (h : Member.ofCode? source code trailing = some m) :
    ∃ t ∈ code, t.kind = .word ∧ m.name = t.text := by
  unfold Member.ofCode? at h
  simp only [Option.bind_eq_bind, Option.bind_eq_some_iff] at h
  obtain ⟨_, _, _, _, _, _, ⟨declarator, initial⟩, hdeclarator, name, hname, _, hkind, _, _, h⟩ := h
  have hword : name.kind = .word := by
    rw [Option.guard_eq_some', Bool.and_eq_true, beq_iff_eq] at hkind
    exact hkind.1
  cases h
  exact ⟨name, declarator?_subset hdeclarator (List.mem_of_getLast? hname), hword, rfl⟩

theorem MemberSite.exists_word_of_member? {source : List Char} {s : MemberSite} {m : Member}
    (h : s.member? source = some m) : ∃ t ∈ s.tokens, t.kind = .word ∧ m.name = t.text := by
  obtain ⟨t, ht, hword⟩ := Member.exists_word_of_ofCode? h
  exact ⟨t, List.mem_of_mem_filter ((withoutAttributes_sublist _).subset ht), hword⟩

/-- The members of a resolved class are those that it declares. -/
theorem DeclaredClass.members_of_resolve {c : DeclaredClass} {source : List Char} {file : String}
    {e : Entity} (h : c.resolve source file = .ok e) : e.members = c.members := by
  unfold resolve at h
  simp only [bind, Except.bind] at h
  split at h
  · cases h
  · cases h
    rfl

/-- **The name of a declared member is an identifier.** -/
theorem isNamePart_of_mem_members {source : List Char} {c : DeclaredClass}
    (hc : c ∈ declaredClasses source) {m : Member} (hm : m ∈ c.members) :
    ∀ d ∈ m.name.toList, isNamePart d := by
  obtain ⟨site, hsite, rfl⟩ := List.mem_map.1 hc
  obtain ⟨finding, hfinding, hdefined⟩ := List.mem_filterMap.1 hsite
  obtain ⟨s, hs, hmember⟩ := List.mem_filterMap.1 hm
  obtain ⟨t, ht, hword, hname⟩ := s.exists_word_of_member? hmember
  have htokens : s.tokens ⊆ Token.ofText source := by
    cases finding with
    | defined site' =>
      cases hdefined
      exact tokens_subset_of_mem_findings hfinding hs
    | _ => cases hdefined
  rw [hname]
  exact isNamePart_of_ofText (htokens ht) hword

/-- **The name of a member is an identifier.** -/
theorem isNamePart_of_name {source : List Char} {file : String} {e : Entity}
    (he : .ok e ∈ entities source file) {m : Member} (hm : m ∈ e.members) :
    ∀ c ∈ m.name.toList, isNamePart c := by
  obtain ⟨c, hc, hresolve⟩ := List.mem_map.1 he
  rw [DeclaredClass.members_of_resolve hresolve] at hm
  exact isNamePart_of_mem_members hc hm

/-! ### Names of classes -/

theorem Declaration.name_of_classHead? {before : Option Token} {ts body : List Token}
    {name : Token} (h : classHead? before ts = some (name, body)) :
    name ∈ ts ∧ name.kind = .word := by
  obtain ⟨hkind, front, rfl, -⟩ := exists_classHead? h
  exact ⟨List.mem_cons_self, hkind⟩

/-- The name of an annotated class is a word of the header. -/
theorem word_of_mem_findings {before : Option Token} {scopes : List Scope}
    {waiting : Option (List TagLine)} {ts : List Token} {site : ClassSite}
    (h : .defined site ∈ findings before scopes waiting ts) :
    site.name ∈ ts ∧ site.name.kind = .word := by
  fun_induction findings before scopes waiting ts with
  | case1 _ _ waiting => exact absurd h (not_mem_finishing waiting site)
  | case2 _ _ _ t ts _ _ ih => exact (ih h).imp_left (List.mem_cons_of_mem t)
  | case3 _ _ t ts _ _ _ _ ih =>
    have h := (List.mem_cons.1 h).resolve_left (fun heq => nomatch heq)
    exact (ih h).imp_left (List.mem_cons_of_mem t)
  | case4 _ _ t ts _ _ _ ih =>
    have h := (List.mem_cons.1 h).resolve_left (fun heq => nomatch heq)
    exact (ih h).imp_left fun hn => List.mem_cons_of_mem t (tagRun_subset ts hn)
  | case5 _ _ _ t ts _ _ ih =>
    exact (ih h).imp_left fun hn => List.mem_cons_of_mem t (namespaceHead_subset "" ts hn)
  | case8 _ _ t ts _ _ _ _ _ _ _ body hhead ih =>
    rcases List.mem_cons.1 h with heq | h
    · cases heq
      exact (name_of_classHead? hhead).imp_left (List.mem_cons_of_mem t)
    · exact (ih h).imp_left fun hn => List.mem_cons_of_mem t (classHead?_subset hhead hn)
  | case6 _ _ _ t ts _ _ _ ih => exact (ih h).imp_left (List.mem_cons_of_mem t)
  | case7 _ _ _ t ts _ _ _ _ ih => exact (ih h).imp_left (List.mem_cons_of_mem t)
  | case9 _ _ _ t ts _ _ _ _ _ _ ih => exact (ih h).imp_left (List.mem_cons_of_mem t)
  | case10 _ _ _ t ts _ _ _ _ _ ih => exact (ih h).imp_left (List.mem_cons_of_mem t)

/-- **The name of an annotated class is an identifier.** -/
theorem isNamePart_of_className {source : List Char} {c : DeclaredClass}
    (hc : c ∈ declaredClasses source) : ∀ d ∈ c.name.toList, isNamePart d := by
  obtain ⟨site, hsite, rfl⟩ := List.mem_map.1 hc
  obtain ⟨finding, hfinding, hdefined⟩ := List.mem_filterMap.1 hsite
  cases finding with
  | defined site' =>
    cases hdefined
    obtain ⟨hmem, hword⟩ := word_of_mem_findings hfinding
    exact isNamePart_of_ofText hmem hword
  | _ => cases hdefined

end RowMapping
