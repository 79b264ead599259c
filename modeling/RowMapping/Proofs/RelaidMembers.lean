import RowMapping.Proofs.ClassAttributes
import RowMapping.Proofs.CommentFree
import RowMapping.Proofs.HeaderCuts
import RowMapping.Proofs.TypeTokens
/-!
# Declarations that are laid out anew

The declaration of a member is written again with other blanks, line ends and comments between its
tokens.  The walk over the header comes to the class as before, the walk over its body comes to the
declaration as before, and the statement ends at the same semicolon.  So the member has the same
name and the same type, and the other members of the class change nothing but lines.

* `isPlacedIn_of_mem`: the walk over a body comes to each of its statements;
* `DeclarationPlace`, `exists_declarationPlace`: the declaration in the header and in the body of
  its class;
* `DeclarationPlace.exists_defines`, `DeclarationPlace.members_siteWith`: the class and its members
  with other tokens from the declaration on;
* `Relaying`, `exists_relaying`: a header in which a declaration is laid out anew;
* `Relaying.keepsMember`: what becomes of the class and its members;
* `type_respelling`: types by their tokens.
-/

namespace RowMapping

open Declaration Statement Text Token

/-! ### The place of a statement -/

section

variable {isPublic : Bool} {ts : List Token} {s : MemberSite}

/-- A statement that is cut off by the end of a body has nothing behind it but this end. -/
theorem Statement.rest_of_incomplete (depth : Nat) (params : Bool) (found : Option Token)
    (ts : List Token) (h : (read depth params found ts).kind = .incomplete) :
    ∀ t ∈ (read depth params found ts).rest.head?, t.isClose = true := by
  fun_induction read depth params found ts with
  | case1 => rintro _ ⟨⟩
  | case2 _ _ _ _ _ _ ih | case3 _ _ _ _ _ _ _ ih | case4 _ _ _ _ _ _ _ _ ih => exact ih h
  | case5 => cases h
  | case6 _ _ _ t ts _ _ _ _ hend =>
    rintro _ ⟨⟩
    exact (Bool.and_eq_true_iff.1 hend).2
  | case7 => cases h
  | case8 =>
    rename_i ih
    refine ih (Classical.not_not.1 fun hkind => ?_)
    exact (kind_nested _).2 hkind h
  | case9 =>
    rename_i ih
    exact ih h
  | case10 =>
    rename_i ih
    exact ih h

theorem memberSites_of_incomplete (isPublic : Bool) (t : Token) (ts : List Token)
    (h : (read 0 false none (t :: ts)).kind = .incomplete) :
    memberSites isPublic (read 0 false none (t :: ts)).rest = [] := by
  have hrest := rest_of_incomplete 0 false none (t :: ts) h
  cases hcases : (read 0 false none (t :: ts)).rest with
  | nil => rw [memberSites]
  | cons u us =>
    rw [hcases] at hrest
    rw [memberSites, if_pos (hrest u rfl)]

/-- A statement that ends at a semicolon, with its tokens and what is behind it. -/
structure Statement.EndsAt (t : Token) (ts tokens rest : List Token) : Prop where
  isClose : t.isClose = false
  isComment : t.isComment = false
  semicolon : t.reads ";" = false
  label : accessLabel? t ts = none
  read : Statement.read 0 false none (t :: ts) = ⟨.simple, tokens, rest⟩

/-- The statements of a body from one of them on. -/
theorem Statement.EndsAt.memberSites_eq {t : Token} {tokens rest : List Token}
    (h : EndsAt t ts tokens rest) :
    memberSites true (t :: ts) = ⟨t.line, tokens, trailing? rest⟩ :: memberSites true rest := by
  rw [memberSites_cons h.isClose h.isComment h.semicolon h.label h.read]
  rfl

/-- The walk over a body comes to the statement, public as it is. -/
def MemberSite.IsPlacedIn (s : MemberSite) (isPublic : Bool) (ts : List Token) : Prop :=
  ∃ sites t us rest, WalksTo isPublic ts sites true (t :: us) ∧ EndsAt t us s.tokens rest ∧
    s = ⟨t.line, s.tokens, trailing? rest⟩

/-- What is placed behind a statement and the comment on its line is placed in front of them too. -/
theorem MemberSite.IsPlacedIn.of_behind {t : Token} (hclose : t.isClose = false)
    (hcomment : t.isComment = false) (hsemi : t.reads ";" = false)
    (hlabel : accessLabel? t ts = none) {statement : Statement}
    (hread : Statement.read 0 false none (t :: ts) = statement)
    (hs : s ∈ memberSites isPublic (statement.rest.drop (trailing? statement.rest).toList.length))
    (h : s.IsPlacedIn isPublic
      (statement.rest.drop (trailing? statement.rest).toList.length)) :
    s.IsPlacedIn isPublic (t :: ts) := by
  obtain ⟨sites, u, us, rest, hwalk, hends⟩ := h
  refine ⟨_, u, us, rest, .statement hclose hcomment hsemi hlabel hread ?_ hwalk, hends⟩
  intro hkind
  subst hread
  rw [memberSites_drop_trailing, memberSites_of_incomplete _ _ _ hkind] at hs
  cases hs

/-- **The walk over a body comes to each of its statements.** -/
theorem isPlacedIn_of_mem (hs : s ∈ memberSites isPublic ts) : s.IsPlacedIn isPublic ts := by
  fun_induction memberSites isPublic ts with
  | case1 => cases hs
  | case2 => cases hs
  | case3 p t ts hclose hskip ih =>
    obtain ⟨sites, u, us, rest, hwalk, h⟩ := ih hs
    exact ⟨sites, u, us, rest, .skip hskip hwalk, h⟩
  | case4 p t ts hclose hskip q hlabel ih =>
    obtain ⟨-, -, c, cs, rfl, -⟩ := exists_of_accessLabel? hlabel
    obtain ⟨sites, u, us, rest, hwalk, h⟩ := ih hs
    exact ⟨sites, u, us, rest, .label hlabel hwalk, h⟩
  | case5 p t ts hclose hskip hlabel statement trailing sites hsite ih =>
    simp only [Bool.or_eq_true, not_or, Bool.not_eq_true] at hclose hskip
    rcases List.mem_cons.1 hs with rfl | hs
    · obtain ⟨hpublic, hkind⟩ := Bool.and_eq_true_iff.1 hsite
      subst hpublic
      refine ⟨[], t, ts, statement.rest, .here, ⟨hclose, hskip.1, hskip.2, hlabel, ?_⟩, rfl⟩
      rw [← of_decide_eq_true hkind]
    · exact .of_behind hclose hskip.1 hskip.2 hlabel rfl hs (ih hs)
  | case6 p t ts hclose hskip hlabel statement trailing sites hsite ih =>
    simp only [Bool.or_eq_true, not_or, Bool.not_eq_true] at hclose hskip
    exact .of_behind hclose hskip.1 hskip.2 hlabel rfl hs (ih hs)

end

/-! ### A declaration in a header -/

/-- The place of a declaration in a header: the keyword of its class, the brace that opens the body,
the tokens in front of the declaration and the semicolon behind it, with what the walk over the
header and the walk over the body have found on their ways. -/
structure DeclarationPlace (source : List Char) (site : ClassSite) (s : MemberSite) where
  front : List Token
  keyword : Token
  head : List Token
  brace : Token
  lead : List Token
  first : Token
  more : List Token
  semicolon : Token
  rest : List Token
  found : List Finding
  state : WalkState
  sites : List MemberSite
  ofText : Token.ofText source = front ++ keyword :: site.name :: (head ++ brace :: lead) ++
    (s.tokens ++ semicolon :: rest)
  tokens : s.tokens = first :: more
  isSemicolon : semicolon.reads ";" = true
  defines : Defines .start (Token.ofText source) found state keyword
    (site.name :: (head ++ brace :: (lead ++ (s.tokens ++ semicolon :: rest))))
    (brace :: (lead ++ (s.tokens ++ semicolon :: rest))) site
  walk : WalksTo site.isStruct (lead ++ (s.tokens ++ semicolon :: rest)) sites true
    (s.tokens ++ semicolon :: rest)
  ends : EndsAt first (more ++ semicolon :: rest) s.tokens rest
  site_eq : s = ⟨first.line, s.tokens, trailing? rest⟩

/-- **Every declaration in the body of an annotated class has its place.** -/
theorem exists_declarationPlace {source : List Char} {site : ClassSite} {s : MemberSite}
    (hsite : .defined site ∈ sourceFindings source) (hs : s ∈ site.sites) :
    Nonempty (DeclarationPlace source site s) := by
  obtain ⟨found, state, keyword, tail, body, hdefines⟩ := exists_defines_of_mem hsite
  have hsites : site.sites = memberSites site.isStruct body.tail := by
    rw [hdefines.site_eq]
    rfl
  rw [hsites] at hs
  cases body with
  | nil => rw [List.tail_nil, memberSites] at hs; cases hs
  | cons brace us =>
    rw [List.tail_cons] at hs
    obtain ⟨head, rfl, -, -⟩ := exists_classHead?_append hdefines.head
    obtain ⟨front, -, htext, -⟩ :=
      hdefines.comes.exists_append rfl hdefines.isClassKeyword (.refl _)
    obtain ⟨sites, first, vs, rest, hwalk, hends, hplace⟩ := isPlacedIn_of_mem hs
    obtain ⟨lead, rfl, -, -⟩ := hwalk.exists_append (List.cons_ne_nil _ _)
    obtain ⟨semicolon, hvs, hsemicolon⟩ := exists_semicolon 0 false none (first :: vs)
      (by rw [hends.read])
    rw [hends.read] at hvs
    -- the statement does not begin with its semicolon
    obtain ⟨more, htokens, rfl⟩ : ∃ more, s.tokens = first :: more ∧
        vs = more ++ semicolon :: rest := by
      cases htokens : s.tokens with
      | nil =>
        rw [htokens] at hvs
        obtain ⟨rfl, -⟩ := List.cons.inj hvs
        rw [hends.semicolon] at hsemicolon
        cases hsemicolon
      | cons u more =>
        rw [htokens] at hvs
        obtain ⟨rfl, hvs⟩ := List.cons.inj hvs
        exact ⟨more, rfl, hvs⟩
    rw [hvs] at hwalk hdefines htext
    exact ⟨{
      front, keyword, head, brace, lead, first, more, semicolon, rest, found, state, sites
      ofText := htext.trans (by simp)
      tokens := htokens
      isSemicolon := hsemicolon
      defines := hdefines
      walk := hwalk
      ends := hends
      site_eq := hplace }⟩

namespace DeclarationPlace

variable {source : List Char} {site : ClassSite} {s : MemberSite}
  (p : DeclarationPlace source site s)

/-- The tokens in front of the declaration. -/
def ahead : List Token := p.front ++ p.keyword :: site.name :: (p.head ++ p.brace :: p.lead)

theorem ofText_eq :
    Token.ofText source = p.ahead ++ (s.tokens ++ p.semicolon :: p.rest) := p.ofText

/-- The class with other tokens from the declaration on. -/
def siteWith (us : List Token) : ClassSite :=
  p.state.site p.keyword site.name site.block (p.brace :: (p.lead ++ us))

theorem siteWith_self : p.siteWith (s.tokens ++ p.semicolon :: p.rest) = site :=
  p.defines.site_eq.symm

theorem isStruct_eq : site.isStruct = p.keyword.reads "struct" :=
  congrArg ClassSite.isStruct p.defines.site_eq

/-- Other tokens from the declaration on change only the members of the class. -/
theorem withoutMembers_siteWith (us : List Token) (source' source'' : List Char) :
    ((p.siteWith us).declared source').withoutMembers =
      (site.declared source'').withoutMembers := by
  have hscope : site.scope = Scope.path p.state.scopes :=
    congrArg ClassSite.scope p.defines.site_eq
  simp only [DeclaredClass.withoutMembers, ClassSite.declared, siteWith, WalkState.site,
    p.isStruct_eq, hscope]

/-- The walk over the body comes to the place with other tokens of code there. -/
theorem walksTo {us : List Token}
    (hus : ∀ t ∈ us.head?, t.isComment = false ∧ t.reads ";" = false) :
    WalksTo site.isStruct (p.lead ++ us) p.sites true us := by
  obtain ⟨lead, hlead, -, hwalk⟩ := p.walk.exists_append (by rw [p.tokens]; simp)
  obtain rfl := List.append_cancel_right hlead
  exact hwalk us hus

/-- The statements in front of the place stand in the text in front of it. -/
theorem tokens_sites_subset {s' : MemberSite} (hs' : s' ∈ p.sites) : s'.tokens ⊆ p.ahead := by
  obtain ⟨lead, hlead, hsites, -⟩ := p.walk.exists_append (by rw [p.tokens]; simp)
  obtain rfl := List.append_cancel_right hlead
  refine List.Subset.trans (hsites s' hs') fun t ht => ?_
  simp [ahead, ht]

/-- The statements of the class with other tokens from the declaration on. -/
theorem sites_siteWith {first : Token} {us tokens rest : List Token}
    (h : EndsAt first us tokens rest) :
    (p.siteWith (first :: us)).sites =
      p.sites ++ ⟨first.line, tokens, trailing? rest⟩ :: memberSites true rest := by
  have hsites : (p.siteWith (first :: us)).sites =
      memberSites site.isStruct (p.lead ++ first :: us) := by
    rw [p.isStruct_eq]
    rfl
  have hwalk : WalksTo site.isStruct (p.lead ++ first :: us) p.sites true (first :: us) :=
    p.walksTo fun t ht => by
      cases ht
      exact ⟨h.isComment, h.semicolon⟩
  rw [hsites, hwalk.memberSites_eq, h.memberSites_eq]

/-- The members of the class with other tokens from the declaration on: those in front of the
place, the one that is declared there, and those behind it. -/
theorem members_siteWith {first : Token} {us tokens rest : List Token}
    (h : EndsAt first us tokens rest) {source' : List Char} {m : Member}
    (hm : (⟨first.line, tokens, trailing? rest⟩ : MemberSite).member? source' = some m) :
    ((p.siteWith (first :: us)).declared source').members =
      p.sites.filterMap (MemberSite.member? source') ++ m :: membersOf source' true rest := by
  rw [ClassSite.declared, p.sites_siteWith h, List.filterMap_append, List.filterMap_cons_some hm]
  rfl

/-- The members in front of the place do not depend on the text from there on. -/
theorem filterMap_member?_sites {a : List Char} (ha : Token.ofText a = p.ahead)
    (c c' : List Char) :
    p.sites.filterMap (MemberSite.member? (a ++ c)) =
      p.sites.filterMap (MemberSite.member? (a ++ c')) := by
  refine List.filterMap_congr fun s' hs' => ?_
  have hmem : s' ∈ memberSites site.isStruct (p.lead ++ (s.tokens ++ p.semicolon :: p.rest)) := by
    rw [p.walk.memberSites_eq]
    exact List.mem_append_left _ hs'
  exact member?_in_front (ha ▸ p.tokens_sites_subset hs') (isComment_of_mem_memberSites hmem) c c'

/-- **The class is found at the same place** with other tokens from the declaration on that look
alike to heads, and the classes in front of it are found with the same heads. -/
theorem exists_defines {us : List Token}
    (halike : HeadsAlike (s.tokens ++ p.semicolon :: p.rest) us) :
    ∃ found' rest, Defines .start (p.ahead ++ us) found' p.state p.keyword rest
        (p.brace :: (p.lead ++ us)) (p.siteWith us) ∧
      List.Forall₂ (Finding.Alike p.front
        (p.keyword :: site.name :: (p.head ++ p.brace :: (p.lead ++
          (s.tokens ++ p.semicolon :: p.rest))))) p.found found' := by
  have hlead : ∀ us, site.name :: (p.head ++ p.brace :: (p.lead ++ us)) =
      (site.name :: (p.head ++ p.brace :: p.lead)) ++ us := fun us => by simp
  have hahead : ∀ us, p.ahead ++ us =
      p.front ++ p.keyword :: site.name :: (p.head ++ p.brace :: (p.lead ++ us)) := fun us => by
    rw [ahead, List.append_assoc, List.cons_append, ← hlead]
  have halike' := halike.append (site.name :: (p.head ++ p.brace :: p.lead))
  rw [← hlead, ← hlead] at halike'
  obtain ⟨front, found', htext, hcomes, hfound⟩ :=
    p.defines.comes.exists_append rfl p.defines.isClassKeyword halike'
  -- the walk comes to the keyword of the class in front of the place
  obtain rfl : front = p.front :=
    List.append_cancel_right (htext.symm.trans (p.ofText_eq.trans (hahead _)))
  obtain ⟨head, hhead, -, hfind⟩ := exists_classHead?_append p.defines.head
  obtain rfl := List.append_cancel_right (List.cons.inj hhead).2
  exact ⟨found', _, ⟨hahead us ▸ hcomes, p.defines.isClassKeyword, p.defines.waiting, hfind _,
    rfl⟩, hfound⟩

end DeclarationPlace

/-! ### A declaration that is laid out anew -/

/-- In a header, the text of a statement of an annotated class is replaced by another one with the
same code, which begins with code as well.  No token runs across the ends of either. -/
structure Relaying (a text text' b : List Char) (site : ClassSite) (s : MemberSite) : Prop where
  cut : Cut a (text ++ b)
  cutBehind : Cut text b
  cut' : Cut a (text' ++ b)
  cutBehind' : Cut text' b
  defined : .defined site ∈ sourceFindings (a ++ text ++ b)
  mem : s ∈ site.sites
  tokens : (Cursor.behind a).tokens text = s.tokens
  sameCode : SameCode s.tokens ((Cursor.behind a).tokens text')
  first : ∀ t ∈ ((Cursor.behind a).tokens text').head?, t.isComment = false

namespace Relaying

variable {a text text' b : List Char} {site : ClassSite} {s : MemberSite} {m : Member}

theorem ofText_eq (h : Relaying a text text' b site s) : Token.ofText (a ++ text ++ b) =
    Token.ofText a ++ (s.tokens ++ tokensBehind a text b) := by
  rw [← h.tokens, tokensBehind, ← h.cutBehind, List.append_assoc]
  exact h.cut .start

theorem ofText_eq' (h : Relaying a text text' b site s) : Token.ofText (a ++ text' ++ b) =
    Token.ofText a ++ ((Cursor.behind a).tokens text' ++ tokensBehind a text' b) := by
  rw [tokensBehind, ← h.cutBehind', List.append_assoc]
  exact h.cut' .start

/-- The text behind the declaration has the same tokens at other places. -/
theorem map_unplaced_tokensBehind (a text text' b : List Char) :
    (tokensBehind a text b).map Token.unplaced = (tokensBehind a text' b).map Token.unplaced := by
  rw [tokensBehind, tokensBehind, Cursor.tokens, Cursor.tokens, map_unplaced_located,
    map_unplaced_located]

/-- The text is cut at the place of the declaration. -/
theorem ofText_front (h : Relaying a text text' b site s)
    (p : DeclarationPlace (a ++ text ++ b) site s) :
    Token.ofText a = p.ahead ∧ tokensBehind a text b = p.semicolon :: p.rest := by
  -- both ways to split the header have the first token of the declaration in the same place
  have hsplit := h.ofText_eq
  have hsplit' := p.ofText_eq
  rw [p.tokens, List.cons_append] at hsplit hsplit'
  obtain ⟨hfront, hbehind⟩ := append_cons_inj_of_ofText hsplit hsplit'
  exact ⟨hfront, List.append_cancel_left hbehind⟩

/-- What has the code of a member does not start with a label. -/
theorem accessLabel?_of_sameCode {source : List Char} (hm : s.member? source = some m)
    {first semicolon : Token} {more rest : List Token} (h : SameCode s.tokens (first :: more))
    (hfirst : first.isComment = false) (hsemicolon : semicolon.reads ";" = true) :
    accessLabel? first (more ++ semicolon :: rest) = none := by
  refine Option.eq_none_iff_forall_ne_some.2 fun q hlabel => ?_
  obtain ⟨hkeyword, -, u, us, hmore, hcolon⟩ := exists_of_accessLabel? hlabel
  cases more with
  | nil =>
    obtain ⟨rfl, -⟩ := List.cons.inj hmore
    rw [reads_of_ne hsemicolon (by decide)] at hcolon
    cases hcolon
  | cons v more =>
    obtain ⟨rfl, -⟩ := List.cons.inj hmore
    rw [SameCode, withoutComments_cons_code hfirst,
      withoutComments_cons_code (isComment_of_reads hcolon)] at h
    obtain ⟨t, ts, hts, ht, hrest⟩ := List.map_eq_cons_iff.1 h
    obtain ⟨w, ws, rfl, hw, -⟩ := List.map_eq_cons_iff.1 hrest
    have hno := MemberSite.not_label_of_member? hm hts (by simpa only [reads_of_unplaced_eq ht])
    rw [reads_of_unplaced_eq hw, hcolon] at hno
    cases hno

/-- The statement that is laid out anew ends at the semicolon behind it. -/
theorem exists_endsAt (h : Relaying a text text' b site s)
    (p : DeclarationPlace (a ++ text ++ b) site s)
    (hm : s.member? (a ++ text ++ b) = some m) :
    ∃ first more semicolon rest, (Cursor.behind a).tokens text' = first :: more ∧
      tokensBehind a text' b = semicolon :: rest ∧ semicolon.reads ";" = true ∧
      EndsAt first (more ++ semicolon :: rest) ((Cursor.behind a).tokens text') rest := by
  have hplaces := map_unplaced_tokensBehind a text text' b
  rw [(h.ofText_front p).2, List.map_cons] at hplaces
  obtain ⟨semicolon, rest, hbehind, hsemicolon, hrest⟩ := List.map_eq_cons_iff.1 hplaces.symm
  have hsame := h.sameCode
  rw [SameCode, p.tokens, withoutComments_cons_code p.ends.isComment, List.map_cons] at hsame
  obtain ⟨first, hfirst⟩ : ∃ first, first ∈ ((Cursor.behind a).tokens text').head? := by
    cases htokens : (Cursor.behind a).tokens text' with
    | nil => rw [htokens] at hsame; cases hsame
    | cons t ts => exact ⟨t, rfl⟩
  obtain ⟨more, htokens⟩ := List.head?_eq_some_iff.1 hfirst
  have hcomment := h.first first hfirst
  have hreads : ∀ text, semicolon.reads text = p.semicolon.reads text :=
    reads_of_unplaced_eq hsemicolon
  rw [htokens, withoutComments_cons_code hcomment, List.map_cons] at hsame
  have hreadsFirst : ∀ text, first.reads text = p.first.reads text :=
    reads_of_unplaced_eq (List.cons.inj hsame).1.symm
  have hisSemicolon : semicolon.reads ";" = true := (hreads ";").trans p.isSemicolon
  refine ⟨first, more, semicolon, rest, htokens, hbehind, hisSemicolon, ?_, hcomment, ?_, ?_, ?_⟩
  · exact (hreadsFirst "\x7d").trans p.ends.isClose
  · exact (hreadsFirst ";").trans p.ends.semicolon
  · exact accessLabel?_of_sameCode hm (htokens ▸ h.sameCode) hcomment hisSemicolon
  · have hread := p.ends.read
    rw [← List.cons_append, ← p.tokens] at hread
    rw [← List.cons_append, ← htokens]
    refine read_of_sameCode hread h.sameCode hisSemicolon (sameCode_of_map_unplaced ?_)
    rw [List.map_cons, List.map_cons, hsemicolon, hrest]

/-- To the heads in front of it, what has the same code and begins with code looks alike. -/
theorem headsAlike_of_sameCode {ts us : List Token} (h : SameCode ts us)
    (hts : ∀ t ∈ ts.head?, t.isComment = false) (hus : ∀ t ∈ us.head?, t.isComment = false) :
    HeadsAlike ts us := by
  refine ⟨fun depth hnone => ?_, ?_⟩
  · have hbare := congrArg (bodyOf? depth) h.map_bare
    rw [bodyOf?_map keeps_bare, bodyOf?_map keeps_bare, bodyOf?_withoutComments,
      bodyOf?_withoutComments, hnone] at hbare
    simpa using hbare.symm
  · cases ts with
    | nil =>
      cases us with
      | nil => rfl
      | cons u us =>
        rw [SameCode, withoutComments_cons_code (hus u rfl)] at h
        cases h
    | cons t ts =>
      rw [SameCode, withoutComments_cons_code (hts t rfl)] at h
      cases us with
      | nil => cases h
      | cons u us =>
        rw [withoutComments_cons_code (hus u rfl)] at h
        exact reads_of_unplaced_eq (List.cons.inj h).1 "::"

/-- To the heads in front of it, the header looks alike from the declaration on. -/
theorem headsAlike (h : Relaying a text text' b site s)
    (p : DeclarationPlace (a ++ text ++ b) site s) {first semicolon : Token}
    {more rest : List Token} (htokens : (Cursor.behind a).tokens text' = first :: more)
    (hbehind : tokensBehind a text' b = semicolon :: rest) :
    HeadsAlike (s.tokens ++ p.semicolon :: p.rest)
      ((Cursor.behind a).tokens text' ++ semicolon :: rest) := by
  have hplaces := map_unplaced_tokensBehind a text text' b
  rw [(h.ofText_front p).2, hbehind] at hplaces
  refine headsAlike_of_sameCode (h.sameCode.append (sameCode_of_map_unplaced hplaces)) ?_ ?_
  · rw [p.tokens]
    rintro _ ⟨⟩
    exact p.ends.isComment
  · rw [htokens]
    rintro _ ⟨⟩
    exact h.first first (by rw [htokens]; rfl)

end Relaying

/-- The second text has the class at the place where the first one has it, with the same name,
namespace and tags, and in it a member with the name and the type of `m` at the place of `m`.  The
members in front of it are the same, and those behind it are the same but for their lines. -/
def KeepsMember (source source' : List Char) (site : ClassSite) (m : Member) : Prop :=
  ∃ earlier later earlier' c later' front back m' back',
    (sourceFindings source).filterMap Finding.site? = earlier ++ site :: later ∧
    declaredClasses source' = earlier' ++ c :: later' ∧
    earlier'.map DeclaredClass.withoutMembers =
      (earlier.map (ClassSite.declared source)).map DeclaredClass.withoutMembers ∧
    c.withoutMembers = (site.declared source).withoutMembers ∧
    (site.declared source).members = front ++ m :: back ∧
    c.members = front ++ m' :: back' ∧
    m'.name = m.name ∧ m'.type = m.type ∧ m'.isOptional = m.isOptional ∧
    m'.valueType = m.valueType ∧
    back'.map Member.withoutLine = back.map Member.withoutLine

namespace Relaying

variable {a text text' b : List Char} {site : ClassSite} {s : MemberSite} {m : Member}

/-- The members behind the declaration are the same but for their lines. -/
theorem members_behind {semicolon semicolon' : Token} {rest rest' : List Token}
    (hrest : tokensBehind a text b = semicolon :: rest) (hsemicolon : semicolon.reads ";" = true)
    (hrest' : tokensBehind a text' b = semicolon' :: rest')
    (hsemicolon' : semicolon'.reads ";" = true) :
    (membersOf (a ++ text' ++ b) true rest').map Member.withoutLine =
      (membersOf (a ++ text ++ b) true rest).map Member.withoutLine := by
  have hskip : ∀ {source : List Char} {t : Token} {ts : List Token}, t.reads ";" = true →
      membersOf source true (t :: ts) = membersOf source true ts := fun ht => by
    rw [membersOf, memberSites_of_skipped (by rw [ht, Bool.or_true])]
    rfl
  have hmoved := membersOf_moved (Cursor.offset_past_behind a text)
    (Cursor.offset_past_behind a text') ((Cursor.isOrdered_behind a).past _)
    ((Cursor.isOrdered_behind a).past _) true b
  rw [tokensBehind] at hrest hrest'
  rwa [hrest, hrest', hskip hsemicolon, hskip hsemicolon'] at hmoved

/-- **A member that is laid out anew** keeps its place, its name and its type. -/
theorem keepsMember (h : Relaying a text text' b site s)
    (hm : s.member? (a ++ text ++ b) = some m) :
    KeepsMember (a ++ text ++ b) (a ++ text' ++ b) site m := by
  obtain ⟨p⟩ := exists_declarationPlace h.defined h.mem
  obtain ⟨hahead, hrest⟩ := h.ofText_front p
  obtain ⟨first, more, semicolon, rest, htokens, hbehind, hsemicolon, hends⟩ := h.exists_endsAt p hm
  have halike := h.headsAlike p htokens hbehind
  rw [htokens, List.cons_append] at halike
  obtain ⟨found', us, hdefines, hfound⟩ := p.exists_defines halike
  have hnew : Token.ofText (a ++ text' ++ b) =
      Token.ofText a ++ first :: (more ++ semicolon :: rest) := by
    rw [h.ofText_eq', htokens, hbehind, List.cons_append]
  rw [← hahead, ← hnew] at hdefines
  -- the classes in front of this one, and its members
  have hfront : p.front ⊆ Token.ofText a := by
    rw [hahead]
    exact List.subset_append_left _ _
  have hkept := keptInFront hfront hfound (text ++ b) (text' ++ b)
  rw [← List.append_assoc a text b, ← List.append_assoc a text' b] at hkept
  obtain ⟨m', hm', hname, htype⟩ := MemberSite.exists_member?_of_sameCode
    ⟨first.line, (Cursor.behind a).tokens text', trailing? rest⟩ h.sameCode hm (a ++ text' ++ b)
  have hmembers := p.members_siteWith p.ends (p.site_eq ▸ hm)
  have hmembers' := p.members_siteWith hends hm'
  rw [← List.cons_append, ← p.tokens, p.siteWith_self] at hmembers
  rw [List.append_assoc a text' b, p.filterMap_member?_sites hahead (text' ++ b) (text ++ b),
    ← List.append_assoc, ← List.append_assoc] at hmembers'
  refine ⟨_, _, _, _, _, _, _, m', _, p.defines.sites_eq,
    (congrArg (List.map (ClassSite.declared (a ++ text' ++ b))) hdefines.sites_eq).trans
      List.map_append, hkept.map_withoutMembers, p.withoutMembers_siteWith _ _ _, hmembers,
    hmembers', hname, htype, ?_, ?_, members_behind hrest p.isSemicolon hbehind hsemicolon⟩
  · rw [Member.isOptional, Member.isOptional, htype]
  · rw [Member.valueType, Member.valueType, htype]

end Relaying

/-- **Every declaration of every header can be laid out anew**, in each way that keeps its code. -/
theorem exists_relaying {source : List Char} {site : ClassSite} {s : MemberSite}
    (hsite : .defined site ∈ sourceFindings source) (hs : s ∈ site.sites) :
    ∃ a text b, source = a ++ text ++ b ∧
      ∀ text', Cut a (text' ++ b) → Cut text' b →
        SameCode s.tokens ((Cursor.behind a).tokens text') →
        (∀ t ∈ ((Cursor.behind a).tokens text').head?, t.isComment = false) →
        Relaying a text text' b site s := by
  obtain ⟨p⟩ := exists_declarationPlace hsite hs
  obtain ⟨a, text, b, rfl, hcut, hcutBehind, htokens⟩ := exists_cut p.ofText_eq
  exact ⟨a, text, b, rfl, fun text' hcut' hcutBehind' hcode hfirst =>
    ⟨hcut, hcutBehind, hcut', hcutBehind', hsite, hs, htokens, hcode, hfirst⟩⟩

/-- **Types are told by their tokens.**  The spelling of any names, numbers and marks of types is
cut into the same tokens again, so different ones are spelled differently and members of the same
type have the same tokens of it.  When the declaration of a member of an annotated class is laid out
anew, with other blanks, line ends and comments between its tokens, the member keeps its type, and
with it whether it may be empty and the type of its value; every declaration of every header can be
laid out anew like this. -/
theorem type_respelling :
    (∀ ts : List Token, (∀ t ∈ ts, t.IsOfType) →
      (Token.stream (spelling ts).toList).map Token.unplaced =
        ts.map Token.unplaced ++ [(.finish, "")]) ∧
    (∀ ts us : List Token, (∀ t ∈ ts, t.IsOfType) → (∀ t ∈ us, t.IsOfType) →
      spelling ts = spelling us → ts.map Token.unplaced = us.map Token.unplaced) ∧
    (∀ (source source' : List Char) (s s' : MemberSite) (m m' : Member),
      s.member? source = some m → s'.member? source' = some m' →
      (∀ t ∈ s.typeTokens, t.IsOfType) → (∀ t ∈ s'.typeTokens, t.IsOfType) → m.type = m'.type →
      s.typeTokens.map Token.unplaced = s'.typeTokens.map Token.unplaced) ∧
    (∀ (a text text' b : List Char) (site : ClassSite) (s : MemberSite) (m : Member),
      Relaying a text text' b site s → s.member? (a ++ text ++ b) = some m →
      KeepsMember (a ++ text ++ b) (a ++ text' ++ b) site m) ∧
    ∀ (source : List Char) (site : ClassSite) (s : MemberSite),
      .defined site ∈ sourceFindings source → s ∈ site.sites →
      ∃ a text b, source = a ++ text ++ b ∧
        ∀ text', Cut a (text' ++ b) → Cut text' b →
          SameCode s.tokens ((Cursor.behind a).tokens text') →
          (∀ t ∈ ((Cursor.behind a).tokens text').head?, t.isComment = false) →
          Relaying a text text' b site s :=
  ⟨fun _ => stream_spelling, fun _ _ => map_unplaced_of_spelling_eq,
    fun _ _ _ _ _ _ => MemberSite.map_unplaced_of_type_eq,
    fun _ _ _ _ _ _ _ => Relaying.keepsMember, fun _ _ _ => exists_relaying⟩

/-- The text of a header in front of a declaration. -/
def letterFront : List Char := "// @relais table=letters\nstruct Letter \x7b\n    ".toList

/-- The declaration. -/
def letterText : List Char := "std::optional<std::string> subject".toList

/-- The declaration on three lines, with comments. -/
def letterRelaid : List Char :=
  "std::optional<\n        std::string // one line\n    > /* or none */ subject".toList

/-- The text from the end of the declaration on. -/
def letterBehind : List Char := ";\n    int64_t owner;\n\x7d;\n".toList

/-- The statement with the declaration. -/
def letterSubject : MemberSite := ⟨3, (Cursor.behind letterFront).tokens letterText, none⟩

/-- The statement with the declaration on three lines. -/
def letterSubjectRelaid : MemberSite := ⟨3, (Cursor.behind letterFront).tokens letterRelaid, none⟩

/-- The class in this header. -/
def letterSite : ClassSite where
  name := ⟨.word, "Letter", 2, 8, 32, 38, false⟩
  isStruct := true
  scope := ""
  block := [⟨false, "table=letters".toList⟩]
  sites :=
    [letterSubject, ⟨4, (tokensBehind letterFront letterText letterBehind).extract 1 3, none⟩]

theorem letter_relaying :
    Relaying letterFront letterText letterRelaid letterBehind letterSite letterSubject := by
  have hfront : letterFront = _ := String.toList_ofList
  have htext : letterText = _ := String.toList_ofList
  have hrelaid : letterRelaid = _ := String.toList_ofList
  have hbehind : letterBehind = _ := String.toList_ofList
  rw [letterSite, letterSubject, hfront, htext, hrelaid, hbehind]
  exact {
    cut := cut_of_lexemes (by decide +kernel)
    cutBehind := cut_of_lexemes (by decide +kernel)
    cut' := cut_of_lexemes (by decide +kernel)
    cutBehind' := cut_of_lexemes (by decide +kernel)
    defined := by decide +kernel
    mem := List.mem_cons_self
    tokens := rfl
    sameCode := by decide +kernel
    first := by decide +kernel }

/-- The subject of a letter keeps its type when its declaration is laid out on three lines, and an
array of texts is spelled alike in two layouts. -/
theorem type_respelling_letter :
    (Token.stream (spelling (Token.ofText "std::array < const char * ,8 > &".toList)).toList).map
        Token.unplaced =
      (Token.ofText "std::array < const char * ,8 > &".toList).map Token.unplaced ++
        [(.finish, "")] ∧
    (Token.ofText "std::array < const char * ,8 > &".toList).map Token.unplaced =
      (Token.ofText "std::array<const char*, 8>&".toList).map Token.unplaced ∧
    letterSubject.typeTokens.map Token.unplaced =
      letterSubjectRelaid.typeTokens.map Token.unplaced ∧
    (∃ m, letterSubject.member? (letterFront ++ letterText ++ letterBehind) = some m ∧
      m.type = "std::optional<std::string>" ∧
      KeepsMember (letterFront ++ letterText ++ letterBehind)
        (letterFront ++ letterRelaid ++ letterBehind) letterSite m) ∧
    ∃ a text b, letterFront ++ letterText ++ letterBehind = a ++ text ++ b ∧
      ∀ text', Cut a (text' ++ b) → Cut text' b →
        SameCode letterSubject.tokens ((Cursor.behind a).tokens text') →
        (∀ t ∈ ((Cursor.behind a).tokens text').head?, t.isComment = false) →
        Relaying a text text' b letterSite letterSubject := by
  obtain ⟨hstream, hspelling, hmembers, hkeeps, hplaces⟩ := type_respelling
  have hfront : letterFront = _ := String.toList_ofList
  have htext : letterText = _ := String.toList_ofList
  have hrelaid : letterRelaid = _ := String.toList_ofList
  have hbehind : letterBehind = _ := String.toList_ofList
  have hoftype : ∀ (source : List Char) (ts : List Token), (∀ t ∈ ts, t ∈ Token.ofText source ∧
      (t.kind = .word ∨ t.kind = .number ∨ t.kind = .mark ∧ t.text ∈ spelledMarks)) →
      ∀ t ∈ ts, t.IsOfType := fun _ _ h t ht => ⟨⟨_, (h t ht).1⟩, (h t ht).2⟩
  have harray := hoftype "std::array < const char * ,8 > &".toList
    (Token.ofText "std::array < const char * ,8 > &".toList) (by decide +kernel)
  have harray' := hoftype "std::array<const char*, 8>&".toList
    (Token.ofText "std::array<const char*, 8>&".toList) (by decide +kernel)
  have hsubject := hoftype (letterFront ++ letterText ++ letterBehind) letterSubject.typeTokens
    (by rw [letterSubject, hfront, htext, hbehind]; decide +kernel)
  have hsubject' := hoftype (letterFront ++ letterRelaid ++ letterBehind)
    letterSubjectRelaid.typeTokens
    (by rw [letterSubjectRelaid, hfront, hrelaid, hbehind]; decide +kernel)
  obtain ⟨m, hm, htype⟩ : ∃ m,
      letterSubject.member? (letterFront ++ letterText ++ letterBehind) = some m ∧
        m.type = "std::optional<std::string>" :=
    Option.map_eq_some_iff.1 (by rw [letterSubject, hfront, htext, hbehind]; decide +kernel)
  obtain ⟨m', hm', htype'⟩ : ∃ m,
      letterSubjectRelaid.member? (letterFront ++ letterRelaid ++ letterBehind) = some m ∧
        m.type = "std::optional<std::string>" :=
    Option.map_eq_some_iff.1 (by rw [letterSubjectRelaid, hfront, hrelaid, hbehind]; decide +kernel)
  exact ⟨hstream _ harray, hspelling _ _ harray harray' (by decide +kernel),
    hmembers _ _ _ _ _ _ hm hm' hsubject hsubject' (htype.trans htype'.symm),
    ⟨m, hm, htype, hkeeps _ _ _ _ _ _ _ letter_relaying hm⟩,
    hplaces _ _ _ letter_relaying.defined letter_relaying.mem⟩

end RowMapping
