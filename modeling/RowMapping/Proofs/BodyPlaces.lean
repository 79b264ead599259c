import RowMapping.Proofs.InsertedText
/-!
# Places in a class body

The walk over a class body comes to places between its statements.  What it has found in front of
such a place does not depend on what stands behind it: when other code is put there, the walk comes
to it with the same sites and the same access.

* `closing_append_of_ne_nil`, `Statement.exists_read_append`: a group of braces and a statement are
  read alike with other tokens behind them;
* `WalksTo`: the walk over a body comes to a place;
* `WalksTo.memberSites_eq`: the sites of a body are those found in front of the place and those
  behind it;
* `WalksTo.exists_append`: other tokens behind the place;
* `exists_bodyMembers_eq`: text that is inserted at the place.
-/

namespace RowMapping

open Declaration Statement Token Text

/-! ### Other tokens behind a statement -/

/-- Where the tokens go on behind a group, it is closed, and whatever is behind it is the rest. -/
theorem closing_append_of_ne_nil {depth : Nat} {ts : List Token} (h : (closing depth ts).2 ≠ [])
    (us : List Token) :
    closing depth ((closing depth ts).1 ++ us) = ((closing depth ts).1, us) := by
  induction ts generalizing depth with
  | nil => exact absurd rfl h
  | cons t ts ih =>
    by_cases hlast : (t.isClose && depth ≤ 1) = true
    · simp only [closing, if_pos hlast, List.singleton_append]
    · simp only [closing, if_neg hlast] at h ⊢
      simp only [List.cons_append, closing, if_neg hlast, ih h]

/-- A semicolon is left out in front, or there is none. -/
theorem skipSemicolon_cases (ts : List Token) :
    (∃ u, u.reads ";" = true ∧ ts = u :: skipSemicolon ts) ∨
      skipSemicolon ts = ts ∧ ∀ t ∈ ts.head?, t.reads ";" = false := by
  cases ts with
  | nil => exact .inr ⟨rfl, by simp⟩
  | cons u ts =>
    by_cases hu : u.reads ";" = true
    · exact .inl ⟨u, hu, by rw [skipSemicolon, if_pos hu]⟩
    · refine .inr ⟨by rw [skipSemicolon, if_neg hu], ?_⟩
      rintro _ ⟨⟩
      exact Bool.eq_false_iff.2 hu

/-- The tokens may stand where `rest` stood: they start with a semicolon only when it does. -/
def MayFollow (rest us : List Token) : Prop :=
  ∀ t ∈ us.head?, t.reads ";" = true → ∃ u ∈ rest.head?, u.reads ";" = true

namespace Statement

variable {depth : Nat} {params : Bool} {found : Option Token} {ts : List Token}

theorem kind_nested (s : Statement) : s.nested.kind ≠ .incomplete ↔ s.kind ≠ .incomplete := by
  rw [nested]
  split <;> simp_all

/-- The tokens end with the rest of the statement that is read from them, and it is read alike when
other tokens that may stand there are behind it. -/
def EndsAnywhere (depth : Nat) (params : Bool) (found : Option Token) (ts : List Token) : Prop :=
  ∃ front, ts = front ++ (read depth params found ts).rest ∧
    ∀ us, MayFollow (read depth params found ts).rest us →
      read depth params found (front ++ us) = { read depth params found ts with rest := us }

/-- With more tokens in front, which change how the statement is read but not where it ends. -/
theorem EndsAnywhere.append (f : Statement → Statement) (more : List Token) {depth' : Nat}
    {params' : Bool} {found' : Option Token} (h : EndsAnywhere depth' params' found' ts)
    (hread : ∀ us, read depth params found (more ++ us) = f (read depth' params' found' us))
    (hf : ∀ s us, f { s with rest := us } = { f s with rest := us }) :
    EndsAnywhere depth params found (more ++ ts) := by
  obtain ⟨front, hts, hfront⟩ := h
  have hrest : ∀ s : Statement, (f s).rest = s.rest := fun s => by
    have hs := hf s s.rest
    rw [hs]
  rw [EndsAnywhere, hread, hrest]
  refine ⟨more ++ front, by rw [List.append_assoc, ← hts], fun us hus => ?_⟩
  rw [List.append_assoc, hread, hfront us hus, hf]

/-- With one more token in front. -/
theorem EndsAnywhere.cons {depth' : Nat} {params' : Bool} {found' : Option Token} {t : Token}
    (h : EndsAnywhere depth' params' found' ts)
    (hread : ∀ us, read depth params found (t :: us) = after [t] (read depth' params' found' us)) :
    EndsAnywhere depth params found (t :: ts) :=
  EndsAnywhere.append (after [t]) [t] h hread fun _ _ => rfl

/-- **A statement that comes to its end is read alike with other tokens behind it.** -/
theorem endsAnywhere (hkind : (read depth params found ts).kind ≠ .incomplete)
    (hrest : (read depth params found ts).rest ≠ []) : EndsAnywhere depth params found ts := by
  fun_induction read depth params found ts with
  | case1 | case6 => exact absurd rfl hkind
  | case2 _ _ _ _ _ ht ih => exact (ih hkind hrest).cons fun us => by rw [read, if_pos ht]
  | case3 _ _ _ _ _ ht ht' ih =>
    exact (ih hkind hrest).cons fun us => by rw [read, if_neg ht, if_pos ht']
  | case4 _ _ _ _ _ ht ht' hclose ih =>
    exact (ih hkind hrest).cons fun us => by rw [read, if_neg ht, if_neg ht', if_pos hclose]
  | case10 _ _ _ _ _ ht ht' hclose hsemi hend hopen ih =>
    exact (ih hkind hrest).cons fun us => by
      rw [read, if_neg ht, if_neg ht', if_neg hclose, if_neg hsemi, if_neg hend, if_neg hopen]
  | case5 depth params found t ts ht ht' hclose hsemi =>
    have hread : ∀ us, read depth params found (t :: us) = ⟨.simple, [], us⟩ := fun us => by
      rw [read, if_neg ht, if_neg ht', if_neg hclose, if_pos hsemi]
    exact ⟨[t], by rw [hread]; rfl, fun us _ => by rw [hread ts]; exact hread us⟩
  | case7 depth found t ts ht ht' hclose hsemi hend hopen =>
    have hne : (closing 1 ts).2 ≠ [] := fun hnil => hrest (by rw [hnil, skipSemicolon])
    have hread : ∀ us, read depth true found (t :: ((closing 1 ts).1 ++ us)) =
        ⟨.function, t :: (closing 1 ts).1, skipSemicolon us⟩ := fun us => by
      rw [read, if_neg ht, if_neg ht', if_neg hclose, if_neg hsemi, if_neg hend, if_pos hopen,
        closing_append_of_ne_nil hne]
      rfl
    have hself := hread (closing 1 ts).2
    rw [closing_append] at hself
    rw [EndsAnywhere, hself]
    rcases skipSemicolon_cases (closing 1 ts).2 with ⟨u, hu, hskip⟩ | ⟨hskip, hfirst⟩
    · -- the semicolon behind the body of a function belongs to it
      refine ⟨t :: ((closing 1 ts).1 ++ [u]), ?_, fun us _ => ?_⟩
      · rw [List.cons_append, List.append_assoc, List.singleton_append, ← hskip, closing_append]
      · rw [List.cons_append, List.append_assoc, List.singleton_append, hread, skipSemicolon,
          if_pos hu]
    · refine ⟨t :: (closing 1 ts).1, ?_, fun us hus => ?_⟩
      · rw [List.cons_append, hskip, closing_append]
      · have hus' : skipSemicolon us = us := by
          rcases skipSemicolon_cases us with ⟨u, hu, hskip'⟩ | ⟨hskip', -⟩
          · obtain ⟨v, hv, hsemi'⟩ := hus u (by rw [hskip']; rfl) hu
            rw [hskip] at hv
            rw [hfirst v hv] at hsemi'
            cases hsemi'
          · exact hskip'
        rw [List.cons_append, hread, hus']
  | case8 depth params found t ts ht ht' hclose hsemi hend hopen hparams hdefines ih =>
    rw [kind_after, kind_nested] at hkind
    have hne : (closing 1 ts).2 ≠ [] := fun hnil => hkind (by rw [hnil, read])
    have hread : ∀ us, read depth params found (t :: ((closing 1 ts).1 ++ us)) =
        after (t :: (closing 1 ts).1) (read 0 false none us).nested := fun us => by
      rw [read, if_neg ht, if_neg ht', if_neg hclose, if_neg hsemi, if_neg hend, if_pos hopen,
        if_neg hparams, if_pos hdefines, closing_append_of_ne_nil hne]
    have hends := EndsAnywhere.append (fun s => after (t :: (closing 1 ts).1) s.nested)
      (t :: (closing 1 ts).1) (ih hkind hrest) hread fun _ _ => rfl
    rwa [List.cons_append, closing_append] at hends
  | case9 depth params found t ts ht ht' hclose hsemi hend hopen hparams hdefines ih =>
    have hne : (closing 1 ts).2 ≠ [] := fun hnil => hkind (by rw [kind_after, hnil, read])
    have hread : ∀ us, read depth params found (t :: ((closing 1 ts).1 ++ us)) =
        after (t :: (closing 1 ts).1) (read 0 params (leader found t) us) := fun us => by
      rw [read, if_neg ht, if_neg ht', if_neg hclose, if_neg hsemi, if_neg hend, if_pos hopen,
        if_neg hparams, if_neg hdefines, closing_append_of_ne_nil hne]
    have hends := EndsAnywhere.append (after (t :: (closing 1 ts).1)) (t :: (closing 1 ts).1)
      (ih hkind hrest) hread fun _ _ => rfl
    rwa [List.cons_append, closing_append] at hends

/-- A single token is no statement, unless it is a semicolon or closes the body. -/
theorem kind_read_singleton {t : Token} (hsemi : t.reads ";" = false) (hclose : t.isClose = false) :
    (read 0 false none [t]).kind = .incomplete := by
  have hnil : ∀ depth params found, read depth params found [] = ⟨.incomplete, [], []⟩ :=
    fun _ _ _ => by rw [read]
  have hnested : nested ⟨.incomplete, [], []⟩ = ⟨.incomplete, [], []⟩ := rfl
  have hclosing : closing 1 [] = ([], []) := rfl
  rw [read]
  simp only [hsemi, hclose, Bool.and_false, Bool.false_eq_true, if_false, hclosing, hnil, hnested]
  split_ifs <;> rfl

/-- A statement that comes to its end and does not start with a semicolon has two tokens or more. -/
theorem exists_front {t : Token} (hclose : t.isClose = false) (hsemi : t.reads ";" = false)
    (hkind : (read 0 false none (t :: ts)).kind ≠ .incomplete)
    (hrest : (read 0 false none (t :: ts)).rest ≠ []) :
    ∃ u front, ts = u :: (front ++ (read 0 false none (t :: ts)).rest) ∧
      (read 0 false none (t :: ts)).tokens ⊆ t :: u :: front ∧
      ∀ us, MayFollow (read 0 false none (t :: ts)).rest us →
        read 0 false none (t :: u :: (front ++ us)) =
          { read 0 false none (t :: ts) with rest := us } := by
  obtain ⟨front, hts, hread⟩ := endsAnywhere hkind hrest
  obtain ⟨mid, hmid⟩ := exists_read_eq 0 false none (t :: ts)
  have hlength := (length_read 0 false none (t :: ts)).2 t rfl hclose
  match front with
  | [] =>
    rw [List.nil_append] at hts
    rw [← hts] at hlength
    exact absurd hlength (Nat.lt_irrefl _)
  | [v] =>
    -- the token in front would be a statement of its own
    obtain ⟨rfl, -⟩ := List.cons.inj hts
    have hsingle := congrArg Statement.kind (hread [] (by simp [MayFollow]))
    rw [List.append_nil, kind_read_singleton hsemi hclose] at hsingle
    exact absurd hsingle.symm hkind
  | v :: u :: front =>
    obtain ⟨rfl, hts'⟩ := List.cons.inj hts
    refine ⟨u, front, hts', ?_, hread⟩
    have hfront : (read 0 false none (t :: ts)).tokens ++ mid = t :: u :: front :=
      List.append_cancel_right (hmid.symm.trans hts)
    rw [← hfront]
    exact List.subset_append_left _ _

end Statement

/-- The comment on the line of its end is the first token behind a statement. -/
theorem toList_trailing?_append_drop (ts : List Token) :
    (trailing? ts).toList ++ ts.drop (trailing? ts).toList.length = ts := by
  rcases trailing?_cases ts with h | ⟨t, us, rfl, -, h⟩ <;> rw [h] <;> rfl

/-- Behind a statement, the comment on the line of its end and the tokens up to a place may stand
in front of other tokens than those behind the place. -/
theorem mayFollow_of_place {rest back behind us : List Token}
    (hrest : (trailing? rest).toList ++ (back ++ behind) = rest)
    (hus : ∀ u ∈ us.head?, u.isComment = false ∧ u.reads ";" = false) :
    MayFollow rest ((trailing? rest).toList ++ (back ++ us)) ∧
      trailing? ((trailing? rest).toList ++ (back ++ us)) = trailing? rest := by
  have hsame : ∀ t ts ts', MayFollow (t :: ts) (t :: ts') := by
    rintro t ts ts' _ ⟨⟩ hsemi
    exact ⟨t, rfl, hsemi⟩
  rcases trailing?_cases rest with h | ⟨t, ts, rfl, -, h⟩
  · rw [h, Option.toList_none, List.nil_append] at hrest ⊢
    cases back with
    | nil =>
      refine ⟨fun u hu hsemi => ?_, trailing?_append (fun u hu => (hus u hu).1) []⟩
      rw [(hus u hu).2] at hsemi
      cases hsemi
    | cons t back =>
      subst hrest
      exact ⟨hsame _ _ _, h⟩
  · rw [h] at hrest ⊢
    exact ⟨hsame _ _ _, h⟩

/-! ### The places that a walk comes to -/

variable {isPublic access : Bool} {ts rest : List Token} {sites : List MemberSite} {t : Token}

/-- The walk over a body comes to a place: `rest` stands behind it, `sites` are found in front of
it, and the access there is `access`.  On its way it passes comments and semicolons, labels, and
statements that come to their end, each with the comment on its line. -/
inductive WalksTo : Bool → List Token → List MemberSite → Bool → List Token → Prop
  | here {isPublic : Bool} {ts : List Token} : WalksTo isPublic ts [] isPublic ts
  | skip {isPublic access : Bool} {t : Token} {ts rest : List Token} {sites : List MemberSite}
      (hskip : (t.isComment || t.reads ";") = true) (h : WalksTo isPublic ts sites access rest) :
      WalksTo isPublic (t :: ts) sites access rest
  | label {isPublic given access : Bool} {t u : Token} {ts rest : List Token}
      {sites : List MemberSite} (hlabel : accessLabel? t (u :: ts) = some given)
      (h : WalksTo given ts sites access rest) : WalksTo isPublic (t :: u :: ts) sites access rest
  | statement {isPublic access : Bool} {t : Token} {ts rest : List Token} {s : Statement}
      {sites : List MemberSite} (hclose : t.isClose = false) (hcomment : t.isComment = false)
      (hsemi : t.reads ";" = false) (hlabel : accessLabel? t ts = none)
      (hread : Statement.read 0 false none (t :: ts) = s) (hkind : s.kind ≠ .incomplete)
      (h : WalksTo isPublic (s.rest.drop (trailing? s.rest).toList.length) sites access rest) :
      WalksTo isPublic (t :: ts)
        ((if isPublic && s.kind = .simple then [⟨t.line, s.tokens, trailing? s.rest⟩] else []) ++
          sites) access rest

namespace WalksTo

/-- **The sites of a body** are those in front of the place and those behind it. -/
theorem memberSites_eq (h : WalksTo isPublic ts sites access rest) :
    memberSites isPublic ts = sites ++ memberSites access rest := by
  induction h with
  | here => rfl
  | skip hskip _ ih => rw [memberSites_of_skipped hskip, ih]
  | label hlabel _ ih =>
    obtain ⟨hkeyword, rfl, u, us, hts, hcolon⟩ := exists_of_accessLabel? hlabel
    cases hts
    rw [memberSites_label hkeyword hcolon, ih]
  | @statement _ _ _ _ _ s _ hclose hcomment hsemi hlabel hread _ _ ih =>
    rw [memberSites_cons hclose hcomment hsemi hlabel hread, List.append_assoc, ← ih,
      memberSites_drop_trailing]

/-- **What the walk has found in front of a place does not depend on what is behind it**, as long as
neither a comment nor a semicolon comes first there. -/
theorem exists_append (h : WalksTo isPublic ts sites access rest) (hrest : rest ≠ []) :
    ∃ front, ts = front ++ rest ∧ (∀ s ∈ sites, s.tokens ⊆ front) ∧
      ∀ us : List Token, (∀ u ∈ us.head?, u.isComment = false ∧ u.reads ";" = false) →
        WalksTo isPublic (front ++ us) sites access us := by
  induction h with
  | here => exact ⟨[], rfl, by simp, fun us _ => here⟩
  | @skip _ _ t _ _ _ hskip _ ih =>
    obtain ⟨front, hts, hsites, hwalk⟩ := ih hrest
    exact ⟨t :: front, congrArg (t :: ·) hts,
      fun s hs => List.subset_cons_of_subset t (hsites s hs),
      fun us hus => skip hskip (hwalk us hus)⟩
  | @label _ _ _ t u _ _ _ hlabel _ ih =>
    obtain ⟨front, hts, hsites, hwalk⟩ := ih hrest
    exact ⟨t :: u :: front, congrArg (fun ts => t :: u :: ts) hts,
      fun s hs => List.subset_cons_of_subset t (List.subset_cons_of_subset u (hsites s hs)),
      fun us hus => label hlabel (hwalk us hus)⟩
  | @statement p access t ts rest s sites hclose hcomment hsemi hlabel hread hkind h ih =>
    obtain ⟨back, hback, hsites, hwalk⟩ := ih hrest
    subst hread
    have hne : (Statement.read 0 false none (t :: ts)).rest ≠ [] := fun hnil => by
      rw [hnil, List.drop_nil] at hback
      exact hrest (List.append_eq_nil_iff.1 hback.symm).2
    obtain ⟨u, front, hts, htokens, hfront⟩ := Statement.exists_front hclose hsemi hkind hne
    generalize Statement.read 0 false none (t :: ts) = s at *
    -- the comment behind the statement, and what the walk passes after it
    have hmid := toList_trailing?_append_drop s.rest
    rw [hback] at hmid
    refine ⟨t :: u :: (front ++ ((trailing? s.rest).toList ++ back)), ?_, ?_, fun us hus => ?_⟩
    · simp only [hts, List.cons_append, List.append_assoc, hmid]
    · intro site hsite
      have hlast : ∀ x ∈ back, x ∈ t :: u :: (front ++ ((trailing? s.rest).toList ++ back)) := by
        simp +contextual
      rcases List.mem_append.1 hsite with hsite | hsite
      · split_ifs at hsite
        · obtain rfl := List.mem_singleton.1 hsite
          exact List.Subset.trans htokens (List.subset_append_left (t :: u :: front) _)
        · cases hsite
      · exact fun x hx => hlast x (hsites site hsite hx)
    · obtain ⟨hfollow, htrailing⟩ := mayFollow_of_place hmid hus
      have hread := hfront ((trailing? s.rest).toList ++ (back ++ us)) hfollow
      have hlabel' : accessLabel? t (u :: (front ++ ((trailing? s.rest).toList ++ (back ++ us)))) =
          none := by
        rw [hts] at hlabel
        exact hlabel
      have hdrop : ((trailing? s.rest).toList ++ (back ++ us)).drop
          (trailing? ((trailing? s.rest).toList ++ (back ++ us))).toList.length = back ++ us := by
        rw [htrailing, List.drop_left]
      have hwalk' := statement hclose hcomment hsemi hlabel' hread hkind (hdrop ▸ hwalk us hus)
      simpa only [List.cons_append, List.append_assoc, htrailing] using hwalk'

end WalksTo

/-! ### Text that is inserted at a place -/

/-- The members of a body that starts behind the first `n` tokens of a text. -/
def bodyMembers (source : List Char) (n : Nat) (isPublic : Bool) : List Member :=
  membersOf source isPublic ((Token.ofText source).drop n)

/-- **Text that is inserted at a place of a body** leaves the members in front of it as they are;
those behind it are read behind the tokens of the new text, with the same access. -/
theorem exists_bodyMembers_eq {a more b : List Char} {n : Nat} (hcut : Cut a b)
    (hmore : Cut a (more ++ b)) (hmore' : Cut more b)
    (hplace : WalksTo isPublic ((Token.ofText (a ++ b)).drop n) sites access
      ((Cursor.behind a).tokens b))
    (hbehind : (Cursor.behind a).tokens b ≠ [])
    (hfirst : ∃ t ∈ ((Cursor.behind a).tokens more).head?,
      t.isComment = false ∧ t.reads ";" = false) :
    ∃ front,
      (bodyMembers (a ++ b) n isPublic).map Member.withoutLine =
        (front ++ membersOf (a ++ more ++ b) access
          (((Cursor.behind a).past (lexemes more)).tokens b)).map Member.withoutLine ∧
      bodyMembers (a ++ more ++ b) n isPublic =
        front ++ membersOf (a ++ more ++ b) access ((Cursor.behind a).tokens more ++
          ((Cursor.behind a).past (lexemes more)).tokens b) := by
  have hold : Token.ofText (a ++ b) = Token.ofText a ++ (Cursor.behind a).tokens b := hcut .start
  have hnew : Token.ofText (a ++ more ++ b) = Token.ofText a ++ ((Cursor.behind a).tokens more ++
      ((Cursor.behind a).past (lexemes more)).tokens b) := by
    rw [← hmore', List.append_assoc]
    exact hmore .start
  obtain ⟨front, hfront, hsites, hwalk⟩ := hplace.exists_append hbehind
  have hn : n ≤ (Token.ofText a).length := by
    have hlength := congrArg List.length hfront
    have hpos := List.length_pos_iff.2 hbehind
    rw [hold, List.length_drop, List.length_append, List.length_append] at hlength
    omega
  rw [hold, List.drop_append_of_le_length hn] at hfront hplace
  obtain rfl := List.append_cancel_right hfront
  have hwalk' := hwalk ((Cursor.behind a).tokens more ++
    ((Cursor.behind a).past (lexemes more)).tokens b) <| by
      obtain ⟨t, ht, hcode⟩ := hfirst
      cases hM : (Cursor.behind a).tokens more with
      | nil => rw [hM] at ht; cases ht
      | cons u us =>
        rw [hM] at ht
        cases ht
        rintro _ ⟨⟩
        exact hcode
  -- the members in front of the place
  have hkept : sites.filterMap (MemberSite.member? (a ++ b)) =
      sites.filterMap (MemberSite.member? (a ++ more ++ b)) := by
    refine List.filterMap_congr fun s hs => ?_
    have hs' := hplace.memberSites_eq ▸ List.mem_append_left (memberSites access _) hs
    rw [List.append_assoc]
    exact member?_in_front (List.Subset.trans (hsites s hs) (List.drop_subset _ _))
      (isComment_of_mem_memberSites hs') b (more ++ b)
  have hmoved := membersOf_moved (Cursor.offset_behind a) (Cursor.offset_past_behind a more)
    (Cursor.isOrdered_behind a) ((Cursor.isOrdered_behind a).past _) access b
  refine ⟨sites.filterMap (MemberSite.member? (a ++ more ++ b)), ?_, ?_⟩
  · rw [bodyMembers, hold, List.drop_append_of_le_length hn, membersOf, hplace.memberSites_eq,
      List.filterMap_append, hkept, List.map_append, List.map_append, hmoved]
    rfl
  · rw [bodyMembers, hnew, List.drop_append_of_le_length hn, membersOf, hwalk'.memberSites_eq,
      List.filterMap_append]
    rfl

end RowMapping
