import RowMapping.Proofs.BodyPlaces
import RowMapping.Proofs.LineByLine
import RowMapping.Proofs.TrailingComments
/-!
# Comments between the tokens of a statement

A statement is told by its code: where it ends, and what it declares, does not depend on the
comments between its tokens, nor on their places.

* `withoutComments`, `Token.bare`: the code among some tokens, and a token without its place;
* `SameCode`: two lists of tokens with the same code;
* `closing_withoutComments`, `Statement.read_withoutComments`, `bodyOf?_withoutComments`: groups,
  statements and bodies;
* `Statement.read_of_sameCode`: a statement that is laid out anew;
* `Member.declaredBy?`, `MemberSite.exists_member?_of_sameCode`: the name and the type of a member.
-/

namespace RowMapping

open Declaration Statement Token

/-- The tokens of code among some tokens. -/
def withoutComments (ts : List Token) : List Token := ts.filter fun t => !t.isComment

section

variable {t u : Token} {ts us : List Token}

@[simp] theorem withoutComments_nil : withoutComments [] = [] := rfl

theorem withoutComments_cons_comment (h : t.isComment = true) (ts : List Token) :
    withoutComments (t :: ts) = withoutComments ts :=
  List.filter_cons_of_neg (by simp [h])

theorem withoutComments_cons_code (h : t.isComment = false) (ts : List Token) :
    withoutComments (t :: ts) = t :: withoutComments ts :=
  List.filter_cons_of_pos (by simp [h])

@[simp] theorem withoutComments_append (ts us : List Token) :
    withoutComments (ts ++ us) = withoutComments ts ++ withoutComments us := List.filter_append ..

theorem isComment_of_mem_withoutComments (h : t ∈ withoutComments ts) : t.isComment = false := by
  simpa using (List.mem_filter.1 h).2

/-- Two lists of tokens with the same code, but for its places. -/
def SameCode (ts us : List Token) : Prop :=
  (withoutComments ts).map Token.unplaced = (withoutComments us).map Token.unplaced

instance (ts us : List Token) : Decidable (SameCode ts us) :=
  inferInstanceAs (Decidable (_ = _))

theorem sameCode_of_map_unplaced (h : ts.map Token.unplaced = us.map Token.unplaced) :
    SameCode ts us := by
  have hfilter : ∀ ts : List Token, (withoutComments ts).map Token.unplaced =
      (ts.map Token.unplaced).filter fun u => u.1 != .comment := fun ts => by
    rw [withoutComments, List.filter_map]
    rfl
  rw [SameCode, hfilter, hfilter, h]

theorem SameCode.append {ts' us' : List Token} (h : SameCode ts us) (h' : SameCode ts' us') :
    SameCode (ts ++ ts') (us ++ us') := by
  rw [SameCode, withoutComments_append, withoutComments_append, List.map_append, List.map_append, h,
    h']

/-- Tokens of the same kind and text read alike. -/
theorem reads_of_unplaced_eq (h : t.unplaced = u.unplaced) (text : String) :
    t.reads text = u.reads text := by
  obtain ⟨hkind, htext⟩ := Prod.mk.inj h
  rw [reads, reads, hkind, htext]

/-- A token without its place. -/
def Token.bare (t : Token) : Token where
  kind := t.kind
  text := t.text
  line := 0
  column := 0
  start := 0
  stop := 0
  firstOnLine := t.isComment && t.firstOnLine

theorem Token.keeps_bare : Keeps bare fun _ => 0 :=
  Keeps.of_text (fun _ => rfl) (fun _ => rfl) (fun _ => rfl) fun t h => by
    rw [bare, h, Bool.true_and]

/-- Tokens of code are the same without their places when they are of the same kind and read
alike. -/
theorem SameCode.map_bare (h : SameCode ts us) :
    (withoutComments ts).map bare = (withoutComments us).map bare := by
  have hbare : ∀ ts, (withoutComments ts).map bare = ((withoutComments ts).map Token.unplaced).map
      fun u => ⟨u.1, u.2, 0, 0, 0, 0, false⟩ := fun ts => by
    rw [List.map_map]
    refine List.map_congr_left fun t ht => ?_
    rw [bare, isComment_of_mem_withoutComments ht, Bool.false_and]
    rfl
  rw [hbare, hbare, h]

theorem SameCode.length_eq (h : SameCode ts us) :
    (withoutComments ts).length = (withoutComments us).length := by
  have hlength := congrArg List.length h
  rwa [List.length_map, List.length_map] at hlength

/-- Two ways to split tokens at a token of code, with as much code in front, are the same. -/
theorem append_cons_inj_of_code {x x' y y' : List Token} (h : x ++ t :: y = x' ++ u :: y')
    (ht : t.isComment = false) (hu : u.isComment = false)
    (hlength : (withoutComments x).length = (withoutComments x').length) :
    x = x' ∧ t = u ∧ y = y' := by
  -- between the two places there would be a token of code
  have hno : ∀ {x x' : List Token} {t : Token} (z : List Token), t.isComment = false →
      (withoutComments x).length = (withoutComments x').length → x' ≠ x ++ t :: z := by
    rintro x _ t z ht hlength rfl
    rw [withoutComments_append, withoutComments_cons_code ht, List.length_append,
      List.length_cons] at hlength
    omega
  rcases List.append_eq_append_iff.1 h with ⟨z, rfl, hz⟩ | ⟨z, rfl, hz⟩
  · cases z with
    | nil =>
      rw [List.nil_append] at hz
      obtain ⟨rfl, rfl⟩ := List.cons.inj hz
      exact ⟨(List.append_nil _).symm, rfl, rfl⟩
    | cons v z =>
      obtain ⟨rfl, -⟩ := List.cons.inj hz
      exact absurd rfl (hno z ht hlength)
  · cases z with
    | nil =>
      rw [List.nil_append] at hz
      obtain ⟨rfl, rfl⟩ := List.cons.inj hz
      exact ⟨List.append_nil _, rfl, rfl⟩
    | cons v z =>
      obtain ⟨rfl, -⟩ := List.cons.inj hz
      exact absurd rfl (hno z hu hlength.symm)

end

/-! ### Groups, bodies and statements -/

section

variable {ts : List Token}

/-- Comments in a group of braces change nothing of where it is closed. -/
theorem closing_withoutComments (depth : Nat) (ts : List Token) :
    closing depth (withoutComments ts) =
      (withoutComments (closing depth ts).1, withoutComments (closing depth ts).2) := by
  induction ts generalizing depth with
  | nil => rfl
  | cons t ts ih =>
    cases ht : t.isComment with
    | true =>
      have hopen : t.isOpen = false := reads_of_isComment ht
      have hclose : t.isClose = false := reads_of_isComment ht
      simp only [closing, hopen, hclose, Bool.false_and, Bool.false_eq_true, if_false,
        withoutComments_cons_comment ht, ih]
    | false =>
      simp only [withoutComments_cons_code ht, closing]
      split
      · rw [withoutComments_cons_code ht, withoutComments_nil]
      · simp only [ih, withoutComments_cons_code ht]

/-- Comments in the head of a class change nothing of where its body begins. -/
theorem bodyOf?_withoutComments (depth : Nat) (ts : List Token) :
    bodyOf? depth (withoutComments ts) = (bodyOf? depth ts).map withoutComments := by
  induction ts generalizing depth with
  | nil => rfl
  | cons t ts ih =>
    cases ht : t.isComment with
    | true => simp [bodyOf?, withoutComments_cons_comment ht, reads_of_isComment ht, ih]
    | false =>
      rw [withoutComments_cons_code ht, bodyOf?, bodyOf?]
      split_ifs
      · exact ih _
      · exact ih _
      · rw [Option.map_some, withoutComments_cons_code ht]
      · rfl
      · exact ih _

namespace Statement

theorem leader_of_isComment {t : Token} (h : t.isComment = true) (found : Option Token) :
    leader found t = found := by
  rw [leader, h, Bool.or_true, if_pos rfl]

/-- A statement ends in the same way without its comments, and has the same code. -/
theorem read_withoutComments (depth : Nat) (params : Bool) (found : Option Token)
    (ts : List Token) :
    (read depth params found (withoutComments ts)).kind = (read depth params found ts).kind ∧
      (read depth params found (withoutComments ts)).tokens =
        withoutComments (read depth params found ts).tokens := by
  fun_induction read depth params found ts with
  | case1 => exact ⟨by rw [withoutComments_nil, read], by rw [withoutComments_nil, read]⟩
  | case2 depth params found t ts hround ih =>
    have ht := isComment_of_reads hround
    rw [withoutComments_cons_code ht, read, if_pos hround]
    simp [ih, withoutComments_cons_code ht]
  | case3 depth params found t ts hround hsquare ih =>
    have ht := isComment_of_reads hsquare
    rw [withoutComments_cons_code ht, read, if_neg hround, if_pos hsquare]
    simp [ih, withoutComments_cons_code ht]
  | case4 depth params found t ts hround hsquare hclose ih =>
    have ht : t.isComment = false :=
      (Bool.or_eq_true_iff.1 hclose).elim isComment_of_reads isComment_of_reads
    rw [withoutComments_cons_code ht, read, if_neg hround, if_neg hsquare, if_pos hclose]
    simp [ih, withoutComments_cons_code ht]
  | case5 depth params found t ts hround hsquare hclose hsemi =>
    have ht := isComment_of_reads (Bool.and_eq_true_iff.1 hsemi).2
    rw [withoutComments_cons_code ht, read, if_neg hround, if_neg hsquare, if_neg hclose,
      if_pos hsemi]
    exact ⟨rfl, rfl⟩
  | case6 depth params found t ts hround hsquare hclose hsemi hend =>
    have ht := isComment_of_reads (Bool.and_eq_true_iff.1 hend).2
    rw [withoutComments_cons_code ht, read, if_neg hround, if_neg hsquare, if_neg hclose,
      if_neg hsemi, if_pos hend]
    exact ⟨rfl, rfl⟩
  | case7 depth found t ts hround hsquare hclose hsemi hend hopen =>
    have ht := isComment_of_reads (Bool.and_eq_true_iff.1 hopen).2
    rw [withoutComments_cons_code ht, read, if_neg hround, if_neg hsquare, if_neg hclose,
      if_neg hsemi, if_neg hend, if_pos hopen, if_pos rfl, closing_withoutComments]
    exact ⟨rfl, (withoutComments_cons_code ht _).symm⟩
  | case8 depth params found t ts hround hsquare hclose hsemi hend hopen hparams hdefines ih =>
    have ht := isComment_of_reads (Bool.and_eq_true_iff.1 hopen).2
    rw [withoutComments_cons_code ht, read, if_neg hround, if_neg hsquare, if_neg hclose,
      if_neg hsemi, if_neg hend, if_pos hopen, if_neg hparams, if_pos hdefines,
      closing_withoutComments]
    simp [nested, ih, withoutComments_cons_code ht]
  | case9 depth params found t ts hround hsquare hclose hsemi hend hopen hparams hdefines ih =>
    have ht := isComment_of_reads (Bool.and_eq_true_iff.1 hopen).2
    rw [withoutComments_cons_code ht, read, if_neg hround, if_neg hsquare, if_neg hclose,
      if_neg hsemi, if_neg hend, if_pos hopen, if_neg hparams, if_neg hdefines,
      closing_withoutComments]
    simp [ih, withoutComments_cons_code ht]
  | case10 depth params found t ts hround hsquare hclose hsemi hend hopen ih =>
    cases ht : t.isComment with
    | true =>
      rw [leader_of_isComment ht] at ih ⊢
      rw [withoutComments_cons_comment ht, kind_after, tokens_after, withoutComments_append,
        withoutComments_cons_comment ht]
      exact ih
    | false =>
      rw [withoutComments_cons_code ht, read, if_neg hround, if_neg hsquare, if_neg hclose,
        if_neg hsemi, if_neg hend, if_neg hopen]
      simp [ih, withoutComments_cons_code ht]

/-- **A statement that ends at a semicolon** ends there too when its code is laid out anew, with
other comments in it and other places. -/
theorem read_of_sameCode {ts us rest rest' : List Token} {c c' : Token}
    (h : read 0 false none (ts ++ c :: rest) = ⟨.simple, ts, rest⟩) (hts : SameCode ts us)
    (hc' : c'.reads ";" = true)
    (hrest : SameCode (c :: rest) (c' :: rest')) :
    read 0 false none (us ++ c' :: rest') = ⟨.simple, us, rest'⟩ := by
  have hcomment' := isComment_of_reads hc'
  -- both are read alike when comments and places are left out
  have hbare := (hts.append hrest).map_bare
  have hmap : ∀ ts, (read 0 false none ((withoutComments ts).map bare)) =
      (read 0 false none (withoutComments ts)).map bare := fun ts =>
    read_map keeps_bare (withoutComments ts) 0 false none
  have hread := (hmap _).symm.trans ((congrArg _ hbare).trans (hmap _))
  obtain ⟨hkind, htokens⟩ := read_withoutComments 0 false none (ts ++ c :: rest)
  obtain ⟨hkind', htokens'⟩ := read_withoutComments 0 false none (us ++ c' :: rest')
  rw [h] at hkind htokens
  have hsimple : (read 0 false none (us ++ c' :: rest')).kind = .simple :=
    hkind'.symm.trans ((congrArg Statement.kind hread).symm.trans hkind)
  have hlength := congrArg (fun s => s.tokens.length) hread
  simp only [Statement.map, List.length_map] at hlength
  rw [htokens, htokens', hts.length_eq] at hlength
  obtain ⟨semicolon, hsplit, hsemicolon⟩ :=
    exists_semicolon 0 false none (us ++ c' :: rest') hsimple
  obtain ⟨hus, -, hrest'⟩ :=
    append_cons_inj_of_code hsplit hcomment' (isComment_of_reads hsemicolon) hlength
  generalize read 0 false none (us ++ c' :: rest') = s at *
  obtain ⟨kind, tokens, rest⟩ := s
  simp only at hsimple hus hrest'
  rw [hsimple, ← hus, ← hrest']

end Statement

end

/-! ### Members -/

section

variable {source source' : List Char} {s s' : MemberSite} {m : Member}

/-- The name and the type of the member that code declares. -/
def Member.declaredBy? (code : List Token) : Option (String × String) :=
  (declarator? 0 code).bind fun parts => parts.1.getLast?.bind fun name =>
    if declaresMember code parts name then some (name.text, spelling parts.1.dropLast) else none

theorem Member.map_ofCode? (source : List Char) (code : List Token) (trailing : Option Token) :
    (Member.ofCode? source code trailing).map (fun m => (m.name, m.type)) =
      Member.declaredBy? code := by
  rw [Member.ofCode?_eq, declaredBy?]
  cases declarator? 0 code with
  | none => rfl
  | some parts =>
    cases hname : parts.1.getLast? with
    | none => simp [hname]
    | some name =>
      simp only [Option.bind_some, hname]
      split <;> rfl

/-- What code declares does not depend on its places. -/
theorem Member.declaredBy?_map_bare {code : List Token} (hcode : ∀ t ∈ code, t.isComment = false) :
    Member.declaredBy? (code.map bare) = Member.declaredBy? code := by
  rw [declaredBy?, declaredBy?, declarator?_map keeps_bare]
  cases declarator? 0 code with
  | none => rfl
  | some parts =>
    simp only [Option.map_some, Option.bind_some, List.getLast?_map]
    cases parts.1.getLast? with
    | none => rfl
    | some name =>
      simp only [Option.map_some, Option.bind_some, declaresMember_map keeps_bare hcode,
        ← List.map_dropLast, spelling_map keeps_bare _ fun _ _ => rfl]
      rfl

namespace MemberSite

theorem code_eq (s : MemberSite) : s.code = withoutAttributes (withoutComments s.tokens) := rfl

/-- **The name and the type of a member are told by the code of its statement**, whatever comments
stand in it and wherever it stands. -/
theorem declares_of_sameCode (h : SameCode s.tokens s'.tokens) (source source' : List Char) :
    (s'.member? source').map (fun m => (m.name, m.type)) =
      (s.member? source).map fun m => (m.name, m.type) := by
  have hcode : s.code.map bare = s'.code.map bare := by
    rw [code_eq, code_eq, ← withoutAttributes_map keeps_bare, ← withoutAttributes_map keeps_bare,
      h.map_bare]
  have hbare : ∀ s : MemberSite, Member.declaredBy? s.code = Member.declaredBy? (s.code.map bare) :=
    fun s => (Member.declaredBy?_map_bare fun t ht => isComment_of_mem_code t ht).symm
  rw [member?, member?, Member.map_ofCode?, Member.map_ofCode?, hbare, hbare, hcode]

/-- A statement with the code of a member declares one of the same name and type. -/
theorem exists_member?_of_sameCode (s' : MemberSite) (h : SameCode s.tokens s'.tokens)
    (hm : s.member? source = some m) (source' : List Char) :
    ∃ m', s'.member? source' = some m' ∧ m'.name = m.name ∧ m'.type = m.type := by
  have hdeclares := declares_of_sameCode h source source'
  rw [hm] at hdeclares
  obtain ⟨m', hm', hpair⟩ := Option.map_eq_some_iff.1 hdeclares
  exact ⟨m', hm', Prod.mk.inj hpair⟩

/-- The statement of a member does not start with a label. -/
theorem not_label_of_member? (h : s.member? source = some m) {t u : Token} {ts : List Token}
    (hcode : withoutComments s.tokens = t :: u :: ts)
    (ht : (t.reads "public" || t.reads "private" || t.reads "protected") = true) :
    u.reads ":" = false := by
  refine Bool.eq_false_iff.2 fun hu => ?_
  have htPlain : ∀ {text : String}, text ≠ "public" → text ≠ "private" → text ≠ "protected" →
      t.reads text = false := by
    intro text hpublic hprivate hprotected
    rcases Bool.or_eq_true_iff.1 ht with ht | ht
    · rcases Bool.or_eq_true_iff.1 ht with ht | ht
      · exact reads_of_ne ht hpublic.symm
      · exact reads_of_ne ht hprivate.symm
    · exact reads_of_ne ht hprotected.symm
  have hrest : ∃ us, withoutAttributes (u :: ts) = u :: us := by
    cases ts with
    | nil => exact ⟨[], by rw [withoutAttributes]⟩
    | cons v ts => exact ⟨_, by rw [withoutAttributes, reads_of_ne hu (by decide)]; rfl⟩
  obtain ⟨us, hus⟩ := hrest
  have hwhole : s.code = t :: u :: us := by
    rw [code_eq, hcode, withoutAttributes, htPlain (by decide) (by decide) (by decide), hus]
    rfl
  -- a colon outside of brackets ends no declarator
  have hnone : declarator? 0 (t :: u :: us) = none := by
    simp (disch := decide) [declarator?, htPlain, reads_of_ne hu, hu]
  rw [member?, hwhole, Member.ofCode?_eq, hnone] at h
  cases h

end MemberSite

end

end RowMapping
