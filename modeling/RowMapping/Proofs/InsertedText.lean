import RowMapping.Proofs.RoundTrip
import RowMapping.Proofs.Tiling
import RowMapping.Proofs.TokenMaps
/-!
# Text that is inserted into a header

When text is inserted into a header at a place where no token is cut, the tokens in front of the
place stay as they are.  Those behind it move: their lines, columns and positions change, and a
comment that comes first behind the place may be the first thing on its line or not.  What is said
of members does not change but for their lines.

* `slice_append_left`, `slice_append_right`: the parts of a text in front of a place and behind it;
* `Cut`: no token runs across a place;
* `Token.rebased`: a token with its positions told from a place on;
* `Cursor.map_rebased_cases`: the tokens of a text, from two places;
* `membersOf_moved`, `member?_in_front`: members behind an insertion and in front of it;
* `classes_rebased`: classes behind an insertion.
-/

namespace RowMapping

open Declaration Text

namespace Text

theorem dropBytes_append_right (a b : List Char) (n : Nat) :
    dropBytes (byteLength a + n) (a ++ b) = dropBytes n b := by
  induction a with
  | nil => rw [byteLength_nil, Nat.zero_add, List.nil_append]
  | cons c a ih =>
    have hc := c.utf8Size_pos
    obtain ⟨m, hm⟩ := Nat.exists_eq_succ_of_ne_zero
      (show c.utf8Size + byteLength a + n ≠ 0 by omega)
    rw [byteLength_cons, List.cons_append, hm, dropBytes, ← ih]
    congr 1
    omega

/-- Behind the first of two texts. -/
theorem slice_append_right {a : List Char} {i : Nat} (h : byteLength a ≤ i) (j : Nat)
    (b : List Char) :
    slice i j (a ++ b) = slice (i - byteLength a) (j - byteLength a) b := by
  obtain ⟨n, rfl⟩ := Nat.exists_eq_add_of_le h
  rw [slice, slice, dropBytes_append_right, Nat.add_sub_cancel_left]
  congr 1
  omega

/-- In the first of two texts. -/
theorem slice_append_left {x y a : List Char} (hx : x <+: a) (hy : y <+: a) (b b' : List Char) :
    slice (byteLength x) (byteLength y) (a ++ b) =
      slice (byteLength x) (byteLength y) (a ++ b') := by
  rcases List.prefix_or_prefix_of_prefix hx hy with ⟨z, rfl⟩ | ⟨z, rfl⟩
  · obtain ⟨w, rfl⟩ := hy
    rw [byteLength_append, List.append_assoc (x ++ z), List.append_assoc (x ++ z), slice_append,
      slice_append]
  · have hnone : byteLength y - byteLength (y ++ z) = 0 := by
      rw [byteLength_append]
      omega
    rw [slice, slice, hnone, takeBytes_zero, takeBytes_zero]

end Text

/-! ### Places that cut no token -/

section

variable {a b : List Char} {c : Cursor} {ls : List Lexeme} {t : Token}

/-- The place between two texts cuts no token: wherever they start, the tokens of both are those of
the first one and then those of the second one. -/
def Cut (a b : List Char) : Prop :=
  ∀ c : Cursor, c.tokens (a ++ b) = c.tokens a ++ (c.past (lexemes a)).tokens b

/-- It is enough that it cuts no lexeme. -/
theorem cut_of_lexemes (h : lexemes (a ++ b) = lexemes a ++ lexemes b) : Cut a b :=
  fun c => c.tokens_append h

namespace Cursor

/-- The place behind a text. -/
def behind (a : List Char) : Cursor := start.past (lexemes a)

theorem offset_behind (a : List Char) : (behind a).offset = byteLength a := by
  rw [behind, offset_past, lexemes_flatten]
  exact Nat.zero_add _

theorem offset_past_behind (a b : List Char) :
    ((behind a).past (lexemes b)).offset = byteLength (a ++ b) := by
  rw [offset_past, lexemes_flatten, offset_behind, byteLength_append]

/-- The last line that holds something is no later line. -/
def IsOrdered (c : Cursor) : Prop := c.contentLine ≤ c.line

theorem IsOrdered.pass (h : c.IsOrdered) (l : Lexeme) : (c.pass l).IsOrdered := by
  have hle : c.contentLine ≤ c.line := h
  show (if l.shape = .blank then c.contentLine else c.line + newlines l.text) ≤
    c.line + newlines l.text
  split <;> omega

theorem IsOrdered.past (h : c.IsOrdered) (ls : List Lexeme) : (c.past ls).IsOrdered := by
  induction ls generalizing c with
  | nil => exact h
  | cons l ls ih => exact ih (h.pass l)

theorem isOrdered_behind (a : List Char) : (behind a).IsOrdered := by
  have hstart : start.IsOrdered := Nat.zero_le 1
  exact hstart.past _

/-- The positions of a token are those of places in the text. -/
theorem exists_prefix_of_mem_located (h : t ∈ located c ls) : ∃ x y, x <+: ls.flatMap Lexeme.text ∧
    y <+: ls.flatMap Lexeme.text ∧ t.start = c.offset + byteLength x ∧
    t.stop = c.offset + byteLength y := by
  induction ls generalizing c with
  | nil => cases h
  | cons l ls ih =>
    rw [located, List.mem_append, Option.mem_toList] at h
    rw [List.flatMap_cons]
    rcases h with h | h
    · obtain ⟨kind, -, rfl⟩ := Option.map_eq_some_iff.1 h
      exact ⟨[], l.text, List.nil_prefix, List.prefix_append _ _, rfl, rfl⟩
    · obtain ⟨x, y, hx, hy, hstart, hstop⟩ := ih h
      have hpass : (c.pass l).offset = c.offset + byteLength l.text := rfl
      refine ⟨l.text ++ x, l.text ++ y, (List.prefix_append_right_inj _).2 hx,
        (List.prefix_append_right_inj _).2 hy, ?_, ?_⟩
      · rw [hstart, hpass, byteLength_append, Nat.add_assoc]
      · rw [hstop, hpass, byteLength_append, Nat.add_assoc]

theorem offset_le_of_mem_located (h : t ∈ located c ls) : c.offset ≤ t.start := by
  obtain ⟨x, y, -, -, hstart, -⟩ := exists_prefix_of_mem_located h
  omega

end Cursor

end

/-! ### Tokens from another place -/

namespace Token

/-- A token with its positions told from `k` on, and without its line and column; of code it is not
told either whether it is first on its line. -/
def rebased (k : Nat) (t : Token) : Token :=
  { t with
    line := 0
    column := 0
    start := t.start - k
    stop := t.stop - k
    firstOnLine := t.isComment && t.firstOnLine }

theorem keeps_rebased (k : Nat) : Keeps (rebased k) fun _ => 0 :=
  Keeps.of_text (fun _ => rfl) (fun _ => rfl) (fun _ => rfl) fun t h => by
    rw [rebased, h, Bool.true_and]

theorem keeps_id : Keeps id id :=
  Keeps.of_text (fun _ => rfl) (fun _ => rfl) (fun _ => rfl) fun _ _ => rfl

end Token

open Token

namespace Cursor

/-- Two places that are as far from `k` and `k'`, and of which both or none is behind something on
its line. -/
structure InStep (k k' : Nat) (c c' : Cursor) : Prop where
  offset : ∃ n, c.offset = k + n ∧ c'.offset = k' + n
  ordered : c.IsOrdered
  ordered' : c'.IsOrdered
  content : c.contentLine = c.line ↔ c'.contentLine = c'.line

variable {k k' : Nat} {c c' : Cursor} {l : Lexeme} {ls : List Lexeme}

theorem offset_pass (h : ∃ n, c.offset = k + n ∧ c'.offset = k' + n) (l : Lexeme) :
    ∃ n, (c.pass l).offset = k + n ∧ (c'.pass l).offset = k' + n := by
  obtain ⟨n, hc, hc'⟩ := h
  exact ⟨n + byteLength l.text, by rw [pass, hc, Nat.add_assoc], by rw [pass, hc', Nat.add_assoc]⟩

/-- Behind anything but blanks, two places are in step. -/
theorem inStep_pass (hoffset : ∃ n, c.offset = k + n ∧ c'.offset = k' + n) (hc : c.IsOrdered)
    (hc' : c'.IsOrdered) (hl : l.shape ≠ .blank) : InStep k k' (c.pass l) (c'.pass l) where
  offset := offset_pass hoffset l
  ordered := hc.pass l
  ordered' := hc'.pass l
  content := iff_of_true (isBehindCode_pass hl) (isBehindCode_pass hl)

theorem InStep.pass (h : InStep k k' c c') (l : Lexeme) :
    InStep k k' (c.pass l) (c'.pass l) := by
  by_cases hl : l.shape = .blank
  · refine ⟨offset_pass h.offset l, h.ordered.pass l, h.ordered'.pass l, ?_⟩
    have hc := h.ordered
    have hc' := h.ordered'
    have hcontent := h.content
    simp only [Cursor.pass, hl, if_true]
    unfold IsOrdered at hc hc'
    omega
  · exact inStep_pass h.offset h.ordered h.ordered' hl

/-- A token is rebased alike at two places, unless it is a comment that is first on its line at one
of them only. -/
theorem rebased_tokenAt (hoffset : ∃ n, c.offset = k + n ∧ c'.offset = k' + n) {kind : Kind}
    (h : kind = .comment → (c.contentLine = c.line ↔ c'.contentLine = c'.line))
    (text : List Char) : (c.tokenAt kind text).rebased k = (c'.tokenAt kind text).rebased k' := by
  obtain ⟨n, hc, hc'⟩ := hoffset
  have hfirst : ((kind == .comment) && c.contentLine != c.line) =
      ((kind == .comment) && c'.contentLine != c'.line) := by
    rw [Bool.eq_iff_iff, Bool.and_eq_true, Bool.and_eq_true, beq_iff_eq, bne_iff_ne, bne_iff_ne]
    exact and_congr_right fun hkind => not_congr (h hkind)
  simp only [rebased, tokenAt, isComment, hfirst, hc, hc', Nat.add_assoc, Nat.add_sub_cancel_left]

theorem token?_eq (c : Cursor) (l : Lexeme) :
    c.token? l = (Kind.ofShape? l.shape).map fun kind => c.tokenAt kind l.text := rfl

theorem map_rebased_of_inStep (h : InStep k k' c c') (ls : List Lexeme) :
    (located c ls).map (rebased k) = (located c' ls).map (rebased k') := by
  induction ls generalizing c c' with
  | nil => rfl
  | cons l ls ih =>
    rw [located, located, List.map_append, List.map_append, ih (h.pass l), token?_eq, token?_eq]
    congr 1
    cases Kind.ofShape? l.shape with
    | none => rfl
    | some kind => exact congrArg (fun t => [t]) (rebased_tokenAt h.offset (fun _ => h.content) _)

/-- The tokens of a text are rebased alike at two places, or they start with a comment and those
behind it are. -/
theorem map_rebased_cases (hoffset : ∃ n, c.offset = k + n ∧ c'.offset = k' + n)
    (hc : c.IsOrdered) (hc' : c'.IsOrdered) (ls : List Lexeme) :
    (located c ls).map (rebased k) = (located c' ls).map (rebased k') ∨
      ∃ t t' ts, t.isComment = true ∧ t'.isComment = true ∧
        (located c ls).map (rebased k) = t :: ts ∧ (located c' ls).map (rebased k') = t' :: ts := by
  induction ls generalizing c c' with
  | nil => exact .inl rfl
  | cons l ls ih =>
    rw [located, located, token?_eq, token?_eq]
    cases hkind : Kind.ofShape? l.shape with
    | none => exact ih (offset_pass hoffset l) (hc.pass l) (hc'.pass l)
    | some kind =>
      have hblank : l.shape ≠ .blank := fun hblank => by
        rw [hblank] at hkind
        cases hkind
      have hrest := map_rebased_of_inStep (inStep_pass hoffset hc hc' hblank) ls
      by_cases hcomment : kind = .comment
      · subst hcomment
        exact .inr ⟨_, _, _, rfl, rfl, rfl, congrArg _ hrest.symm⟩
      · exact .inl (congr_arg₂ List.cons
          (rebased_tokenAt hoffset (fun h => absurd h hcomment) _) hrest)

/-- Where code comes first, the tokens of a text are rebased alike at two places. -/
theorem map_rebased_tokens {text : List Char} (hc : c.IsOrdered) (hc' : c'.IsOrdered)
    (hcode : ∀ t ∈ (c.tokens text).head?, t.isComment = false) :
    (c.tokens text).map (rebased c.offset) =
      (c'.tokens text).map (rebased c'.offset) := by
  rcases map_rebased_cases ⟨0, rfl, rfl⟩ hc hc' (lexemes text) with h | ⟨t, t', ts, ht, -, h, -⟩
  · exact h
  · obtain ⟨u, us, htokens, rfl, -⟩ := List.map_eq_cons_iff.1 h
    have hu := hcode u (by rw [tokens, htokens]; rfl)
    rw [(keeps_rebased c.offset).isComment, hu] at ht
    cases ht

end Cursor

/-! ### Members and classes -/

section

variable {a a' b b' : List Char} {c c' : Cursor} {isPublic : Bool}

theorem keepsSlices_rebased (hc : c.offset = byteLength a) (b : List Char) :
    KeepsSlices (rebased c.offset) (a ++ b) b (c.tokens b) := by
  intro t ht u _
  have hle := Cursor.offset_le_of_mem_located ht
  rw [hc] at hle
  rw [slice_append_right hle, ← hc]
  rfl

theorem filterMap_member?_rebased (hc : c.offset = byteLength a) {sites : List MemberSite}
    (hsites : ∀ s ∈ sites, s.tokens ⊆ c.tokens b ∧ ∀ t ∈ s.trailing, t.isComment = true) :
    (sites.map (MemberSite.map (rebased c.offset) fun _ => 0)).filterMap (MemberSite.member? b) =
      (sites.filterMap (MemberSite.member? (a ++ b))).map Member.withoutLine := by
  rw [List.filterMap_map, List.map_filterMap]
  refine List.filterMap_congr fun s hs => ?_
  obtain ⟨htokens, htrailing⟩ := hsites s hs
  exact MemberSite.member?_map (keeps_rebased c.offset) (fun _ _ => rfl)
    ((keepsSlices_rebased hc b).mono htokens) htrailing

/-- The members of a body are those of its tokens with their positions told from a place in front of
it on. -/
theorem membersOf_rebased (hc : c.offset = byteLength a) (isPublic : Bool) (b : List Char) :
    membersOf b isPublic ((c.tokens b).map (rebased c.offset)) =
      (membersOf (a ++ b) isPublic (c.tokens b)).map Member.withoutLine := by
  rw [membersOf, membersOf, memberSites_map (keeps_rebased c.offset)]
  exact filterMap_member?_rebased hc fun s hs =>
    ⟨tokens_memberSites_subset hs, isComment_of_mem_memberSites hs⟩

/-- **A body has the same members at another place**, but for their lines. -/
theorem membersOf_moved (hc : c.offset = byteLength a) (hc' : c'.offset = byteLength a')
    (hordered : c.IsOrdered) (hordered' : c'.IsOrdered) (isPublic : Bool) (b : List Char) :
    (membersOf (a' ++ b) isPublic (c'.tokens b)).map Member.withoutLine =
      (membersOf (a ++ b) isPublic (c.tokens b)).map Member.withoutLine := by
  rw [← membersOf_rebased hc, ← membersOf_rebased hc']
  rcases Cursor.map_rebased_cases ⟨0, rfl, rfl⟩ hordered' hordered (lexemes b) with
    h | ⟨t, t', ts, ht, ht', h, h'⟩
  · rw [Cursor.tokens, Cursor.tokens, h]
  · -- a comment in front of a body says nothing
    rw [Cursor.tokens, Cursor.tokens, h, h', membersOf, membersOf,
      memberSites_of_skipped (by rw [ht, Bool.true_or]),
      memberSites_of_skipped (by rw [ht', Bool.true_or])]

/-- What a statement in front of a place declares does not depend on what is behind the place. -/
theorem member?_in_front {s : MemberSite} (hs : s.tokens ⊆ Token.ofText a)
    (htrailing : ∀ t ∈ s.trailing, t.isComment = true) (b b' : List Char) :
    s.member? (a ++ b) = s.member? (a ++ b') := by
  have hslices : KeepsSlices id (a ++ b') (a ++ b) s.tokens := by
    intro t ht u hu
    obtain ⟨x, -, hx, -, hstart, -⟩ := Cursor.exists_prefix_of_mem_located (hs ht)
    obtain ⟨-, y, -, hy, -, hstop⟩ := Cursor.exists_prefix_of_mem_located (hs hu)
    rw [lexemes_flatten] at hx hy
    have hzero : Cursor.start.offset = 0 := rfl
    rw [hzero, Nat.zero_add] at hstart hstop
    rw [id_eq, id_eq, hstart, hstop]
    exact slice_append_left hx hy b b'
  have hmap := MemberSite.member?_map keeps_id (fun _ _ => rfl) hslices htrailing
  have hself : s.map id id = s := by
    rw [MemberSite.map, List.map_id, Option.map_id]
    rfl
  rw [hself] at hmap
  rw [hmap]
  exact Option.map_id' ..

/-- The class that a site declares, but for lines, is that of the site with its positions told from
a place in front of it on. -/
theorem declared_rebased (hc : c.offset = byteLength a) {site : ClassSite} {body : List Token}
    (hsites : site.sites = memberSites site.isStruct body) (hbody : body ⊆ c.tokens b) :
    (site.map (rebased c.offset) fun _ => 0).declared b =
      (site.declared (a ++ b)).withoutLines := by
  have hmembers : _ = (site.sites.filterMap _).map _ := filterMap_member?_rebased hc fun s hs => by
    rw [hsites] at hs
    exact ⟨List.Subset.trans (tokens_memberSites_subset hs) hbody, isComment_of_mem_memberSites hs⟩
  rw [ClassSite.declared, DeclaredClass.withoutLines, ClassSite.declared, ← hmembers]
  rfl

/-- The classes that the walk finds in a text, but for lines, are those that it finds in its tokens
with their positions told from a place in front of them on. -/
theorem classes_rebased (hc : c.offset = byteLength a) {ts : List Token} (hts : ts ⊆ c.tokens b)
    (before : Option Token) (scopes : List Scope) (waiting : Option (List TagLine)) :
    ((findings (before.map (rebased c.offset)) scopes waiting
        (ts.map (rebased c.offset))).filterMap Finding.site?).map (ClassSite.declared b) =
      (((findings before scopes waiting ts).filterMap Finding.site?).map
        (ClassSite.declared (a ++ b))).map DeclaredClass.withoutLines := by
  rw [findings_map (keeps_rebased c.offset), List.filterMap_map, List.map_map, List.map_filterMap,
    List.map_filterMap]
  refine List.filterMap_congr fun f hf => ?_
  cases f with
  | defined site =>
    obtain ⟨body, hbody, hsites⟩ := exists_body_of_mem_findings hf
    exact congrArg some (declared_rebased hc hsites (List.Subset.trans hbody.subset hts))
  | _ => rfl

/-- In front of a place, tokens are rebased alike. -/
theorem rebased_in_front {t : Token} (ht : t ∈ Token.ofText a) {k k' : Nat} (hk : byteLength a ≤ k)
    (hk' : byteLength a ≤ k') : t.rebased k = t.rebased k' := by
  obtain ⟨x, y, hx, hy, hstart, hstop⟩ := Cursor.exists_prefix_of_mem_located ht
  rw [lexemes_flatten] at hx hy
  have hle : ∀ {x : List Char}, x <+: a → byteLength x ≤ byteLength a := by
    rintro x ⟨z, rfl⟩
    rw [byteLength_append]
    omega
  have hzero : Cursor.start.offset = 0 := rfl
  have hx := hle hx
  have hy := hle hy
  have hstart : t.start - k = t.start - k' := by omega
  have hstop : t.stop - k = t.stop - k' := by omega
  rw [rebased, rebased, hstart, hstop]

end

end RowMapping
