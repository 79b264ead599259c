import RowMapping.Proofs.BodyItems
import RowMapping.Proofs.Declared
import RowMapping.Proofs.Tiling
/-!
# The comment behind a declaration

The tags of a member are those of the first comment behind the semicolon of its declaration, if this
comment is not the first thing on its line.  What stands in front of the comment on its line is the
semicolon, or a block comment that ends there: such a block comment may have begun on a later line
than the semicolon, and then the tags come from another line than the declaration.

* `MemberSite.StandsIn`: a statement in tokens, with its semicolon and what is behind it;
* `standsIn_of_mem_findings`: the statements of annotated classes stand in the header;
* `contentEndsOn_append`, `EndsBlockComment`: what ends on a line;
* `Tile.IsBehind`, `Tile.Stands.isBehind_iff`: a comment that counts as one behind a semicolon;
* `tags_from_trailing_comment`: where the tags of a member come from;
* `exists_tags_of_next_line`: tags from another line.
-/

namespace RowMapping

open Text Declaration Statement Token

/-! ### Statements in a header -/

section

variable {ts : List Token} {s : MemberSite}

/-- A statement stands in tokens: a semicolon ends it, and the comment behind it is one behind this
semicolon. -/
def MemberSite.StandsIn (s : MemberSite) (ts : List Token) : Prop :=
  ∃ front semicolon next, ts = front ++ (s.tokens ++ semicolon :: next) ∧
    semicolon.reads ";" = true ∧ s.trailing = trailing? next

theorem MemberSite.StandsIn.append (h : s.StandsIn ts) (front : List Token) :
    s.StandsIn (front ++ ts) := by
  obtain ⟨more, semicolon, next, rfl, hrest⟩ := h
  exact ⟨front ++ more, semicolon, next, (List.append_assoc ..).symm, hrest⟩

/-- A statement that ends at a semicolon is what stands in front of it. -/
theorem Statement.exists_semicolon (depth : Nat) (params : Bool) (found : Option Token)
    (ts : List Token) (h : (read depth params found ts).kind = .simple) : ∃ semicolon,
      ts = (read depth params found ts).tokens ++ semicolon :: (read depth params found ts).rest ∧
        semicolon.reads ";" = true := by
  fun_induction read depth params found ts with
  | case1 => cases h
  | case2 _ _ _ t _ _ ih | case3 _ _ _ t _ _ _ ih | case4 _ _ _ t _ _ _ _ ih
  | case10 _ _ _ t _ _ _ _ _ _ _ ih =>
    obtain ⟨semicolon, hts, hread⟩ := ih h
    exact ⟨semicolon, congrArg (t :: ·) hts, hread⟩
  | case5 _ _ _ t ts _ _ _ hsemicolon => exact ⟨t, rfl, (Bool.and_eq_true_iff.1 hsemicolon).2⟩
  | case6 => cases h
  | case7 => cases h
  | case8 =>
    -- the definition of a type is no statement of this kind, whatever follows its body
    rw [kind_after, nested] at h
    split at h <;> cases h
  | case9 _ _ _ t ts =>
    rename_i ih
    obtain ⟨semicolon, hts, hread⟩ := ih h
    refine ⟨semicolon, ?_, hread⟩
    rw [tokens_after, rest_after, List.append_assoc, ← hts, List.cons_append, closing_append]

theorem standsIn_of_mem_memberSites {isPublic : Bool} (hs : s ∈ memberSites isPublic ts) :
    s.StandsIn ts := by
  -- the sites behind a statement stand behind it, and behind the comment that belongs to it
  have hbehind : ∀ (ts : List Token) (n : Nat), s.StandsIn ((read 0 false none ts).rest.drop n) →
      s.StandsIn ts := by
    intro ts n h
    obtain ⟨mid, hts⟩ := exists_read_eq 0 false none ts
    have hrest := h.append ((read 0 false none ts).rest.take n)
    rw [List.take_append_drop] at hrest
    rw [hts]
    exact hrest.append _
  fun_induction memberSites isPublic ts with
  | case1 => cases hs
  | case2 => cases hs
  | case3 _ t ts _ _ ih => exact (ih hs).append [t]
  | case4 _ t ts _ _ _ hlabel ih =>
    obtain ⟨-, -, u, us, rfl, -⟩ := exists_of_accessLabel? hlabel
    exact (ih hs).append [t, u]
  | case5 p t ts _ _ _ statement trailing sites hsite ih =>
    rcases List.mem_cons.1 hs with rfl | hs
    · obtain ⟨semicolon, hts, hread⟩ := exists_semicolon 0 false none (t :: ts)
        (of_decide_eq_true (Bool.and_eq_true_iff.1 hsite).2)
      exact ⟨[], semicolon, statement.rest, hts, hread, rfl⟩
    · exact hbehind _ _ (ih hs)
  | case6 p t ts _ _ _ statement trailing sites hsite ih => exact hbehind _ _ (ih hs)

/-- The statements of an annotated class stand in the tokens that the class was found in. -/
theorem standsIn_of_mem_findings {before : Option Token} {scopes : List Scope}
    {waiting : Option (List TagLine)} {site : ClassSite}
    (h : .defined site ∈ findings before scopes waiting ts) (hs : s ∈ site.sites) :
    s.StandsIn ts := by
  obtain ⟨body, ⟨front, rfl⟩, hsites⟩ := exists_body_of_mem_findings h
  rw [hsites] at hs
  exact (standsIn_of_mem_memberSites hs).append front

end

/-! ### What stands on the line of a comment -/

theorem contentEndsOn_append {a b : List Part} {line : Nat} : ContentEndsOn (a ++ b) line ↔
    ContentEndsOn a line ∨ ∃ (x : List Part) (p : Part) (y : List Part),
      b = x ++ p :: y ∧ p.isContent = true ∧
      1 + Cursor.newlines (a.flatMap Part.text) + Cursor.newlines (x.flatMap Part.text) +
        Cursor.newlines p.text = line := by
  constructor
  · rintro ⟨front, p, back, hparts, hp, hline⟩
    rcases List.append_eq_append_iff.1 hparts with ⟨x, rfl, rfl⟩ | ⟨x, rfl, hb⟩
    · rw [List.flatMap_append, newlines_append, ← Nat.add_assoc] at hline
      exact .inr ⟨x, p, back, rfl, hp, hline⟩
    · cases x with
      | nil =>
        refine .inr ⟨[], p, back, hb.symm, hp, ?_⟩
        rw [List.append_nil]
        exact hline
      | cons q x =>
        obtain ⟨rfl, -⟩ := List.cons.inj hb
        exact .inl ⟨front, p, x, rfl, hp, hline⟩
  · rintro (⟨front, p, back, rfl, hp, hline⟩ | ⟨x, p, y, rfl, hp, hline⟩)
    · exact ⟨front, p, back ++ b, by simp, hp, hline⟩
    · refine ⟨a ++ x, p, y, by simp, hp, ?_⟩
      rw [List.flatMap_append, newlines_append, ← Nat.add_assoc]
      exact hline

theorem Tile.flatMap_text_parts (t : Tile) : t.parts.flatMap Part.text = t.text := by
  rw [parts, text, List.flatMap_append, Cursor.flatMap_map_part, List.flatMap_singleton]

theorem flatMap_text_flatMap_parts (tiles : List Tile) :
    (tiles.flatMap Tile.parts).flatMap Part.text = tiles.flatMap Tile.text := by
  rw [List.flatMap_assoc]
  exact List.flatMap_congr fun t _ => t.flatMap_text_parts

/-- Some of these lexemes are a block comment, and the line on which it ends goes on behind them. -/
def EndsBlockComment (gap : List Lexeme) : Prop :=
  ∃ x l y, gap = x ++ l :: y ∧ l.shape = .blockComment ∧
    Cursor.newlines (y.flatMap Lexeme.text) = 0

/-- The token of `next` is a comment that counts as one behind a semicolon: it stands on the same
line, or on one on which a block comment between the two ends. -/
def Tile.IsBehind (next semicolon : Tile) : Prop :=
  next.token.isComment = true ∧
    (next.token.line = semicolon.token.line ∨ EndsBlockComment next.gap)

/-- A directive takes the rest of its line. -/
theorem Lexeme.Fits.ne_directive {l : Lexeme} {text rest : List Char}
    (hfits : l.Fits (text ++ '/' :: '/' :: rest)) (htext : Cursor.newlines text = 0) :
    l.shape ≠ .directive := by
  intro hshape
  obtain ⟨d, hd, hne⟩ : ∃ d ∈ (text ++ '/' :: '/' :: rest).head?, d ≠ '\n' := by
    cases text with
    | nil => exact ⟨'/', rfl, by decide⟩
    | cons d text =>
      refine ⟨d, rfl, ?_⟩
      rintro rfl
      exact absurd htext (by simp [Cursor.newlines])
  have hlength : (text ++ '/' :: '/' :: rest).length ≠ 1 := by
    rw [List.length_append, List.length_cons, List.length_cons]
    omega
  generalize text ++ '/' :: '/' :: rest = behind at hfits hd hlength
  cases hfits with
  | directive hrun hhalts =>
    rcases hhalts with rfl | hhalts
    · exact hlength rfl
    · exact hne (by simpa using hhalts d hd)
  | literal hquote => subst hshape; cases hquote
  | _ => cases hshape

section

variable {front back : List Tile} {semicolon next : Tile}

theorem toList_text_of_reads {t : Token} {text : String} (h : t.reads text = true) :
    t.text.toList = text.toList := by
  rw [Token.reads, Bool.and_eq_true, beq_iff_eq] at h
  rw [h.2]

theorem newlines_of_reads_semicolon {t : Token} (hread : t.reads ";" = true) :
    Cursor.newlines t.text.toList = 0 := by
  rw [toList_text_of_reads hread]
  decide

/-- A semicolon ends on the line that it starts on, and the next token lies behind its gap. -/
theorem Tile.Stands.line_next (hsemicolon : semicolon.Stands front (next :: back))
    (hnext : next.Stands (front ++ [semicolon]) back) (hread : semicolon.token.reads ";" = true) :
    1 + Cursor.newlines ((front ++ [semicolon]).flatMap Tile.text) = semicolon.token.line ∧
      next.token.line =
        semicolon.token.line + Cursor.newlines (next.gap.flatMap Lexeme.text) := by
  have hsame : 1 + Cursor.newlines ((front ++ [semicolon]).flatMap Tile.text) =
      semicolon.token.line := by
    rw [hsemicolon.line, List.flatMap_append, List.flatMap_singleton, Tile.text, ← List.append_assoc,
      newlines_append _ semicolon.token.text.toList, newlines_of_reads_semicolon hread,
      Nat.add_zero]
  exact ⟨hsame, by rw [hnext.line, newlines_append, ← hsame, Nat.add_assoc]⟩

/-- Something up to a semicolon ends on the line of the next token just when the two are on one
line. -/
theorem contentEndsOn_semicolon_iff (hsemicolon : semicolon.Stands front (next :: back))
    (hnext : next.Stands (front ++ [semicolon]) back) (hread : semicolon.token.reads ";" = true) :
    ContentEndsOn ((front ++ [semicolon]).flatMap Tile.parts) next.token.line ↔
      next.token.line = semicolon.token.line := by
  obtain ⟨hsame, hline⟩ := hsemicolon.line_next hnext hread
  constructor
  · intro h
    have hle := h.le
    rw [flatMap_text_flatMap_parts, hsame] at hle
    omega
  · intro h
    refine ⟨front.flatMap Tile.parts ++ semicolon.gap.map Lexeme.part,
      ⟨true, semicolon.token.text.toList⟩, [], by simp [Tile.parts], rfl, ?_⟩
    rw [h, newlines_of_reads_semicolon hread, hsemicolon.line, List.flatMap_append,
      flatMap_text_flatMap_parts, Cursor.flatMap_map_part, Nat.add_zero]

/-- The comment behind a semicolon is not the first thing on its line just when it counts as one
behind the semicolon. -/
theorem Tile.Stands.isBehind_iff (hsemicolon : semicolon.Stands front (next :: back))
    (hnext : next.Stands (front ++ [semicolon]) back) (hread : semicolon.token.reads ";" = true)
    (hcomment : next.token.isComment = true) :
    next.token.firstOnLine = false ↔ next.IsBehind semicolon := by
  have hkind : next.token.kind = .comment := beq_iff_eq.1 hcomment
  obtain ⟨body, hbody, -⟩ := hnext.comment hkind
  have hback : back ≠ [] := fun hnil => by
    have hfinish := hnext.finish.2 hnil
    rw [hkind] at hfinish
    cases hfinish
  obtain ⟨hsame, hline⟩ := hsemicolon.line_next hnext hread
  have hpart : ∀ l : Lexeme, (Lexeme.part l).text = l.text := fun _ => rfl
  rw [hnext.firstOnLine hback, contentEndsOn_append, flatMap_text_flatMap_parts, hsame, IsBehind,
    iff_true_intro hcomment, true_and]
  refine or_congr (contentEndsOn_semicolon_iff hsemicolon hnext hread) ⟨?_, ?_⟩
  · rintro ⟨front', p, back', hparts, hcontent, hends⟩
    obtain ⟨x, more, hgap, rfl, hmore⟩ := List.map_eq_append_iff.1 hparts
    obtain ⟨l, y, rfl, rfl, rfl⟩ := List.map_eq_cons_iff.1 hmore
    obtain ⟨htrivia, hfits⟩ := hnext.gap x l y hgap
    rw [Cursor.flatMap_map_part, hline, hgap, List.flatMap_append, List.flatMap_cons,
      newlines_append, newlines_append, hpart] at hends
    have hrest : Cursor.newlines (y.flatMap Lexeme.text) = 0 := by omega
    rw [hbody, List.cons_append, List.cons_append] at hfits
    rcases htrivia with hblank | hblock | hdirective
    · exact absurd hblank (bne_iff_ne.1 hcontent)
    · exact ⟨x, l, y, hgap, hblock, hrest⟩
    · exact absurd hdirective (hfits.ne_directive hrest)
  · rintro ⟨x, l, y, hgap, hblock, hrest⟩
    refine ⟨x.map Lexeme.part, l.part, y.map Lexeme.part, by rw [hgap]; simp, ?_, ?_⟩
    · rw [Lexeme.part, hblock]
      rfl
    · rw [Cursor.flatMap_map_part, hline, hgap, List.flatMap_append, List.flatMap_cons,
        newlines_append, newlines_append, hrest, hpart]
      omega

end

/-! ### Tags from a comment -/

section

variable {source : List Char} {s : MemberSite} {m : Member}

/-- A statement of a header and the tiles behind it. -/
theorem MemberSite.StandsIn.exists_tiles (h : s.StandsIn (Token.ofText source)) :
    ∃ (front : List Tile) (semicolon next : Tile) (back : List Tile),
      tilesOf source = front ++ semicolon :: next :: back ∧
      s.tokens <:+ front.map Tile.token ∧ semicolon.token.reads ";" = true ∧
      s.trailing = trailing? [next.token] := by
  obtain ⟨more, semicolon, rest, hts, hread, htrailing⟩ := h
  obtain ⟨tiles, last, htiles, -, hstream⟩ := exists_tilesOf source
  have hfinish := (tilesOf_stands source tiles last [] htiles).finish.2 rfl
  obtain ⟨next, after, hnext⟩ : ∃ next after, rest ++ [last.token] = next :: after :=
    List.exists_cons_of_ne_nil (by simp)
  have htokens : (tilesOf source).map Tile.token =
      (more ++ s.tokens) ++ (semicolon :: next :: after) := by
    rw [map_token_tilesOf, hstream, hts, ← hnext]
    simp
  obtain ⟨front, behind, htiles, hfront, hbehind⟩ := List.map_eq_append_iff.1 htokens
  obtain ⟨first, behind, rfl, rfl, hmore⟩ := List.map_eq_cons_iff.1 hbehind
  obtain ⟨second, back, rfl, rfl, -⟩ := List.map_eq_cons_iff.1 hmore
  refine ⟨front, first, second, back, htiles, ⟨more, hfront.symm⟩, hread, htrailing.trans ?_⟩
  cases rest with
  | cons t rest =>
    obtain ⟨rfl, -⟩ := List.cons.inj hnext
    rfl
  | nil =>
    -- behind the last token there is the end mark, which is no comment
    obtain ⟨hlast, -⟩ := List.cons.inj hnext
    have hcode : second.token.isComment = false := by
      rw [← hlast, isComment, hfinish]
      rfl
    rw [trailing?, trailing?, hcode]
    rfl

/-- The tags of a member are those of the comment that belongs to its statement. -/
theorem MemberSite.tags_of_member? (h : s.member? source = some m) :
    m.tags = ((tagText? s.trailing).map (MemberTags.ofText m.name)).getD {} := by
  unfold member? Member.ofCode? at h
  simp only [Option.bind_eq_bind, Option.bind_eq_some_iff] at h
  obtain ⟨_, _, _, _, _, _, _, _, _, _, _, _, _, _, h⟩ := h
  cases h
  rfl

/-- **Tags come from the comment behind the semicolon.**  Every member of an annotated class is read
from a statement that ends at a semicolon of the header.  Its tags are those of the comment that
comes next in the header, if this comment stands on the line of the semicolon or on a line on which a
block comment between the two ends; there are none otherwise, whatever block comments, directives
and blank lines come next.  So they come from the line of the semicolon unless such a block comment
ends on the line of the comment. -/
theorem tags_from_trailing_comment {c : DeclaredClass} (hc : c ∈ declaredClasses source)
    (hm : m ∈ c.members) :
    ∃ (s : MemberSite) (front : List Tile) (semicolon next : Tile) (back : List Tile),
      s.member? source = some m ∧
      tilesOf source = front ++ semicolon :: next :: back ∧
      s.tokens <:+ front.map Tile.token ∧ semicolon.token.reads ";" = true ∧
      (next.IsBehind semicolon →
        m.tags = ((memberText? next.token.text.toList).map (MemberTags.ofText m.name)).getD {}) ∧
      (¬ next.IsBehind semicolon → m.tags = {}) ∧
      (¬ EndsBlockComment next.gap → m.tags ≠ {} →
        next.token.isComment = true ∧ next.token.line = semicolon.token.line) := by
  obtain ⟨site, hsite, rfl⟩ := List.mem_map.1 hc
  obtain ⟨finding, hfinding, hdefined⟩ := List.mem_filterMap.1 hsite
  obtain ⟨s, hs, hmember⟩ := List.mem_filterMap.1 hm
  have hstands : s.StandsIn (Token.ofText source) := by
    cases finding with
    | defined site' =>
      cases hdefined
      exact standsIn_of_mem_findings hfinding hs
    | _ => cases hdefined
  obtain ⟨front, semicolon, next, back, htiles, hfront, hread, htrailing⟩ := hstands.exists_tiles
  have hsemicolon := tilesOf_stands source front semicolon (next :: back) htiles
  have hnext := tilesOf_stands source (front ++ [semicolon]) next back (by rw [htiles]; simp)
  have htags := MemberSite.tags_of_member? hmember
  have hbehind : next.IsBehind semicolon → s.trailing = some next.token := by
    intro h
    rw [htrailing, trailing?, h.1, (hsemicolon.isBehind_iff hnext hread h.1).2 h]
    rfl
  have hapart : ¬ next.IsBehind semicolon → m.tags = {} := by
    intro h
    have hnone : s.trailing = none := by
      rw [htrailing, trailing?, if_neg]
      intro hbeside
      rw [Bool.and_eq_true, Bool.not_eq_true'] at hbeside
      exact h ((hsemicolon.isBehind_iff hnext hread hbeside.1).1 hbeside.2)
    rw [htags, hnone]
    rfl
  refine ⟨s, front, semicolon, next, back, hmember, htiles, hfront, hread, fun h => ?_, hapart,
    fun hgap htagged => ?_⟩
  · rw [htags, hbehind h]
    rfl
  · have hnear : next.IsBehind semicolon := not_not.1 fun h => htagged (hapart h)
    exact ⟨hnear.1, hnear.2.resolve_right hgap⟩

end

/-! ### Tags from another line -/

/-- A header in which a key is noted behind a block comment, on a line of its own. -/
def noteSource : List Char :=
  ("// @relais table=notes\nstruct Note \x7b\n    int64_t id;\n" ++
    "    /* key */ // @relais primary_key\n\x7d;\n").toList

/-- Its class. -/
def note : DeclaredClass where
  name := "Note"
  scope := ""
  isStruct := true
  line := 2
  tags := [.table "notes"]
  members := [⟨"id", "int64_t", "", 3, { flags := [.primaryKey] }⟩]

theorem note_mem_declaredClasses : note ∈ declaredClasses noteSource := by
  have hsource : noteSource = _ := toList_append_of_eq String.toList_ofList String.toList_ofList
  have hclasses : declaredClasses noteSource = [note] := by
    rw [hsource]
    decide +kernel
  rw [hclasses]
  exact List.mem_cons_self

/-- The number of the note is tagged by a comment that counts as one behind its declaration. -/
theorem tags_from_trailing_comment_note :
    ∃ m ∈ note.members, m.tags = { flags := [.primaryKey] } ∧
      ∃ (s : MemberSite) (front : List Tile) (semicolon next : Tile) (back : List Tile),
        s.member? noteSource = some m ∧
        tilesOf noteSource = front ++ semicolon :: next :: back ∧
        s.tokens <:+ front.map Tile.token ∧ semicolon.token.reads ";" = true ∧
        next.IsBehind semicolon := by
  refine ⟨⟨"id", "int64_t", "", 3, { flags := [.primaryKey] }⟩, List.mem_cons_self, rfl, ?_⟩
  obtain ⟨s, front, semicolon, next, back, hmember, htiles, hfront, hread, -, hapart, -⟩ :=
    tags_from_trailing_comment note_mem_declaredClasses (List.mem_cons_self (l := []))
  refine ⟨s, front, semicolon, next, back, hmember, htiles, hfront, hread, not_not.1 fun h => ?_⟩
  exact absurd (hapart h) (by decide)

/-- The tags of a member can come from a comment on another line than every semicolon. -/
theorem exists_tags_of_next_line :
    ¬ ∀ (source : List Char), ∀ c ∈ declaredClasses source, ∀ m ∈ c.members, m.tags ≠ {} →
      ∃ semicolon ∈ Token.stream source, ∃ comment ∈ Token.stream source,
        semicolon.reads ";" = true ∧ comment.isComment = true ∧
          comment.line = semicolon.line ∧
          m.tags = ((memberText? comment.text.toList).map (MemberTags.ofText m.name)).getD {} := by
  intro hclaim
  obtain ⟨semicolon, hsemicolon, comment, hcomment, hread, hkind, hline, -⟩ :=
    hclaim noteSource note note_mem_declaredClasses _ (List.mem_cons_self (l := [])) (by decide)
  have hsource : noteSource = _ := toList_append_of_eq String.toList_ofList String.toList_ofList
  have hlines : (Token.stream noteSource).all fun t => (Token.stream noteSource).all fun u =>
      !(t.reads ";" && u.isComment && u.line == t.line) := by
    rw [hsource]
    decide +kernel
  have hnone := List.all_eq_true.1 (List.all_eq_true.1 hlines semicolon hsemicolon) comment hcomment
  rw [hread, hkind, hline, beq_self_eq_true] at hnone
  exact absurd hnone (by decide)

end RowMapping
