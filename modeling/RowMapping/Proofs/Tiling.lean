import Mathlib.Data.List.Induction
import Mathlib.Data.List.TakeWhile
import RowMapping.Proofs.LexemeForm
/-!
# Tokens tile the header

Every character of a header belongs to one token or to the text between two tokens, which holds
nothing but blanks, block comments and directives.  The place that a token tells is the place of its
text in the header.

* `lastLine`, `Part`, `ContentEndsOn`: columns, and the lines on which something ends;
* `Cursor.line_past`, `Cursor.column_past`, `Cursor.contentLine_past_iff`: the place behind some
  lexemes, from their text;
* `Tile`, `tilesFrom`: the tokens of a header, each with the lexemes in front of it that give none;
* `Tile.Stands`: all that is said about the place of a token;
* `stream_tiles`: the tokens of a header are the tokens of tiles that stand in it.
-/

namespace RowMapping

open Text

/-! ### Lines and columns -/

section

variable {a b cs : List Char}

/-- What stands behind the last line end of a text. -/
def lastLine (cs : List Char) : List Char := (cs.reverse.takeWhile (· != '\n')).reverse

theorem byteLength_reverse (cs : List Char) : byteLength cs.reverse = byteLength cs := by
  induction cs with
  | nil => rfl
  | cons c cs ih =>
    rw [List.reverse_cons, byteLength_append, ih, byteLength_cons, byteLength_cons, byteLength_nil]
    omega

theorem newlines_append (a b : List Char) :
    Cursor.newlines (a ++ b) = Cursor.newlines a + Cursor.newlines b := List.count_append

theorem lastLine_append (a b : List Char) :
    lastLine (a ++ b) = if Cursor.newlines b = 0 then lastLine a ++ b else lastLine b := by
  rw [lastLine, List.reverse_append, List.takeWhile_append]
  have hlength : (b.reverse.takeWhile (· != '\n')).length = b.reverse.length ↔
      Cursor.newlines b = 0 := by
    rw [Cursor.newlines, List.count_eq_zero]
    constructor
    · intro h hmem
      have hself := (List.takeWhile_prefix (l := b.reverse) (· != '\n')).eq_of_length h
      have hne := List.takeWhile_eq_self_iff.1 hself '\n' (List.mem_reverse.2 hmem)
      exact absurd hne (by decide)
    · intro h
      rw [List.takeWhile_eq_self_iff.2 fun c hc => ?_]
      rw [bne_iff_ne]
      rintro rfl
      exact h (List.mem_reverse.1 hc)
  by_cases hb : Cursor.newlines b = 0
  · rw [if_pos (hlength.2 hb), if_pos hb, List.reverse_append, List.reverse_reverse]
    rfl
  · rw [if_neg (fun h => hb (hlength.1 h)), if_neg hb]
    rfl

theorem columnAfter_eq (a b : List Char) :
    Cursor.columnAfter (1 + byteLength (lastLine a)) b = 1 + byteLength (lastLine (a ++ b)) := by
  rw [Cursor.columnAfter, lastLine_append]
  split
  · rw [byteLength_append, Nat.add_assoc]
  · rw [lastLine, byteLength_reverse, Nat.add_comm]

end

/-! ### Lines on which something ends -/

/-- A part of a text: whether it is anything but blanks, and its own text. -/
structure Part where
  isContent : Bool
  text : List Char

/-- A lexeme as a part of a text. -/
def Lexeme.part (l : Lexeme) : Part := ⟨l.shape != .blank, l.text⟩

/-- One of the parts of a text, which is not blank, ends on a line: on the line that it starts on
and as many lines later as it has newlines. -/
def ContentEndsOn (parts : List Part) (line : Nat) : Prop :=
  ∃ front p back, parts = front ++ p :: back ∧ p.isContent = true ∧
    1 + Cursor.newlines (front.flatMap Part.text) + Cursor.newlines p.text = line

section

variable {parts : List Part} {p : Part} {line : Nat}

theorem contentEndsOn_concat : ContentEndsOn (parts ++ [p]) line ↔ ContentEndsOn parts line ∨
    (p.isContent = true ∧
      1 + Cursor.newlines (parts.flatMap Part.text) + Cursor.newlines p.text = line) := by
  constructor
  · rintro ⟨front, q, back, hparts, hq, hline⟩
    rcases List.eq_nil_or_concat back with rfl | ⟨back, r, rfl⟩
    · obtain ⟨rfl, hpq⟩ := List.append_inj' hparts rfl
      obtain rfl : p = q := (List.cons.inj hpq).1
      exact .inr ⟨hq, hline⟩
    · rw [List.concat_eq_append, ← List.cons_append, ← List.append_assoc] at hparts
      exact .inl ⟨front, q, back, (List.append_inj' hparts rfl).1, hq, hline⟩
  · rintro (⟨front, q, back, rfl, hq, hline⟩ | ⟨hp, hline⟩)
    · exact ⟨front, q, back ++ [p], by simp, hq, hline⟩
    · exact ⟨parts, p, [], rfl, hp, hline⟩

theorem ContentEndsOn.le (h : ContentEndsOn parts line) :
    line ≤ 1 + Cursor.newlines (parts.flatMap Part.text) := by
  obtain ⟨front, p, back, rfl, -, rfl⟩ := h
  rw [List.flatMap_append, List.flatMap_cons, newlines_append, newlines_append]
  omega

end

/-! ### The place behind some lexemes -/

namespace Cursor

variable {ls : List Lexeme}

theorem line_past (c : Cursor) (ls : List Lexeme) :
    (c.past ls).line = c.line + newlines (ls.flatMap Lexeme.text) := by
  induction ls generalizing c with
  | nil => rfl
  | cons l ls ih =>
    rw [past_cons, ih, List.flatMap_cons, newlines_append, ← Nat.add_assoc]
    rfl

theorem column_past (ls : List Lexeme) :
    (start.past ls).column = 1 + byteLength (lastLine (ls.flatMap Lexeme.text)) := by
  induction ls using List.reverseRecOn with
  | nil => rfl
  | append_singleton ls l ih =>
    rw [past_append, List.flatMap_append, List.flatMap_singleton, ← columnAfter_eq, ← ih]
    rfl

theorem flatMap_map_part (ls : List Lexeme) :
    (ls.map Lexeme.part).flatMap Part.text = ls.flatMap Lexeme.text := by
  rw [List.flatMap_map]
  rfl

/-- The last line that holds something is the line of the place exactly when something ends on it,
and it is never a later line. -/
theorem contentLine_past (ls : List Lexeme) :
    (start.past ls).contentLine ≤ (start.past ls).line ∧
      ((start.past ls).contentLine = (start.past ls).line ↔
        ContentEndsOn (ls.map Lexeme.part) (start.past ls).line) := by
  induction ls using List.reverseRecOn with
  | nil =>
    refine ⟨Nat.zero_le 1, ⟨fun h => absurd h (by decide), ?_⟩⟩
    rintro ⟨front, p, back, h, -⟩
    simp at h
  | append_singleton ls l ih =>
    obtain ⟨hle, hiff⟩ := ih
    have hline : (start.past (ls ++ [l])).line = (start.past ls).line + newlines l.text := by
      rw [past_append]
      rfl
    have hcontent : (start.past (ls ++ [l])).contentLine =
        if l.shape = .blank then (start.past ls).contentLine
        else (start.past ls).line + newlines l.text := by
      rw [past_append]
      rfl
    have hpast : (start.past ls).line = 1 + newlines ((ls.map Lexeme.part).flatMap Part.text) := by
      rw [flatMap_map_part]
      exact line_past start ls
    rw [hline, hcontent, List.map_append, List.map_singleton, contentEndsOn_concat]
    by_cases hblank : l.shape = .blank
    · have hpart : (Lexeme.part l).isContent = false := by rw [Lexeme.part, hblank]; rfl
      rw [if_pos hblank]
      refine ⟨by omega, ?_⟩
      by_cases hnewlines : newlines l.text = 0
      · simpa [hnewlines, hpart] using hiff
      · -- behind the newlines of blanks, nothing ends on the line
        refine ⟨fun h => by omega, ?_⟩
        rintro (h | ⟨h, -⟩)
        · have hlate := h.le
          omega
        · rw [hpart] at h
          cases h
    · have hpart : (Lexeme.part l).isContent = true := bne_iff_ne.2 hblank
      rw [if_neg hblank]
      refine ⟨Nat.le_refl _, iff_of_true rfl (.inr ⟨hpart, ?_⟩)⟩
      rw [← hpast]
      rfl

end Cursor

/-! ### Tiles -/

/-- A token, with the lexemes in front of it that give none. -/
structure Tile where
  gap : List Lexeme
  token : Token

namespace Tile

/-- The text that a tile takes. -/
def text (t : Tile) : List Char := t.gap.flatMap Lexeme.text ++ t.token.text.toList

/-- The parts of this text. -/
def parts (t : Tile) : List Part := t.gap.map Lexeme.part ++ [⟨true, t.token.text.toList⟩]

end Tile

/-- The tiles of some lexemes at a place that a gap precedes. -/
def tilesFrom (c : Cursor) (gap : List Lexeme) : List Lexeme → List Tile
  | [] => [⟨gap, c.finish⟩]
  | l :: ls =>
    match c.token? l with
    | some t => ⟨gap, t⟩ :: tilesFrom (c.pass l) [] ls
    | none => tilesFrom (c.pass l) (gap ++ [l]) ls

/-- Blanks, block comments and directives give no token. -/
def Lexeme.IsTrivia (l : Lexeme) : Prop :=
  l.shape = .blank ∨ l.shape = .blockComment ∨ l.shape = .directive

/-- The tile `t` stands between other tiles of a header. -/
structure Tile.Stands (front : List Tile) (t : Tile) (back : List Tile) : Prop where
  /-- The gap holds blanks, block comments and directives, each with its form. -/
  gap : ∀ x l y, t.gap = x ++ l :: y → l.IsTrivia ∧
    l.Fits (y.flatMap Lexeme.text ++ (t.token.text.toList ++ back.flatMap Tile.text))
  start : t.token.start = byteLength (front.flatMap Tile.text ++ t.gap.flatMap Lexeme.text)
  stop : t.token.stop = t.token.start + byteLength t.token.text.toList
  line : t.token.line =
    1 + Cursor.newlines (front.flatMap Tile.text ++ t.gap.flatMap Lexeme.text)
  column : t.token.column =
    1 + byteLength (lastLine (front.flatMap Tile.text ++ t.gap.flatMap Lexeme.text))
  /-- The end mark is the last token, and the only empty one. -/
  finish : t.token.kind = .finish ↔ back = []
  text_eq_empty : t.token.text = "" ↔ back = []
  /-- A token is not the first on its line when a token, a block comment or a directive in front of
  it ends there. -/
  firstOnLine : back ≠ [] → (t.token.firstOnLine = false ↔
    ContentEndsOn (front.flatMap Tile.parts ++ t.gap.map Lexeme.part) t.token.line)
  /-- A comment goes from its slashes to the end of its line. -/
  comment : t.token.kind = .comment → ∃ body, t.token.text.toList = '/' :: '/' :: body ∧
    '\n' ∉ body ∧ ∀ d ∈ (back.flatMap Tile.text).head?, d = '\n'

/-! ### Tiles of lexemes -/

section

variable {c : Cursor} {gap ls : List Lexeme} {l : Lexeme} {front back : List Tile} {t : Tile}
  {u : Token} {source : List Char}

theorem map_token_tilesFrom (c : Cursor) (gap ls : List Lexeme) :
    (tilesFrom c gap ls).map Tile.token = located c ls ++ [(c.past ls).finish] := by
  induction ls generalizing c gap with
  | nil => rfl
  | cons l ls ih =>
    rw [tilesFrom, located, Cursor.past_cons]
    cases c.token? l with
    | none => exact ih (c.pass l) (gap ++ [l])
    | some t => exact congrArg (t :: ·) (ih (c.pass l) [])

/-- A lexeme that gives a token is no blank, and the token has its text. -/
theorem Cursor.token?_eq_some (h : c.token? l = some u) :
    Token.Kind.ofShape? l.shape = some u.kind ∧ u.text.toList = l.text ∧
      Lexeme.part l = ⟨true, l.text⟩ := by
  obtain ⟨kind, hkind, rfl⟩ := Option.map_eq_some_iff.1 h
  refine ⟨hkind, String.toList_ofList, ?_⟩
  have hblank : l.shape ≠ .blank := fun hblank => by
    rw [hblank] at hkind
    cases hkind
  rw [Lexeme.part, bne_iff_ne.2 hblank]

theorem Lexeme.isTrivia_iff : l.IsTrivia ↔ Token.Kind.ofShape? l.shape = none := by
  rw [Lexeme.IsTrivia]
  cases l.shape <;> decide

theorem Cursor.token?_eq_none_iff : c.token? l = none ↔ l.IsTrivia := by
  rw [Lexeme.isTrivia_iff, Cursor.token?, Option.map_eq_none_iff]

theorem flatMap_text_tilesFrom (c : Cursor) (gap ls : List Lexeme) :
    (tilesFrom c gap ls).flatMap Tile.text = gap.flatMap Lexeme.text ++ ls.flatMap Lexeme.text := by
  induction ls generalizing c gap with
  | nil =>
    rw [tilesFrom, List.flatMap_singleton]
    rfl
  | cons l ls ih =>
    rw [tilesFrom]
    cases hu : c.token? l with
    | none => rw [ih, List.flatMap_append, List.flatMap_singleton, List.append_assoc,
        List.flatMap_cons]
    | some u =>
      rw [List.flatMap_cons, ih, Tile.text, (Cursor.token?_eq_some hu).2.1, List.flatMap_cons,
        List.append_assoc]
      rfl

theorem tilesFrom_ne_nil (c : Cursor) (gap ls : List Lexeme) : tilesFrom c gap ls ≠ [] := by
  intro h
  have hmap := map_token_tilesFrom c gap ls
  rw [h] at hmap
  simp at hmap

/-- A place among the tiles is a place among the lexemes: those of the tiles in front, the gap, and
the lexeme of the token, or nothing when the token is the end mark. -/
theorem exists_lexemes_of_tilesFrom (hgap : ∀ l ∈ gap, l.IsTrivia)
    (h : tilesFrom (c.past gap) gap ls = front ++ t :: back) :
    ∃ before rest, gap ++ ls = before ++ (t.gap ++ rest) ∧ (∀ l ∈ t.gap, l.IsTrivia) ∧
      before.map Lexeme.part = front.flatMap Tile.parts ∧
      before.flatMap Lexeme.text = front.flatMap Tile.text ∧
      rest.flatMap Lexeme.text = t.token.text.toList ++ back.flatMap Tile.text ∧
      ((∃ l ls, rest = l :: ls ∧ (c.past (before ++ t.gap)).token? l = some t.token ∧ back ≠ []) ∨
        rest = [] ∧ t.token = (c.past (before ++ t.gap)).finish ∧ back = []) := by
  induction ls generalizing c gap front with
  | nil =>
    rw [tilesFrom] at h
    obtain ⟨rfl, htail⟩ | ⟨front, rfl, htail⟩ := List.cons_eq_append_iff.1 h
    · obtain ⟨rfl, rfl⟩ := List.cons.inj htail
      exact ⟨[], [], rfl, hgap, rfl, rfl, rfl, .inr ⟨rfl, rfl, rfl⟩⟩
    · simp at htail
  | cons l ls ih =>
    rw [tilesFrom] at h
    cases hu : (c.past gap).token? l with
    | none =>
      rw [hu] at h
      have hmore : ∀ k ∈ gap ++ [l], k.IsTrivia := fun k hk => by
        rcases List.mem_append.1 hk with hk | hk
        · exact hgap k hk
        · rw [List.mem_singleton.1 hk]
          exact Cursor.token?_eq_none_iff.1 hu
      have hpast : c.past (gap ++ [l]) = (c.past gap).pass l := Cursor.past_append c gap [l]
      rw [List.append_cons gap l ls]
      exact ih hmore (hpast ▸ h)
    | some u =>
      rw [hu] at h
      obtain ⟨-, htext, hpart⟩ := Cursor.token?_eq_some hu
      obtain ⟨rfl, htail⟩ | ⟨front, rfl, htail⟩ := List.cons_eq_append_iff.1 h
      · obtain ⟨rfl, rfl⟩ := List.cons.inj htail
        refine ⟨[], l :: ls, rfl, hgap, rfl, rfl, ?_, .inl ⟨l, ls, rfl, hu, tilesFrom_ne_nil _ _ _⟩⟩
        rw [flatMap_text_tilesFrom, htext]
        rfl
      · have hpast : ((c.past gap).pass l).past [] = c.past (gap ++ [l]) :=
          (Cursor.past_append c gap [l]).symm
        obtain ⟨before, rest, hls, htrivia, hparts, hbefore, hrest, hplace⟩ :=
          ih (c := (c.past gap).pass l) (List.forall_mem_nil Lexeme.IsTrivia) htail
        have hcursor : ((c.past gap).pass l).past (before ++ t.gap) =
            c.past (gap ++ l :: before ++ t.gap) := by
          simp [Cursor.past_append]
        rw [hcursor] at hplace
        refine ⟨gap ++ l :: before, rest, ?_, htrivia, ?_, ?_, hrest, hplace⟩
        · rw [show ls = before ++ (t.gap ++ rest) from hls]
          simp
        · rw [List.map_append, List.map_cons, hpart, hparts, List.flatMap_cons, Tile.parts, htext]
          simp
        · rw [List.flatMap_append, List.flatMap_cons, hbefore, List.flatMap_cons, Tile.text, htext]
          simp

/-- A kind of tokens is the kind of one shape only. -/
theorem Lexeme.shape_of_comment (h : Token.Kind.ofShape? l.shape = some .comment) :
    l.shape = .lineComment := by
  cases hshape : l.shape <;> rw [hshape] at h <;> first | rfl | cases h

theorem Token.Kind.ofShape?_ne_finish (s : Shape) : Token.Kind.ofShape? s ≠ some .finish := by
  cases s <;> exact fun h => nomatch h

theorem Lexeme.Fits.lineComment_inv {rest : List Char} (h : l.Fits rest)
    (hshape : l.shape = .lineComment) : ∃ body, l.text = '/' :: '/' :: body ∧ '\n' ∉ body ∧
      ∀ d ∈ rest.head?, d = '\n' := by
  cases h with
  | @lineComment body _ hrun =>
    refine ⟨body, rfl, fun hmem => ?_, fun d hd => ?_⟩
    · exact absurd (List.all_eq_true.1 hrun.1 _ hmem) (by decide)
    · simpa using hrun.2 d hd
  | literal hquote => subst hshape; cases hquote
  | _ => cases hshape

/-- The place behind some lexemes is the one that their text leads to. -/
theorem Cursor.place_past (ls : List Lexeme) :
    (start.past ls).offset = byteLength (ls.flatMap Lexeme.text) ∧
      (start.past ls).line = 1 + newlines (ls.flatMap Lexeme.text) ∧
      (start.past ls).column = 1 + byteLength (lastLine (ls.flatMap Lexeme.text)) := by
  refine ⟨?_, line_past start ls, column_past ls⟩
  rw [offset_past]
  exact Nat.zero_add _

/-- A lexeme of a gap is trivia, and has its form in front of the rest. -/
theorem fits_of_gap {before rest : List Lexeme} (hlexemes : lexemes source = before ++ t.gap ++ rest)
    (htrivia : ∀ l ∈ t.gap, l.IsTrivia) {x y : List Lexeme} (hgap : t.gap = x ++ l :: y) :
    l.IsTrivia ∧ l.Fits (y.flatMap Lexeme.text ++ rest.flatMap Lexeme.text) := by
  refine ⟨htrivia l (hgap ▸ by simp), ?_⟩
  rw [← List.flatMap_append]
  have hcut : lexemes source = before ++ x ++ l :: (y ++ rest) := by
    rw [hlexemes, hgap]
    simp
  exact Lexeme.fits_of_lexemes hcut

/-- The kind and the text of a token that a lexeme gives. -/
theorem Lexeme.Fits.token (h : l.Fits source) (hu : c.token? l = some u) :
    u.kind ≠ .finish ∧ u.text ≠ "" ∧ (u.kind = .comment →
      ∃ body, u.text.toList = '/' :: '/' :: body ∧ '\n' ∉ body ∧ ∀ d ∈ source.head?, d = '\n') := by
  obtain ⟨hkind, htext, -⟩ := Cursor.token?_eq_some hu
  obtain ⟨d, cs, hcs, -⟩ := h.exists_first
  refine ⟨fun hfinish => ?_, fun hempty => ?_, fun hcomment => ?_⟩
  · rw [hfinish] at hkind
    exact Token.Kind.ofShape?_ne_finish _ hkind
  · rw [hempty, hcs] at htext
    cases htext
  · rw [hcomment] at hkind
    rw [htext]
    exact h.lineComment_inv (Lexeme.shape_of_comment hkind)

/-- Every tile of a header stands in its place. -/
theorem stands_of_tilesFrom (h : tilesFrom .start [] (lexemes source) = front ++ t :: back) :
    t.Stands front back := by
  obtain ⟨before, rest, hlexemes, htrivia, hparts, hbefore, hrest, hplace⟩ :=
    exists_lexemes_of_tilesFrom (c := .start) (List.forall_mem_nil Lexeme.IsTrivia) h
  rw [List.nil_append, ← List.append_assoc] at hlexemes
  obtain ⟨hoffset, hline, hcolumn⟩ := Cursor.place_past (before ++ t.gap)
  rw [List.flatMap_append, hbefore] at hoffset hline hcolumn
  have hgap := fun x l y => hrest ▸ fits_of_gap (l := l) (x := x) (y := y) hlexemes htrivia
  rcases hplace with ⟨l, ls, rfl, hu, hback⟩ | ⟨rfl, hu, rfl⟩
  · have hfits : l.Fits (ls.flatMap Lexeme.text) := Lexeme.fits_of_lexemes hlexemes
    obtain ⟨-, hltext, -⟩ := Cursor.token?_eq_some hu
    have hls : ls.flatMap Lexeme.text = back.flatMap Tile.text := by
      rw [List.flatMap_cons, hltext] at hrest
      exact List.append_cancel_left hrest
    rw [hls] at hfits
    obtain ⟨hfinish, hempty, hcomment⟩ := hfits.token hu
    obtain ⟨kind, -, htoken⟩ := Option.map_eq_some_iff.1 hu
    exact {
      gap := hgap
      start := by rw [← hoffset, ← htoken]
      stop := by rw [hltext, ← htoken]
      line := by rw [← hline, ← htoken]
      column := by rw [← hcolumn, ← htoken]
      finish := iff_of_false hfinish hback
      text_eq_empty := iff_of_false hempty hback
      firstOnLine := by
        intro _
        have hcontent := (Cursor.contentLine_past (before ++ t.gap)).2
        rw [List.map_append, hparts] at hcontent
        rw [← htoken]
        exact bne_eq_false_iff_eq.trans hcontent
      comment := hcomment }
  · exact {
      gap := hgap
      start := by rw [← hoffset, hu]; rfl
      stop := by rw [hu]; rfl
      line := by rw [← hline, hu]; rfl
      column := by rw [← hcolumn, hu]; rfl
      finish := iff_of_true (by rw [hu]; rfl) rfl
      text_eq_empty := iff_of_true (by rw [hu]; rfl) rfl
      firstOnLine := fun hback => absurd rfl hback
      comment := by
        intro hcomment
        rw [hu] at hcomment
        cases hcomment }

theorem pairwise_of_stands {tiles : List Tile}
    (h : ∀ (front : List Tile) (t : Tile) (back : List Tile),
      tiles = front ++ t :: back → t.Stands front back) :
    tiles.Pairwise fun t u => t.token.stop ≤ u.token.start := by
  suffices ∀ back front, tiles = front ++ back →
      back.Pairwise fun t u => t.token.stop ≤ u.token.start from this tiles [] rfl
  intro back
  induction back with
  | nil => exact fun _ _ => .nil
  | cons t back ih =>
    intro front htiles
    refine .cons (fun u hu => ?_) (ih (front ++ [t]) (by rw [htiles, List.append_cons]))
    obtain ⟨x, y, rfl⟩ := List.append_of_mem hu
    have ht := h front t _ htiles
    have hu := h (front ++ t :: x) u y (by rw [htiles, List.append_assoc, List.cons_append])
    rw [ht.stop, ht.start, hu.start, List.flatMap_append, List.flatMap_cons, Tile.text]
    simp only [byteLength_append]
    omega

/-- The source at the place of a token is its text. -/
theorem Tile.Stands.slice_eq (h : t.Stands front back) :
    slice t.token.start t.token.stop ((front ++ t :: back).flatMap Tile.text) =
      t.token.text.toList := by
  rw [h.stop, h.start, List.flatMap_append, List.flatMap_cons, Tile.text, List.append_assoc,
    ← List.append_assoc, ← List.append_assoc, slice_append]

theorem Tile.Stands.start_lt_stop (h : t.Stands front back) (hback : back ≠ []) :
    t.token.start < t.token.stop := by
  have hne : t.token.text.toList ≠ [] := fun htext => by
    rw [String.toList_eq_nil_iff] at htext
    exact hback (h.text_eq_empty.1 htext)
  obtain ⟨c, cs, hcs⟩ := List.exists_cons_of_ne_nil hne
  have hc := c.utf8Size_pos
  rw [h.stop, hcs, byteLength_cons]
  omega

end

/-- The tiles of a header. -/
def tilesOf (source : List Char) : List Tile := tilesFrom .start [] (lexemes source)

theorem map_token_tilesOf (source : List Char) :
    (tilesOf source).map Tile.token = Token.stream source :=
  map_token_tilesFrom .start [] (lexemes source)

theorem flatMap_text_tilesOf (source : List Char) :
    (tilesOf source).flatMap Tile.text = source := by
  rw [tilesOf, flatMap_text_tilesFrom, lexemes_flatten]
  rfl

theorem tilesOf_stands (source : List Char) :
    ∀ front t back, tilesOf source = front ++ t :: back → t.Stands front back :=
  fun _ _ _ h => stands_of_tilesFrom h

/-- The last tile has the end mark. -/
theorem exists_tilesOf (source : List Char) : ∃ (tiles : List Tile) (last : Tile),
    tilesOf source = tiles ++ [last] ∧ tiles.map Tile.token = Token.ofText source ∧
    Token.stream source = Token.ofText source ++ [last.token] := by
  obtain ⟨tiles, last, htiles⟩ := (List.eq_nil_or_concat (tilesOf source)).resolve_left
    (tilesFrom_ne_nil _ _ _)
  rw [List.concat_eq_append] at htiles
  have htokens := map_token_tilesOf source
  rw [htiles, List.map_append, List.map_singleton] at htokens
  have hfront := (List.append_inj' htokens rfl).1
  exact ⟨tiles, last, htiles, hfront, by rw [← htokens, hfront]⟩

/-- Tokens come in order and do not overlap. -/
theorem pairwise_stream (source : List Char) :
    (Token.stream source).Pairwise fun t u => t.stop ≤ u.start := by
  rw [← map_token_tilesOf, List.pairwise_map]
  exact pairwise_of_stands (tilesOf_stands source)

/-- A token before the end mark has a tile that is not the last one. -/
theorem exists_stands_of_mem {source : List Char} {u : Token} (h : u ∈ Token.ofText source) :
    ∃ (front : List Tile) (t : Tile) (back : List Tile), t.token = u ∧ back ≠ [] ∧
      t.Stands front back := by
  obtain ⟨tiles, last, htiles, htokens, -⟩ := exists_tilesOf source
  rw [← htokens] at h
  obtain ⟨t, ht, rfl⟩ := List.mem_map.1 h
  obtain ⟨front, back, rfl⟩ := List.append_of_mem ht
  exact ⟨front, t, back ++ [last], rfl, by simp,
    tilesOf_stands source front t (back ++ [last]) (by rw [htiles]; simp)⟩

theorem start_lt_stop_of_mem {source : List Char} {u : Token} (h : u ∈ Token.ofText source) :
    u.start < u.stop := by
  obtain ⟨front, t, back, rfl, hback, ht⟩ := exists_stands_of_mem h
  exact ht.start_lt_stop hback

/-- No token stands twice in a header. -/
theorem nodup_ofText (source : List Char) : (Token.ofText source).Nodup := by
  refine (List.pairwise_append.1 (pairwise_stream source)).1.imp_of_mem ?_
  rintro t u ht - hle rfl
  have hlt := start_lt_stop_of_mem ht
  omega

theorem kind_ne_finish_of_mem {source : List Char} {u : Token} (h : u ∈ Token.ofText source) :
    u.kind ≠ .finish := by
  obtain ⟨front, t, back, rfl, hback, ht⟩ := exists_stands_of_mem h
  exact fun hfinish => hback (ht.finish.1 hfinish)

/-- **Tokens tile the header.**  The header is the text of tiles, and its tokens are theirs: each
has its own text and place, its gap holds nothing but blanks, block comments and directives, and it
is first on its line unless something in front of it ends there.  The last token is the only end
mark and lies at the end of the header; the others are not empty, come in order and do not
overlap. -/
theorem stream_tiles (source : List Char) :
    ∃ tiles : List Tile, tiles.flatMap Tile.text = source ∧
      tiles.map Tile.token = Token.stream source ∧
      (∀ front t back, tiles = front ++ t :: back → t.Stands front back) ∧
      (∃ tokens last, Token.stream source = tokens ++ [last] ∧
        (∀ t ∈ tokens, t.kind ≠ .finish ∧ t.start < t.stop) ∧ last.kind = .finish ∧
        last.start = byteLength source ∧ last.stop = byteLength source) ∧
      (∀ t ∈ Token.stream source, slice t.start t.stop source = t.text.toList) ∧
      (Token.stream source).Pairwise fun t u => t.stop ≤ u.start := by
  have htext := flatMap_text_tilesOf source
  have htokens := map_token_tilesOf source
  have hstands := tilesOf_stands source
  refine ⟨tilesOf source, htext, htokens, hstands, ?_, ?_, pairwise_stream source⟩
  · obtain ⟨tiles, last, htiles, -, hstream⟩ := exists_tilesOf source
    have hlast := hstands tiles last [] htiles
    have hempty : last.token.text.toList = [] := by rw [hlast.text_eq_empty.2 rfl]; rfl
    have hend : last.token.start = byteLength source := by
      rw [hlast.start, ← htext, htiles, List.flatMap_append, List.flatMap_singleton, Tile.text,
        hempty, List.append_nil]
    exact ⟨Token.ofText source, last.token, hstream,
      fun t ht => ⟨kind_ne_finish_of_mem ht, start_lt_stop_of_mem ht⟩, hlast.finish.2 rfl, hend,
      by rw [hlast.stop, hend, hempty]; rfl⟩
  · rw [← htokens]
    intro u hu
    obtain ⟨t, ht, rfl⟩ := List.mem_map.1 hu
    obtain ⟨front, back, htiles⟩ := List.append_of_mem ht
    have hslice := (hstands front t back htiles).slice_eq
    rwa [← htiles, htext] at hslice

end RowMapping
