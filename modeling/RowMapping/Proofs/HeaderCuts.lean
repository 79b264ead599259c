import Mathlib.Data.List.Basic
import RowMapping.Proofs.InsertedText
import RowMapping.Proofs.LexemeForm
/-!
# Cutting a header between its lexemes

A header can be cut behind each of its lexemes: each part is cut into its own lexemes again.  So
wherever some of its tokens stand side by side, there is a part of the header that has just these.

* `Lexeme.Fits.of_append`: a lexeme keeps its form when a text ends sooner;
* `lexemes_flatMap_text`: the two parts of a text;
* `Cursor.exists_lexemes_of_located`: tokens side by side come from lexemes side by side;
* `exists_cut`: a header is cut around some of its tokens.
-/

namespace RowMapping

open Declaration Text Token

/-! ### Texts that end sooner -/

section

variable {rest more text tail : List Char}

theorem head?_ne_of_append {d : Char} (h : (rest ++ more).head? ≠ some d) :
    rest.head? ≠ some d := fun hd => h (List.mem_head?_append_of_mem_head? hd)

namespace Lexeme

theorem IsRun.of_append {p : Char → Bool} (h : IsRun p text (rest ++ more)) : IsRun p text rest :=
  ⟨h.1, fun d hd => h.2 d (List.mem_head?_append_of_mem_head? hd)⟩

theorem Halts.of_append {stop : Char → Bool} (h : Halts stop (rest ++ more)) : Halts stop rest := by
  rcases h with h | h
  · rcases List.append_eq_singleton_iff.1 h with ⟨rfl, -⟩ | ⟨rfl, -⟩
    · exact .inr (by rintro _ ⟨⟩)
    · exact .inl rfl
  · exact .inr fun d hd => h d (List.mem_head?_append_of_mem_head? hd)

theorem LiteralTail.of_append {quote : Char} (h : LiteralTail quote tail (rest ++ more)) :
    LiteralTail quote tail rest := by
  cases h with
  | closed hrun => exact .closed hrun rest
  | unclosed hrun hrest => exact .unclosed hrun hrest.of_append

theorem RawTail.of_append (h : RawTail tail (rest ++ more)) : RawTail tail rest := by
  generalize hall : rest ++ more = all at h
  cases h with
  | bare hrest =>
    subst hall
    exact .bare fun hparen => hrest (List.mem_append_left more hparen)
  | closed hdelimiter hinner => exact .closed hdelimiter hinner rest
  | unclosed hdelimiter hinner =>
    rw [(List.append_eq_nil_iff.1 hall).1]
    exact .unclosed hdelimiter hinner

/-- **A lexeme keeps its form when the text behind it ends sooner.** -/
theorem Fits.of_append {l : Lexeme} (h : l.Fits (rest ++ more)) : l.Fits rest := by
  generalize hall : rest ++ more = all at h
  cases h with
  | openComment hinner =>
    rw [(List.append_eq_nil_iff.1 hall).1]
    exact .openComment hinner
  | closedComment hinner => exact .closedComment hinner rest
  | doubleColon => exact .doubleColon rest
  | mark hc => exact .mark hc rest
  | blank hne hrun => exact .blank hne (hall ▸ hrun).of_append
  | lineComment hrun => exact .lineComment (hall ▸ hrun).of_append
  | directive hrun hrest => exact .directive hrun (hall ▸ hrest).of_append
  | literal hquote htail => exact .literal hquote (hall ▸ htail).of_append
  | raw hmarker htail => exact .raw hmarker (hall ▸ htail).of_append
  | number hc hrun => exact .number hc (hall ▸ hrun).of_append
  | word hc hrun hraw =>
    subst hall
    exact .word hc hrun.of_append fun hmarker => head?_ne_of_append (hraw hmarker)
  | foreignNumber hc hascii hrun => exact .foreignNumber hc hascii (hall ▸ hrun).of_append
  | colon hrest => exact .colon (head?_ne_of_append (hall ▸ hrest))
  | slash hstar hslash =>
    subst hall
    exact .slash (head?_ne_of_append hstar) (head?_ne_of_append hslash)

end Lexeme

/-! ### The parts of a text -/

variable {cs : List Char} {ls ls' : List Lexeme}

/-- Lexemes that have their forms, one behind the other, are those of their text. -/
theorem lexemes_of_fits
    (h : ∀ front l back, ls = front ++ l :: back → l.Fits (back.flatMap Lexeme.text)) :
    lexemes (ls.flatMap Lexeme.text) = ls := by
  induction ls with
  | nil => exact lexemes_nil
  | cons l ls ih =>
    rw [List.flatMap_cons, (h [] l ls rfl).lexemes_append,
      ih fun front k back hls => h (l :: front) k back (by rw [hls]; rfl)]

/-- **Each part of a text that is cut between two lexemes** is cut into its own ones again. -/
theorem lexemes_flatMap_text (h : lexemes cs = ls ++ ls') :
    lexemes (ls.flatMap Lexeme.text) = ls ∧ lexemes (ls'.flatMap Lexeme.text) = ls' := by
  constructor
  · refine lexemes_of_fits fun front l back hls => ?_
    rw [hls, List.append_assoc, List.cons_append] at h
    have hfits := Lexeme.fits_of_lexemes h
    rw [List.flatMap_append] at hfits
    exact hfits.of_append
  · refine lexemes_of_fits fun front l back hls => ?_
    rw [hls, ← List.append_assoc] at h
    exact Lexeme.fits_of_lexemes h

theorem cut_flatMap_text (h : lexemes cs = ls ++ ls') :
    Cut (ls.flatMap Lexeme.text) (ls'.flatMap Lexeme.text) := by
  obtain ⟨hls, hls'⟩ := lexemes_flatMap_text h
  refine cut_of_lexemes ?_
  rw [hls, hls', ← List.flatMap_append, ← h, lexemes_flatten]

/-- **Tokens side by side** come from lexemes side by side. -/
theorem Cursor.exists_lexemes_of_located {c : Cursor} {x y : List Token}
    (h : located c ls = x ++ y) :
    ∃ front back, ls = front ++ back ∧ located c front = x ∧ located (c.past front) back = y := by
  induction ls generalizing c x with
  | nil =>
    obtain ⟨rfl, rfl⟩ := List.append_eq_nil_iff.1 h.symm
    exact ⟨[], [], rfl, rfl, rfl⟩
  | cons l ls ih =>
    cases x with
    | nil => exact ⟨[], l :: ls, rfl, rfl, h⟩
    | cons t x =>
      -- the lexeme has no token, or it has the first one
      obtain ⟨x', hx', hrest⟩ : ∃ x', t :: x = (c.token? l).toList ++ x' ∧
          located (c.pass l) ls = x' ++ y := by
        rw [located] at h
        cases htoken : c.token? l with
        | none => exact ⟨t :: x, rfl, by simpa [htoken] using h⟩
        | some u =>
          rw [htoken] at h
          obtain ⟨rfl, htail⟩ := List.cons.inj h
          exact ⟨x, rfl, htail⟩
      obtain ⟨front, back, rfl, hfront, hback⟩ := ih hrest
      exact ⟨l :: front, back, rfl, by rw [located, hfront, hx'], hback⟩

/-- **A header is cut around some of its tokens.** -/
theorem exists_cut {x y z : List Token} (h : Token.ofText cs = x ++ (y ++ z)) :
    ∃ a text b, cs = a ++ text ++ b ∧ Cut a (text ++ b) ∧ Cut text b ∧
      (Cursor.behind a).tokens text = y := by
  obtain ⟨front, rest, hls, -, hrest⟩ := Cursor.exists_lexemes_of_located h
  obtain ⟨mid, back, rfl, hmid, -⟩ := Cursor.exists_lexemes_of_located hrest
  have hcut := cut_flatMap_text hls
  obtain ⟨hfront, hbehind⟩ := lexemes_flatMap_text hls
  have hcut' := cut_flatMap_text hbehind
  have hmid' := (lexemes_flatMap_text hbehind).1
  rw [List.flatMap_append] at hcut
  refine ⟨_, _, _, ?_, hcut, hcut', ?_⟩
  · rw [List.append_assoc, ← List.flatMap_append, ← List.flatMap_append, ← hls, lexemes_flatten]
  · rw [Cursor.behind, Cursor.tokens, hfront, hmid', hmid]

end

end RowMapping
