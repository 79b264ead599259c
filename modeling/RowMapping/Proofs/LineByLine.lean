import RowMapping.Proofs.Declared
import RowMapping.Proofs.Tiling
/-!
# Tokens on lines of their own

What stands between the tokens of a header only separates them: the texts of the tokens, each on a
line of its own, are cut into the same tokens, and so is each of them alone.

* `Token.unplaced`, `tokenTexts`, `onLines`: tokens without their places, the texts of the tokens of
  a header, and these texts on lines;
* `Follows`: a line end, or nothing, in place of the text behind a lexeme;
* `Lexeme.Fits.of_follows`: a lexeme of code keeps its form then;
* `code_lexemes_onLines`: the lexemes of code on lines;
* `stream_onLines`: the tokens on lines.
-/

namespace RowMapping

open Text

/-- What a token is and reads, without its place. -/
def Token.unplaced (t : Token) : Token.Kind × String := (t.kind, t.text)

/-- The texts of the tokens of a header, without the end mark. -/
def tokenTexts (source : List Char) : List String :=
  ((Token.stream source).filter fun t => t.kind != .finish).map Token.text

/-- The tokens of a header with a line end between any two. -/
def onLines (source : List Char) : List Char :=
  ['\n'].intercalate ((tokenTexts source).map String.toList)

/-- The lexemes of code among some lexemes: the kinds and texts of their tokens. -/
def code (ls : List Lexeme) : List (Token.Kind × List Char) :=
  ls.filterMap fun l => (Token.Kind.ofShape? l.shape).map fun kind => (kind, l.text)

/-! ### Behind a lexeme of code -/

section

variable {l : Lexeme} {rest rest' : List Char} {p : Char → Bool}

/-- Behind a lexeme, `rest'` stands in place of `rest`: nothing, or a line end and a text that
brings no parenthesis. -/
def Follows (rest rest' : List Char) : Prop :=
  rest' = [] ∨ rest ≠ [] ∧ rest'.head? = some '\n' ∧ ('(' ∈ rest' → '(' ∈ rest)

theorem Follows.of_nil (h : Follows [] rest') : rest' = [] :=
  h.resolve_right fun h => h.1 rfl

/-- At most a line end stands behind the lexeme. -/
theorem Follows.head (h : Follows rest rest') {d : Char} (hd : d ∈ rest'.head?) : d = '\n' := by
  rcases h with rfl | ⟨-, hline, -⟩
  · cases hd
  · exact Option.some.inj ((Option.mem_def.1 hd).symm.trans hline)

theorem Follows.head?_ne (h : Follows rest rest') {d : Char} (hd : d ≠ '\n') :
    rest'.head? ≠ some d := fun hsome => hd (h.head hsome)

theorem Lexeme.IsRun.of_follows {text : List Char} (h : IsRun p text rest) (hp : p '\n' = false)
    (hf : Follows rest rest') : IsRun p text rest' :=
  ⟨h.1, fun _ hd => hf.head hd ▸ hp⟩

theorem Lexeme.RawTail.of_follows {tail : List Char} (h : RawTail tail rest)
    (hf : Follows rest rest') : RawTail tail rest' := by
  cases h with
  | bare hrest =>
    refine .bare fun hparen => ?_
    rcases hf with rfl | ⟨-, -, hmem⟩
    · cases hparen
    · exact hrest (hmem hparen)
  | closed hdelimiter hinner => exact .closed hdelimiter hinner rest'
  | unclosed hdelimiter hinner =>
    rw [hf.of_nil]
    exact .unclosed hdelimiter hinner

theorem Lexeme.LiteralTail.of_follows {quote : Char} {tail : List Char}
    (h : LiteralTail quote tail rest) (hf : Follows rest rest') : LiteralTail quote tail rest' := by
  cases h with
  | closed hrun => exact .closed hrun rest'
  | unclosed hrun => exact .unclosed hrun (.inr fun d hd => beq_iff_eq.2 (hf.head hd))

/-- A lexeme of code does not depend on what stands behind the line end behind it. -/
theorem Lexeme.Fits.of_follows (h : l.Fits rest) (hcode : Token.Kind.ofShape? l.shape ≠ none)
    (hf : Follows rest rest') : l.Fits rest' := by
  cases h with
  | blank | closedComment | openComment | directive => exact absurd rfl hcode
  | lineComment hrun => exact .lineComment (hrun.of_follows rfl hf)
  | literal hquote htail => exact .literal hquote (htail.of_follows hf)
  | raw hmarker htail => exact .raw hmarker (htail.of_follows hf)
  | number hc hrun => exact .number hc (hrun.of_follows (by decide) hf)
  | word hc hrun => exact .word hc (hrun.of_follows (by decide) hf) fun _ => hf.head?_ne (by decide)
  | foreignNumber hc hascii hrun =>
    exact .foreignNumber hc hascii (hrun.of_follows (by decide) hf)
  | doubleColon => exact .doubleColon rest'
  | colon => exact .colon (hf.head?_ne (by decide))
  | slash => exact .slash (hf.head?_ne (by decide)) (hf.head?_ne (by decide))
  | mark hc => exact .mark hc rest'

/-- A lexeme of code alone is cut into itself. -/
theorem Lexeme.Fits.lexemes_text (h : l.Fits rest) (hcode : Token.Kind.ofShape? l.shape ≠ none) :
    lexemes l.text = [l] := by
  have hend : l.Fits [] := h.of_follows hcode (.inl rfl)
  have halone := hend.lexemes_append
  rwa [List.append_nil, lexemes_nil] at halone

end

/-! ### Lexemes on lines -/

section

variable {l : Lexeme} {ls : List Lexeme} {kind : Token.Kind} {source : List Char}

theorem code_cons_of_some (h : Token.Kind.ofShape? l.shape = some kind) (ls : List Lexeme) :
    code (l :: ls) = (kind, l.text) :: code ls := by
  rw [code, List.filterMap_cons, h]
  rfl

theorem code_cons_of_none (h : Token.Kind.ofShape? l.shape = none) (ls : List Lexeme) :
    code (l :: ls) = code ls := by
  rw [code, List.filterMap_cons, h]
  rfl

/-- A blank in front of a text brings no code. -/
theorem code_lexemes_blank {c : Char} (hc : isBlank c = true) (cs : List Char) :
    code (lexemes (c :: cs)) = code (lexemes cs) := by
  have hfirst : ∀ {d ds}, isBlank d = true → lexemes (d :: ds) =
      ⟨.blank, d :: ds.takeWhile isBlank⟩ :: lexemes (ds.dropWhile isBlank) := by
    intro d ds hd
    have h := Lexeme.first_of_isBlank hd (Lexeme.isRun_takeWhile isBlank ds)
    rw [List.takeWhile_append_dropWhile] at h
    rw [lexemes_cons, h]
  rw [hfirst hc, code_cons_of_none rfl]
  cases cs with
  | nil => rfl
  | cons d ds =>
    cases hd : isBlank d with
    | false => rw [List.dropWhile_cons_of_neg (by simp [hd])]
    | true => rw [List.dropWhile_cons_of_pos hd, hfirst hd, code_cons_of_none rfl]

theorem mem_of_mem_code {c : Char} (h : c ∈ ((code ls).map Prod.snd).flatten) :
    c ∈ ls.flatMap Lexeme.text := by
  obtain ⟨text, htext, hc⟩ := List.mem_flatten.1 h
  obtain ⟨⟨kind, _⟩, hmem, rfl⟩ := List.mem_map.1 htext
  obtain ⟨l, hl, hsome⟩ := List.mem_filterMap.1 hmem
  obtain ⟨_, -, heq⟩ := Option.map_eq_some_iff.1 hsome
  obtain ⟨-, rfl⟩ := Prod.mk.inj heq
  exact List.mem_flatMap.2 ⟨l, hl, hc⟩

/-- The texts of code with a line end between any two. -/
def codeLines (ls : List Lexeme) : List Char := ['\n'].intercalate ((code ls).map Prod.snd)

theorem exists_fits {cs : List Char} (hl : l ∈ lexemes cs) : ∃ rest, l.Fits rest := by
  obtain ⟨front, back, h⟩ := List.append_of_mem hl
  exact ⟨_, Lexeme.fits_of_lexemes h⟩

theorem isBlank_head_codeLines (cs : List Char) :
    ∀ d ∈ (codeLines (lexemes cs)).head?, isBlank d = false := by
  rw [codeLines]
  cases hcode : code (lexemes cs) with
  | nil => rintro _ ⟨⟩
  | cons k ks =>
    have hk : k ∈ code (lexemes cs) := hcode ▸ List.mem_cons_self
    obtain ⟨l, hl, hsome⟩ := List.mem_filterMap.1 hk
    obtain ⟨kind, hkind, rfl⟩ := Option.map_eq_some_iff.1 hsome
    obtain ⟨rest, hfits⟩ := exists_fits hl
    have hshape : l.shape ≠ .blank := fun h => by
      rw [h] at hkind
      cases hkind
    obtain ⟨c, text, htext, -⟩ := hfits.exists_first
    have hhead : (['\n'].intercalate ((kind, l.text) :: ks |>.map Prod.snd)).head? =
        l.text.head? := by
      rw [List.map_cons]
      cases ks with
      | nil => rw [List.map_nil, List.intercalate_singleton]
      | cons k ks => rw [List.map_cons, List.intercalate_cons_cons, htext]; rfl
    rw [hhead]
    exact hfits.isBlank_head hshape

/-- The texts of code on lines are cut into the same code. -/
theorem code_lexemes_codeLines (cs : List Char) :
    code (lexemes (codeLines (lexemes cs))) = code (lexemes cs) := by
  induction cs using lexemes.induct with
  | case1 => rw [lexemes_nil]; exact congrArg code lexemes_nil
  | case2 c cs ih =>
    have hfits := Lexeme.fits_first c cs
    rw [lexemes_cons]
    generalize (Lexeme.first c cs).1 = l at hfits ⊢
    generalize (Lexeme.first c cs).2 = rest at hfits ih ⊢
    cases hkind : Token.Kind.ofShape? l.shape with
    | none => rw [codeLines, code_cons_of_none hkind]; exact ih
    | some kind =>
      have hcode : Token.Kind.ofShape? l.shape ≠ none := by rw [hkind]; exact Option.some_ne_none _
      rw [codeLines, code_cons_of_some hkind, List.map_cons]
      cases hrest : code (lexemes rest) with
      | nil =>
        rw [List.map_nil, List.intercalate_singleton, hfits.lexemes_text hcode,
          code_cons_of_some hkind]
        rfl
      | cons k ks =>
        have hlines : ['\n'].intercalate (l.text :: (k :: ks).map Prod.snd) =
            l.text ++ '\n' :: codeLines (lexemes rest) := by
          rw [codeLines, hrest, List.map_cons, List.intercalate_cons_cons, List.append_assoc]
          rfl
        have hfollows : Follows rest ('\n' :: codeLines (lexemes rest)) := by
          refine .inr ⟨?_, rfl, fun hparen => ?_⟩
          · rintro rfl
            rw [lexemes_nil] at hrest
            cases hrest
          · rcases List.mem_cons.1 hparen with h | h
            · exact absurd h (by decide)
            · rcases mem_of_mem_intercalate h with h | h
              · exact absurd h (by decide)
              · rw [← lexemes_flatten rest]
                exact mem_of_mem_code h
        rw [hlines, (hfits.of_follows hcode hfollows).lexemes_append, code_cons_of_some hkind,
          lexemes_blank (.inr rfl) (isBlank_head_codeLines rest), code_cons_of_none rfl, ih, hrest]

end

/-! ### Tokens on lines -/

section

variable {t : Token} {cs : List Char}

theorem map_unplaced_located (c : Cursor) (ls : List Lexeme) :
    (located c ls).map Token.unplaced = (code ls).map fun k => (k.1, String.ofList k.2) := by
  induction ls generalizing c with
  | nil => rfl
  | cons l ls ih =>
    rw [located, List.map_append, ih, Cursor.token?]
    cases hkind : Token.Kind.ofShape? l.shape with
    | none => rw [code_cons_of_none hkind]; rfl
    | some kind => rw [code_cons_of_some hkind]; rfl

theorem map_unplaced_stream (cs : List Char) : (Token.stream cs).map Token.unplaced =
    ((code (lexemes cs)).map fun k => (k.1, String.ofList k.2)) ++ [(.finish, "")] := by
  rw [Token.stream, List.map_append, Token.ofText, map_unplaced_located]
  rfl

theorem filter_stream (cs : List Char) :
    (Token.stream cs).filter (fun t => t.kind != .finish) = Token.ofText cs := by
  rw [Token.stream, List.filter_append, List.filter_eq_self.2 fun t ht =>
    bne_iff_ne.2 (kind_ne_finish_of_mem ht)]
  exact List.append_nil _

theorem map_toList_tokenTexts (cs : List Char) :
    (tokenTexts cs).map String.toList = (code (lexemes cs)).map Prod.snd := by
  have hunplaced := congrArg (List.map fun u => u.2.toList)
    (map_unplaced_located .start (lexemes cs))
  rw [List.map_map, List.map_map] at hunplaced
  rw [tokenTexts, filter_stream, List.map_map, Token.ofText]
  refine hunplaced.trans (List.map_congr_left fun k _ => ?_)
  exact String.toList_ofList

/-- A token alone is cut into itself. -/
theorem stream_text (ht : t ∈ Token.ofText cs) :
    (Token.stream t.text.toList).map Token.unplaced = [t.unplaced, (.finish, "")] := by
  obtain ⟨l, hl, hkind, htext⟩ := exists_lexeme_of_mem_located ht
  obtain ⟨rest, hfits⟩ := exists_fits hl
  have hcode : Token.Kind.ofShape? l.shape ≠ none := by rw [hkind]; exact Option.some_ne_none _
  have hself : String.ofList l.text = t.text := by rw [← htext, String.ofList_toList]
  rw [map_unplaced_stream, htext, hfits.lexemes_text hcode, code_cons_of_some hkind, List.map_cons,
    hself]
  rfl

end

/-- **What stands between tokens only separates them.**  The tokens of a header, each on a line of
its own, are cut into the same tokens, so their texts alone decide what they are; and each of them
alone is cut into itself. -/
theorem stream_onLines (source : List Char) :
    (Token.stream (onLines source)).map Token.unplaced =
        (Token.stream source).map Token.unplaced ∧
      (∀ other, tokenTexts other = tokenTexts source →
        (Token.stream other).map Token.unplaced = (Token.stream source).map Token.unplaced) ∧
      ∀ t ∈ Token.stream source, t.kind ≠ .finish →
        (Token.stream t.text.toList).map Token.unplaced = [t.unplaced, (.finish, "")] := by
  have hlines : ∀ cs, (Token.stream (onLines cs)).map Token.unplaced =
      (Token.stream cs).map Token.unplaced := fun cs => by
    have honLines : onLines cs = codeLines (lexemes cs) := by
      rw [onLines, map_toList_tokenTexts, codeLines]
    rw [map_unplaced_stream, map_unplaced_stream, honLines, code_lexemes_codeLines]
  refine ⟨hlines source, fun other hother => ?_, fun t ht hkind => ?_⟩
  · have hsame : onLines other = onLines source := by rw [onLines, hother, onLines]
    rw [← hlines other, hsame, hlines source]
  · have hmem : t ∈ (Token.stream source).filter fun t => t.kind != .finish :=
      List.mem_filter.2 ⟨ht, bne_iff_ne.2 hkind⟩
    rw [filter_stream] at hmem
    exact stream_text hmem

end RowMapping
