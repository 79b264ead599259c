import RowMapping.Proofs.LineByLine
import RowMapping.Proofs.TokenCores
import RowMapping.Proofs.TypeSpelling
/-!
# Types that are spelled from tokens

A type is spelled from its tokens with no blanks but those between two words and behind commas.  The
spelling is cut into the same tokens again: words are kept apart, and no two other neighbours run
together.

* `Token.IsOfType`: the tokens that types are made of;
* `Token.IsOfType.cases`: their texts;
* `code_append_of_isOfType`: such a token is cut off in front of what may stand behind it;
* `stream_spelling`: the tokens of a spelling;
* `map_unplaced_of_spelling_eq`: different tokens are spelled differently;
* `MemberSite.map_unplaced_of_type_eq`: so members of the same type have the same tokens of it.
-/

namespace RowMapping

open Declaration Text Token

/-- The marks that a type is made of besides names and numbers. -/
def spelledMarks : List String := ["::", "<", ">", ",", "*", "&"]

/-- A token of some text that is a name, a number or one of the marks of types. -/
def Token.IsOfType (t : Token) : Prop :=
  (∃ source, t ∈ Token.ofText source) ∧
    (t.kind = .word ∨ t.kind = .number ∨ t.kind = .mark ∧ t.text ∈ spelledMarks)

/-- The characters that stand behind a token in a spelling, if no word or number does. -/
def spelledEnds : List Char := [' ', ':', '<', '>', ',', '*', '&']

section

variable {t : Token} {ts us : List Token} {rest : List Char}

/-- The text of such a token. -/
theorem Token.IsOfType.cases (h : t.IsOfType) :
    t.kind = .word ∧ isName t.text.toList = true ∨
      t.kind = .number ∧ (∃ c cs, t.text.toList = c :: cs ∧ isAsciiDigit c = true ∧
        cs.all Lexeme.isNumberPart = true) ∨
      t.kind = .mark ∧ t.text ∈ spelledMarks := by
  obtain ⟨⟨source, ht⟩, hkind⟩ := h
  obtain ⟨l, hl, hshape, htext⟩ := exists_lexeme_of_mem_located ht
  obtain ⟨rest, hfits⟩ := exists_fits hl
  rcases hkind with hkind | hkind | hkind
  · rw [hkind] at hshape
    refine .inl ⟨hkind, ?_⟩
    rw [htext]
    cases hfits with
    | word hc hrun => simp [isName, hc, isNamePart_of_isNameStart hc, hrun.1]
    | @literal shape _ _ _ hquote => cases shape <;> cases hquote <;> cases hshape
    | _ => cases hshape
  · rw [hkind] at hshape
    refine .inr (.inl ⟨hkind, ?_⟩)
    rw [htext]
    cases hfits with
    | number hc hrun => exact ⟨_, _, rfl, hc, hrun.1⟩
    | @literal shape _ _ _ hquote => cases shape <;> cases hquote <;> cases hshape
    | _ => cases hshape
  · exact .inr (.inr hkind)

/-- Nothing that may stand behind a word or a number in a spelling goes on in it. -/
theorem ends_of_mem_spelledEnds {d : Char} (hd : d ∈ spelledEnds) :
    endsWord d = true ∧ Lexeme.isNumberPart d = false := by
  have hall : spelledEnds.all (fun d => endsWord d && !Lexeme.isNumberPart d) = true := by decide
  simpa using List.all_eq_true.1 hall d hd

/-- A mark is cut off, whatever is behind it. -/
theorem lexemes_spelledMark {m : String} (hm : m ∈ spelledMarks) (rest : List Char) :
    lexemes (m.toList ++ rest) = ⟨.mark, m.toList⟩ :: lexemes rest := by
  simp only [spelledMarks, List.mem_cons, List.not_mem_nil, or_false] at hm
  rcases hm with rfl | rfl | rfl | rfl | rfl | rfl
  · exact lexemes_doubleColon rest
  all_goals exact lexemes_mark (by decide) rest

/-- A token of a type is cut off in front of what may stand behind it. -/
theorem code_append_of_isOfType (h : t.IsOfType)
    (hrest : t.isWordLike = true → ∀ d ∈ rest.head?, d ∈ spelledEnds) :
    code (lexemes (t.text.toList ++ rest)) = (t.kind, t.text.toList) :: code (lexemes rest) := by
  rcases h.cases with ⟨hkind, hname⟩ | ⟨hkind, c, cs, htext, hc, hcs⟩ | ⟨hkind, hmark⟩
  · have hends := hrest (by rw [isWordLike, hkind]; rfl)
    rw [lexemes_name hname fun d hd => (ends_of_mem_spelledEnds (hends d hd)).1,
      code_cons_of_some rfl, hkind]
  · have hends := hrest (by rw [isWordLike, hkind]; rfl)
    rw [htext, lexemes_number hc hcs fun d hd => (ends_of_mem_spelledEnds (hends d hd)).2,
      code_cons_of_some rfl, hkind]
  · rw [lexemes_spelledMark hmark, code_cons_of_some rfl, hkind]

/-- What a token that is neither a word nor a number begins with. -/
theorem head_mem_spelledEnds (h : t.IsOfType) (hword : t.isWordLike = false) (rest : List Char) :
    ∀ d ∈ (t.text.toList ++ rest).head?, d ∈ spelledEnds := by
  rcases h.cases with ⟨hkind, -⟩ | ⟨hkind, -⟩ | ⟨-, hmark⟩
  · rw [isWordLike, hkind] at hword
    cases hword
  · rw [isWordLike, hkind] at hword
    cases hword
  · simp only [spelledMarks, List.mem_cons, List.not_mem_nil, or_false] at hmark
    rcases hmark with hm | hm | hm | hm | hm | hm <;> rw [hm] <;> rintro _ ⟨⟩ <;> decide

/-- Behind a word or a number there is a blank or a mark. -/
theorem head_gap_append (hts : ∀ u ∈ ts, u.IsOfType) (hword : t.isWordLike = true) :
    ∀ d ∈ (gap t ts ++ (spelling ts).toList).head?, d ∈ spelledEnds := by
  cases ts with
  | nil => rintro _ ⟨⟩
  | cons u ts =>
    obtain ⟨hu, -⟩ := List.forall_mem_cons.1 hts
    rw [gap, hword, Bool.true_and]
    split
    · rintro _ ⟨⟩
      decide
    · next hno =>
      have hmark : u.isWordLike = false :=
        Bool.eq_false_iff.2 fun h => hno (by rw [h, Bool.true_or])
      rw [List.nil_append, toList_spelling_cons]
      exact head_mem_spelledEnds hu hmark _

theorem code_gap_append (t : Token) (ts : List Token) (rest : List Char) :
    code (lexemes (gap t ts ++ rest)) = code (lexemes rest) := by
  cases ts with
  | nil => rfl
  | cons u ts =>
    rw [gap]
    split
    · exact code_lexemes_blank rfl rest
    · rfl

/-- The code of a spelling. -/
theorem code_spelling (h : ∀ t ∈ ts, t.IsOfType) :
    code (lexemes (spelling ts).toList) = ts.map fun t => (t.kind, t.text.toList) := by
  induction ts with
  | nil =>
    have hnil : (spelling []).toList = [] := rfl
    rw [hnil, lexemes_nil]
    rfl
  | cons t ts ih =>
    obtain ⟨ht, hts⟩ := List.forall_mem_cons.1 h
    rw [toList_spelling_cons, code_append_of_isOfType ht (head_gap_append hts), code_gap_append,
      ih hts, List.map_cons]

/-- **A spelled type is cut into its tokens again.** -/
theorem stream_spelling (h : ∀ t ∈ ts, t.IsOfType) :
    (Token.stream (spelling ts).toList).map Token.unplaced =
      ts.map Token.unplaced ++ [(.finish, "")] := by
  rw [map_unplaced_stream, code_spelling h, List.map_map]
  refine congrArg (· ++ _) (List.map_congr_left fun t _ => ?_)
  simp [unplaced]

/-- Different tokens are spelled differently. -/
theorem map_unplaced_of_spelling_eq (hts : ∀ t ∈ ts, t.IsOfType) (hus : ∀ t ∈ us, t.IsOfType)
    (h : spelling ts = spelling us) : ts.map Token.unplaced = us.map Token.unplaced := by
  have hstream := stream_spelling hts
  rw [h, stream_spelling hus] at hstream
  exact (List.append_cancel_right hstream).symm

end

namespace MemberSite

variable {source source' : List Char} {s s' : MemberSite} {m m' : Member}

/-- The type of a member is spelled from its tokens. -/
theorem type_of_member? (h : s.member? source = some m) : m.type = spelling s.typeTokens := by
  rw [member?, Member.ofCode?_eq, Option.bind_eq_some_iff] at h
  obtain ⟨parts, hparts, h⟩ := h
  obtain ⟨name, -, h⟩ := Option.bind_eq_some_iff.1 h
  rw [Option.ite_none_right_eq_some] at h
  rw [typeTokens, hparts, ← Option.some.inj h.2]
  rfl

/-- **Members of the same type** have the same tokens of it. -/
theorem map_unplaced_of_type_eq (h : s.member? source = some m)
    (h' : s'.member? source' = some m') (hs : ∀ t ∈ s.typeTokens, t.IsOfType)
    (hs' : ∀ t ∈ s'.typeTokens, t.IsOfType) (htype : m.type = m'.type) :
    s.typeTokens.map Token.unplaced = s'.typeTokens.map Token.unplaced := by
  rw [type_of_member? h, type_of_member? h'] at htype
  exact map_unplaced_of_spelling_eq hs hs' htype

end MemberSite

end RowMapping
