import RowMapping.Proofs.Layout
/-!
# Comments that are laid out from their words

A comment with the words of an annotation is read as this annotation, with a single blank between
the words.

* `TagWord.trim_spread`: words behind blanks are words between blanks, up to the blanks at the ends;
* `ClassForm.ofComment?_tagComment`: the annotation in front of a class;
* `MemberForm.memberText?_commentText`: the tags behind a member.
-/

namespace RowMapping

open Text

/-! ### Blanks at the ends -/

section

variable {cs : List Char}

theorem trimStart_eq_self (h : ∀ d ∈ cs.head?, isBlank d = false) : trimStart cs = cs := by
  cases cs with
  | nil => rfl
  | cons c cs => simp [trimStart, h c rfl]

theorem trim_eq_self (hhead : ∀ d ∈ cs.head?, isBlank d = false)
    (hlast : ∀ d ∈ cs.getLast?, isBlank d = false) : trim cs = cs := by
  have hreverse : ∀ d ∈ cs.reverse.head?, isBlank d = false := by
    rwa [List.head?_reverse]
  rw [trim, trimStart_eq_self hhead, trimStart_eq_self hreverse, List.reverse_reverse]

end

/-! ### Words -/

namespace TagWord

variable {w : TagWord} {ws : List TagWord}

theorem not_isBlank (w : TagWord) : ∀ d ∈ w.text, isBlank d = false := fun d hd => by
  have hall := (Bool.and_eq_true_iff.1 w.valid).2
  simpa using List.all_eq_true.1 hall d hd

theorem text_ne_nil (w : TagWord) : w.text ≠ [] := by
  have hne := (Bool.and_eq_true_iff.1 w.valid).1
  simpa using hne

theorem spread_cons (w : TagWord) (ws : List TagWord) :
    spread (w :: ws) = ' ' :: (w.text ++ spread ws) := rfl

theorem joined_cons (w : TagWord) (ws : List TagWord) : joined (w :: ws) = w.text ++ spread ws := by
  induction ws generalizing w with
  | nil => simp [joined, spread]
  | cons v ws ih =>
    have hnext := ih v
    rw [joined, List.map_cons] at hnext ⊢
    rw [List.map_cons, List.intercalate_cons_cons, hnext, spread_cons, List.append_assoc]
    rfl

/-- A text with words behind it ends with a character that is not blank. -/
theorem isBlank_getLast_spread {cs : List Char} (ws : List TagWord)
    (hcs : ∀ d ∈ cs.getLast?, isBlank d = false) :
    ∀ d ∈ (cs ++ spread ws).getLast?, isBlank d = false := by
  induction ws generalizing cs with
  | nil => rwa [spread, List.flatMap_nil, List.append_nil]
  | cons w ws ih =>
    have hword : ∀ d ∈ (cs ++ ' ' :: w.text).getLast?, isBlank d = false := by
      rw [← List.singleton_append, ← List.append_assoc,
        List.getLast?_append_of_ne_nil _ w.text_ne_nil]
      exact fun d hd => w.not_isBlank d (List.mem_of_getLast? hd)
    have htext : cs ++ spread (w :: ws) = (cs ++ ' ' :: w.text) ++ spread ws := by
      simp [spread_cons]
    rw [htext]
    exact ih hword

theorem newline_not_mem_spread (ws : List TagWord) : '\n' ∉ spread ws := by
  intro h
  obtain ⟨w, -, hw⟩ := List.mem_flatMap.1 h
  rcases List.mem_cons.1 hw with h | h
  · exact absurd h (by decide)
  · exact absurd (w.not_isBlank _ h) (by decide)

theorem isBlank_head_joined (ws : List TagWord) : ∀ d ∈ (joined ws).head?, isBlank d = false := by
  cases ws with
  | nil => rintro _ ⟨⟩
  | cons w ws =>
    obtain ⟨c, cs, hw⟩ := List.exists_cons_of_ne_nil w.text_ne_nil
    rw [joined_cons, hw]
    rintro _ ⟨⟩
    exact w.not_isBlank c (by rw [hw]; exact List.mem_cons_self)

theorem isBlank_getLast_joined (ws : List TagWord) :
    ∀ d ∈ (joined ws).getLast?, isBlank d = false := by
  cases ws with
  | nil => rintro _ ⟨⟩
  | cons w ws =>
    rw [joined_cons]
    exact isBlank_getLast_spread ws fun d hd => w.not_isBlank d (List.mem_of_getLast? hd)

theorem trim_joined (ws : List TagWord) : trim (joined ws) = joined ws :=
  trim_eq_self (isBlank_head_joined ws) (isBlank_getLast_joined ws)

theorem trimStart_spread (ws : List TagWord) : trimStart (spread ws) = joined ws := by
  cases ws with
  | nil => rfl
  | cons w ws =>
    have hblank : isBlank ' ' = true := rfl
    have hhead := isBlank_head_joined (w :: ws)
    rw [spread_cons, trimStart, List.dropWhile_cons_of_pos hblank, ← joined_cons]
    exact trimStart_eq_self hhead

/-- Words behind blanks are words between blanks, without the blank in front. -/
theorem trim_spread (ws : List TagWord) : trim (spread ws) = joined ws := by
  have hreverse := trim_joined ws
  rw [trim, trimStart_eq_self (isBlank_head_joined ws)] at hreverse
  rw [trim, trimStart_spread, hreverse]

theorem newline_not_mem_joined (ws : List TagWord) : '\n' ∉ joined ws := by
  rw [← trimStart_spread]
  exact fun h => newline_not_mem_spread ws ((List.dropWhile_sublist _).subset h)

/-- Nothing stands behind the marker, or a blank. -/
theorem content?_spread (ws : List TagWord) : TagLine.content? (spread ws) = some (joined ws) := by
  cases ws with
  | nil => rfl
  | cons w ws =>
    have hblank : isBlank ' ' = true := rfl
    have hline : (joined (w :: ws)).contains '\n' = false := by
      simpa using newline_not_mem_joined (w :: ws)
    have htrim := trimStart_spread (w :: ws)
    rw [spread_cons] at htrim ⊢
    rw [TagLine.content?]
    simp only [htrim, hblank, hline, trim_joined]
    rfl

end TagWord

/-! ### Comments -/

namespace ClassForm

open TagWord

theorem newline_not_mem_tagComment (isList : Bool) (ws : List TagWord) :
    '\n' ∉ tagComment isList ws := by
  have hmarker : '\n' ∉ ' ' :: (marker ++ if isList then "_list".toList else []) := by
    cases isList <;> decide
  rw [tagComment, ← List.cons_append, List.mem_append]
  exact fun h => h.elim hmarker (newline_not_mem_spread ws)

/-- The comment in front of a class is an annotation. -/
theorem ofComment?_tagComment (isList : Bool) (ws : List TagWord) :
    TagLine.ofComment? ('/' :: '/' :: tagComment isList ws) = some ⟨isList, joined ws⟩ := by
  have hlast : ∀ d ∈ ('/' :: '/' :: tagComment isList ws).getLast?, isBlank d = false := by
    have hmarker : ∀ d ∈ ('/' :: '/' :: ' ' ::
        (marker ++ if isList then "_list".toList else [])).getLast?, isBlank d = false := by
      cases isList <;> rintro _ ⟨⟩ <;> rfl
    have htext : '/' :: '/' :: tagComment isList ws = ('/' :: '/' :: ' ' ::
        (marker ++ if isList then "_list".toList else [])) ++ spread ws := rfl
    rw [htext]
    exact isBlank_getLast_spread ws hmarker
  have htrim : trim ('/' :: '/' :: tagComment isList ws) = '/' :: '/' :: tagComment isList ws :=
    trim_eq_self (by rintro _ ⟨⟩; rfl) hlast
  have hslashes : "//".toList.isPrefixOf? ('/' :: '/' :: tagComment isList ws) =
      some (tagComment isList ws) := isPrefixOf?_append "//".toList _
  have hstart : trimStart (tagComment isList ws) =
      marker ++ ((if isList then "_list".toList else []) ++ spread ws) := by
    rw [tagComment, List.append_assoc]
    rfl
  rw [TagLine.ofComment?, htrim, hslashes]
  simp only [hstart, isPrefixOf?_append]
  cases isList with
  | true =>
    have hlist : "_list".toList.isPrefixOf? ("_list".toList ++ spread ws) = some (spread ws) :=
      isPrefixOf?_append _ _
    simp only [if_true, hlist, content?_spread]
    rfl
  | false =>
    have hnone : "_list".toList.isPrefixOf? (spread ws) = none := by
      cases ws <;> rfl
    have hempty : (if false = true then "_list".toList else []) ++ spread ws = spread ws := rfl
    simp only [hempty, hnone, content?_spread]
    rfl

end ClassForm

namespace MemberForm

open TagWord

theorem newline_not_mem_commentText (ws : List TagWord) : '\n' ∉ commentText ws := by
  have hmarker : '\n' ∉ ' ' :: marker := by decide
  rw [commentText, ← List.cons_append, List.mem_append]
  exact fun h => h.elim hmarker (newline_not_mem_spread ws)

/-- The tags in the comment behind a member. -/
theorem memberText?_commentText (ws : List TagWord) :
    memberText? ('/' :: '/' :: commentText ws) = some (joined ws) := by
  have hboundary : ((spread ws).head?.map isWord).getD false = false := by
    cases ws <;> rfl
  have hmarker : memberText? (marker ++ spread ws) = some (joined ws) := by
    have hcons : marker ++ spread ws = '@' :: ("relais".toList ++ spread ws) := rfl
    rw [hcons, memberText?, ← hcons, isPrefixOf?_append]
    simp only [hboundary, trim_spread]
    rfl
  rw [← hmarker, commentText]
  rfl

end MemberForm

end RowMapping
