import Mathlib.Data.List.Infix
import RowMapping.Mapping.Decode
/-!
# References to columns

The code that reads a column names it as an enumerator, behind `Col::`.  The same characters can
also come from the header, as part of a type or of an enumerator, so a text is looked through for
every place where they stand.

* `columnMark`: what a reference starts with;
* `Refers`: behind a mark stands a name; `LiesIn`: the mark belongs to a copied text;
* `Faithful`: one of the two holds at every place;
* `Woven`, `Woven.faithful`: texts between fixed frames are looked through one by one;
* `ReadStep.woven_lines`, `ReadStep.exists_reference`: the code that reads a column.
-/

namespace RowMapping.Mapping

open Text

/-- What a reference to a column starts with. -/
def columnMark : List Char := "Col::".toList

/-- What stands behind a mark makes it a reference to the column of a name. -/
def Refers (name : String) (after : List Char) : Prop := name.toList ++ [')'] <+: after

/-- The mark between `before` and `after` belongs to a copy of a text. -/
def LiesIn (text before after : List Char) : Prop :=
  ∃ a b, a <:+ before ∧ b <+: after ∧ text = a ++ (columnMark ++ b)

/-- Every mark in a line starts a reference to the column of a name, or belongs to a copied
text. -/
def Faithful (name : String) (copied : List String) (line : List Char) : Prop :=
  ∀ before after, line = before ++ (columnMark ++ after) →
    Refers name after ∨ ∃ text ∈ copied, LiesIn text.toList before after

/-! ### Places in a text of two parts -/

/-- A place in a text of two parts lies in the first part, in the second, or across both. -/
theorem place_cases {xs ys before mid after : List Char}
    (h : xs ++ ys = before ++ (mid ++ after)) :
    (∃ rest, xs = before ++ (mid ++ rest) ∧ after = rest ++ ys) ∨
    (∃ front, ys = front ++ (mid ++ after) ∧ before = xs ++ front) ∨
    ∃ p q, p ≠ [] ∧ q ≠ [] ∧ mid = p ++ q ∧ xs = before ++ p ∧ ys = q ++ after := by
  rcases List.append_eq_append_iff.1 h with ⟨front, rfl, rfl⟩ | ⟨p, rfl, hp⟩
  · exact .inr (.inl ⟨front, rfl, rfl⟩)
  rcases List.append_eq_append_iff.1 hp with ⟨rest, rfl, rfl⟩ | ⟨q, rfl, rfl⟩
  · exact .inl ⟨rest, rfl, rfl⟩
  -- a place with nothing of it on one side lies in the other part
  by_cases hpe : p = []
  · subst hpe
    exact .inr (.inl ⟨[], by simp⟩)
  by_cases hqe : q = []
  · subst hqe
    exact .inl ⟨[], by simp⟩
  · exact .inr (.inr ⟨p, q, hpe, hqe, rfl, rfl, rfl⟩)

section Faithful

variable {name : String} {copied : List String} {xs ys : List Char}

/-- Two parts can be looked through one by one when no mark stands across both. -/
theorem Faithful.append (hx : Faithful name copied xs) (hy : Faithful name copied ys)
    (hacross : ∀ p q, p ≠ [] → q ≠ [] → columnMark = p ++ q → ¬(p <:+ xs ∧ q <+: ys)) :
    Faithful name copied (xs ++ ys) := by
  intro before after h
  rcases place_cases h with ⟨rest, hxs, rfl⟩ | ⟨front, hys, rfl⟩ | ⟨p, q, hp, hq, hm, hxs, hys⟩
  · rcases hx before rest hxs with href | ⟨text, htext, a, b, ha, hb, hcopy⟩
    · exact .inl (href.trans (List.prefix_append _ _))
    · exact .inr ⟨text, htext, a, b, ha, hb.trans (List.prefix_append _ _), hcopy⟩
  · rcases hy front after hys with href | ⟨text, htext, a, b, ha, hb, hcopy⟩
    · exact .inl href
    · exact .inr ⟨text, htext, a, b, ha.trans (List.suffix_append _ _), hb, hcopy⟩
  · exact absurd ⟨⟨before, hxs.symm⟩, ⟨after, hys.symm⟩⟩ (hacross p q hp hq hm)

/-- No mark stands across two parts when the first ends in a character that it lacks. -/
theorem Faithful.append_of_last (hx : Faithful name copied xs) (hy : Faithful name copied ys)
    (hlast : ∃ c ∈ xs.getLast?, c ∉ columnMark) : Faithful name copied (xs ++ ys) := by
  refine hx.append hy fun p q hp _ hm ⟨hpx, _⟩ => ?_
  obtain ⟨c, hc, hcm⟩ := hlast
  have hcp : c ∈ p.getLast? := by
    obtain ⟨front, rfl⟩ := hpx
    rwa [List.getLast?_append_of_ne_nil _ hp] at hc
  exact hcm (hm ▸ List.mem_append_left q (List.mem_of_mem_getLast? hcp))

/-- No mark stands across two parts when the second begins with a character that it lacks. -/
theorem Faithful.append_of_head (hx : Faithful name copied xs) (hy : Faithful name copied ys)
    (hhead : ∃ c ∈ ys.head?, c ∉ columnMark) : Faithful name copied (xs ++ ys) := by
  refine hx.append hy fun p q _ hq hm ⟨_, hqy⟩ => ?_
  obtain ⟨c, hc, hcm⟩ := hhead
  have hcq : c ∈ q.head? := by
    obtain ⟨rest, rfl⟩ := hqy
    rwa [List.head?_append_of_ne_nil _ hq] at hc
  exact hcm (hm ▸ List.mem_append_right p (List.mem_of_mem_head? hcq))

/-! ### Single parts -/

theorem faithful_of_unmarked (h : ¬columnMark <:+: xs) : Faithful name copied xs := by
  rintro before after rfl
  exact absurd ⟨before, after, by simp⟩ h

theorem faithful_of_not_mem (h : ':' ∉ xs) : Faithful name copied xs :=
  faithful_of_unmarked fun hm => h (hm.subset (by decide))

theorem faithful_copied {text : String} (h : text ∈ copied) :
    Faithful name copied text.toList := by
  intro before after htext
  exact .inr ⟨text, h, before, after, List.suffix_rfl, List.prefix_rfl, htext⟩

/-- A reference holds no mark but its own. -/
theorem faithful_reference (h : ':' ∉ name.toList) :
    Faithful name copied (columnMark ++ (name.toList ++ [')'])) := by
  have hrest : ':' ∉ name.toList ++ [')'] := by simp [h]
  intro before after hplace
  rcases place_cases hplace with ⟨rest, hm, rfl⟩ | ⟨front, hfront, -⟩ | ⟨p, q, -, hq, hm, -, hafter⟩
  · obtain rfl : rest = [] := by
      have hlength := congrArg List.length hm
      simp only [List.length_append] at hlength
      exact List.eq_nil_of_length_eq_zero (by omega)
    exact .inl List.prefix_rfl
  · have hcolon : ':' ∈ front ++ (columnMark ++ after) :=
      List.mem_append_right front (List.mem_append_left after (by decide))
    exact absurd (hfront ▸ hcolon) hrest
  · -- the mark ends in a colon, so its second half puts one into the name
    have hlast : (p ++ q).getLast? = some ':' := by rw [← hm]; rfl
    rw [List.getLast?_append_of_ne_nil _ hq] at hlast
    have hcolon : ':' ∈ q ++ after := List.mem_append_left _ (List.mem_of_mem_getLast? hlast)
    exact absurd (hafter ▸ hcolon) hrest

/-! ### Texts between fixed frames -/

/-- A text holds no mark, and neither begins nor ends in one of its characters. -/
def IsFrame (text : List Char) : Prop :=
  ¬columnMark <:+: text ∧ (∃ c ∈ text.head?, c ∉ columnMark) ∧ ∃ c ∈ text.getLast?, c ∉ columnMark

instance : DecidablePred IsFrame := fun text =>
  decidable_of_iff (¬columnMark <:+: text ∧ text.head?.any (fun c => !columnMark.contains c) ∧
      text.getLast?.any fun c => !columnMark.contains c) <| by
    simp [IsFrame, Option.any_eq_true]

/-- A frame that is spelled out need not be decoded. -/
theorem isFrame_ofList {text : List Char} (h : IsFrame text) :
    IsFrame (String.ofList text).toList := by
  rwa [String.toList_ofList]

/-- A line of fixed frames with other texts between them, where a reference comes last. -/
inductive Woven (name : String) (copied : List String) : List Char → Prop
  | frame {text : String} (h : IsFrame text.toList) : Woven name copied text.toList
  | reference (front post : String) {first last : String}
      (h : first.toList = front.toList ++ columnMark ∧ last.toList = ')' :: post.toList ∧
        IsFrame front.toList ∧ IsFrame post.toList) :
      Woven name copied (first.toList ++ (name.toList ++ last.toList))
  | text {first : String} {text rest : List Char} (hfirst : IsFrame first.toList)
      (htext : Faithful name copied text) (hrest : Woven name copied rest) :
      Woven name copied (first.toList ++ (text ++ rest))

theorem Woven.head? {line : List Char} (h : Woven name copied line) :
    ∃ c ∈ line.head?, c ∉ columnMark := by
  cases h with
  | frame h => exact h.2.1
  | reference front post h =>
    obtain ⟨hfirst, -, hfront, -⟩ := h
    obtain ⟨c, hc, hcm⟩ := hfront.2.1
    rw [hfirst, List.append_assoc]
    exact ⟨c, List.mem_head?_append_of_mem_head? hc, hcm⟩
  | text hfirst =>
    obtain ⟨c, hc, hcm⟩ := hfirst.2.1
    exact ⟨c, List.mem_head?_append_of_mem_head? hc, hcm⟩

/-- The texts between fixed frames can be looked through one by one. -/
theorem Woven.faithful {line : List Char} (hname : ':' ∉ name.toList)
    (h : Woven name copied line) : Faithful name copied line := by
  induction h with
  | frame h => exact faithful_of_unmarked h.1
  | @reference front post first last h =>
    obtain ⟨hfirst, hlast, hfront, hpost⟩ := h
    -- the frames around the name hold the mark and the parenthesis of the reference
    have hline : first.toList ++ (name.toList ++ last.toList) =
        front.toList ++ (columnMark ++ (name.toList ++ [')']) ++ post.toList) := by
      simp [hfirst, hlast]
    rw [hline]
    exact (faithful_of_unmarked hfront.1).append_of_last
      ((faithful_reference hname).append_of_last (faithful_of_unmarked hpost.1)
        ⟨')', by simp, by decide⟩) hfront.2.2
  | text hfirst htext hrest ih =>
    exact (faithful_of_unmarked hfirst.1).append_of_last
      (htext.append_of_head ih hrest.head?) hfirst.2.2

end Faithful

/-! ### The code that reads a column -/

namespace ReadStep

/-- The texts of the header that a step copies: the type of the value, or what is compared with the
column and the enumerators that are taken. -/
def copied : ReadStep → List String
  | value _ type | valueOrNull _ type => [type]
  | choice _ type pairs | choiceOrNull _ type pairs =>
    pairs.flatMap fun p => [quote p.external, s!"{type}::{p.enumerator}"]
  | json _ | jsonOrNull _ | text _ => []

theorem woven_choiceLine {keyword m type : String} {copied : List String} {p : EnumPair}
    (hm : ':' ∉ m.toList) (hkeyword : IsFrame (s!"            {keyword} (s == ").toList)
    (hexternal : quote p.external ∈ copied) (henumerator : s!"{type}::{p.enumerator}" ∈ copied) :
    Woven m copied (choiceLine keyword m type p).toList := by
  have hline : (choiceLine keyword m type p).toList =
      (s!"            {keyword} (s == ").toList ++ ((quote p.external).toList ++
        (") e.".toList ++ (m.toList ++ (" = ".toList ++
          ((s!"{type}::{p.enumerator}").toList ++ ";".toList))))) := by
    unfold choiceLine
    simp only [String.toList_append, List.append_assoc]
    rfl
  rw [hline]
  exact .text hkeyword (faithful_copied hexternal) <|
    .text (isFrame_ofList (by decide)) (faithful_of_not_mem hm) <|
    .text (isFrame_ofList (by decide)) (faithful_copied henumerator) <|
    .frame (isFrame_ofList (by decide))

/-- The comparisons of a chain copy the texts of their own pairs. -/
theorem woven_choiceLines {m type : String} {pairs : List EnumPair} (hm : ':' ∉ m.toList) :
    ∀ line ∈ choiceLines m type pairs, Woven m (copied (.choice m type pairs)) line.toList := by
  have hcopied : ∀ p ∈ pairs, ∀ text ∈ [quote p.external, s!"{type}::{p.enumerator}"],
      text ∈ copied (.choice m type pairs) := fun p hp text htext =>
    List.mem_flatMap.2 ⟨p, hp, htext⟩
  intro line hline
  cases pairs with
  | nil => cases hline
  | cons p ps =>
    rw [choiceLines, List.mem_cons, List.mem_map] at hline
    rcases hline with rfl | ⟨q, hq, rfl⟩
    · have hp := hcopied p List.mem_cons_self
      exact woven_choiceLine hm (by decide) (hp _ (by simp)) (hp _ (by simp))
    · have hq := hcopied q (List.mem_cons_of_mem p hq)
      exact woven_choiceLine hm (by decide) (hq _ (by simp)) (hq _ (by simp))

theorem woven_isNull (m : String) (copied : List String) :
    Woven m copied (s!"        if (!row.isNull(Col::{m})) \x7b").toList := by
  simp only [String.toList_append, List.append_assoc]
  exact .reference "        if (!row.isNull(" ") \x7b" (by decide +kernel)

theorem woven_getText (m : String) (copied : List String) :
    Woven m copied (s!"            auto s = row.get<std::string>(Col::{m});").toList := by
  simp only [String.toList_append, List.append_assoc]
  exact .reference "            auto s = row.get<std::string>(" ";" (by decide +kernel)

/-- The lines of a step are woven of fixed frames, its member, references to it, and copies. -/
theorem woven_lines (s : ReadStep) (h : ':' ∉ s.member.toList) :
    ∀ line ∈ s.lines, Woven s.member s.copied line.toList := by
  have hm : ∀ copied, Faithful s.member copied s.member.toList := fun _ => faithful_of_not_mem h
  intro line hline
  cases s with
  | json m =>
    rw [lines, List.mem_singleton] at hline
    subst hline
    simp only [String.toList_append, List.append_assoc]
    exact .text (isFrame_ofList (by decide)) (hm _) <|
      .reference ", row.get<std::string>(" ");" (by decide +kernel)
  | text m =>
    rw [lines, List.mem_singleton] at hline
    subst hline
    simp only [String.toList_append, List.append_assoc]
    exact .text (isFrame_ofList (by decide)) (hm _) <|
      .reference ".str = row.get<std::string>(" ";" (by decide +kernel)
  | value m type | valueOrNull m type =>
    have htype : Faithful m [type] type.toList := faithful_copied List.mem_cons_self
    rw [lines, List.mem_singleton] at hline
    subst hline
    simp only [String.toList_append, List.append_assoc]
    exact .text (isFrame_ofList (by decide)) (hm _) <| .text (isFrame_ofList (by decide)) htype <|
      .reference ">(" ";" (by decide +kernel)
  | jsonOrNull m =>
    simp only [lines, List.mem_cons, List.not_mem_nil, or_false] at hline
    rcases hline with rfl | rfl | rfl | rfl | rfl | rfl | rfl | rfl
    · exact woven_isNull m _
    · simp only [String.toList_append, List.append_assoc]
      exact .reference "            auto json_str = row.get<std::string>(" ";" (by decide +kernel)
    · exact .frame (isFrame_ofList (by decide))
    · simp only [String.toList_append, List.append_assoc]
      exact .text (isFrame_ofList (by decide)) (hm _) (.frame (isFrame_ofList (by decide)))
    · exact .frame (isFrame_ofList (by decide))
    · simp only [String.toList_append, List.append_assoc]
      exact .text (isFrame_ofList (by decide)) (hm _) (.frame (isFrame_ofList (by decide)))
    · exact .frame (isFrame_ofList (by decide))
    · exact .frame (isFrame_ofList (by decide))
  | choice m type pairs =>
    simp only [lines, List.mem_cons, List.cons_append, List.mem_append, List.not_mem_nil,
      or_false] at hline
    rcases hline with rfl | rfl | hline | rfl
    · exact .frame (isFrame_ofList (by decide))
    · exact woven_getText m _
    · exact woven_choiceLines h line hline
    · exact .frame (isFrame_ofList (by decide))
  | choiceOrNull m type pairs =>
    simp only [lines, List.mem_cons, List.cons_append, List.mem_append, List.not_mem_nil,
      or_false] at hline
    rcases hline with rfl | rfl | hline | rfl
    · exact woven_isNull m _
    · exact woven_getText m _
    · exact woven_choiceLines h line hline
    · exact .frame (isFrame_ofList (by decide))

theorem reference_infix {first last : String} (front post name : String)
    (h : first.toList = front.toList ++ columnMark ∧ last.toList = ')' :: post.toList) :
    columnMark ++ (name.toList ++ [')']) <:+: first.toList ++ (name.toList ++ last.toList) :=
  ⟨front.toList, post.toList, by simp [h]⟩

/-- A step reads the column of its own member. -/
theorem exists_reference (s : ReadStep) :
    ∃ line ∈ s.lines, columnMark ++ (s.member.toList ++ [')']) <:+: line.toList := by
  cases s with
  | json m =>
    refine ⟨_, List.mem_cons_self, ?_⟩
    simp only [String.toList_append, List.append_assoc]
    refine List.infix_append_of_infix_right (List.infix_append_of_infix_right ?_)
    exact reference_infix ", row.get<std::string>(" ");" m (by decide +kernel)
  | text m =>
    refine ⟨_, List.mem_cons_self, ?_⟩
    simp only [String.toList_append, List.append_assoc]
    refine List.infix_append_of_infix_right (List.infix_append_of_infix_right ?_)
    exact reference_infix ".str = row.get<std::string>(" ";" m (by decide +kernel)
  | value m type | valueOrNull m type =>
    refine ⟨_, List.mem_cons_self, ?_⟩
    simp only [String.toList_append, List.append_assoc]
    refine List.infix_append_of_infix_right (List.infix_append_of_infix_right ?_)
    refine List.infix_append_of_infix_right (List.infix_append_of_infix_right ?_)
    exact reference_infix ">(" ";" m (by decide +kernel)
  | jsonOrNull m | choiceOrNull m type pairs =>
    refine ⟨_, List.mem_cons_self, ?_⟩
    simp only [String.toList_append, List.append_assoc]
    exact reference_infix "        if (!row.isNull(" ") \x7b" m (by decide +kernel)
  | choice m type pairs =>
    refine ⟨_, List.mem_cons_of_mem _ List.mem_cons_self, ?_⟩
    simp only [String.toList_append, List.append_assoc]
    exact reference_infix "            auto s = row.get<std::string>(" ";" m (by decide +kernel)

end ReadStep

end RowMapping.Mapping
