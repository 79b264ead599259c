/-!
# Finding one text inside another

* `splitFirst?`: the text before and after the first occurrence of a text, if there is one;
* `occursIn`: there is an occurrence;
* `afterLast`: the text after the last occurrence.

Main statements: `isPrefixOf?_eq_some_iff`, what remains behind a beginning; `eq_of_splitFirst?`,
nothing is lost by a split; `toList_append_of_eq`, the characters of a text that is spelled out.
-/

namespace RowMapping.Text

/-- The text before the first occurrence of `p` and the text after it. -/
def splitFirst? (p : List Char) : List Char → Option (List Char × List Char)
  | [] => if p.isEmpty then some ([], []) else none
  | c :: cs =>
    match p.isPrefixOf? (c :: cs) with
    | some rest => some ([], rest)
    | none => (splitFirst? p cs).map fun (before, after) => (c :: before, after)

/-- The text `p` occurs in `cs`. -/
def occursIn (p cs : List Char) : Bool := (splitFirst? p cs).isSome

/-- The text after the last occurrence of `p`, or all of it when there is none. -/
def afterLast (p cs : List Char) : List Char :=
  match splitFirst? p.reverse cs.reverse with
  | some (after, _) => after.reverse
  | none => cs

theorem nil_isPrefixOf? (cs : List Char) : [].isPrefixOf? cs = some cs := rfl

theorem cons_isPrefixOf?_nil (a : Char) (p : List Char) : (a :: p).isPrefixOf? [] = none := rfl

theorem cons_isPrefixOf?_cons (a c : Char) (p cs : List Char) :
    (a :: p).isPrefixOf? (c :: cs) = if a == c then p.isPrefixOf? cs else none := rfl

/-- What remains behind a beginning is what was put behind it. -/
theorem isPrefixOf?_eq_some_iff {p cs rest : List Char} :
    p.isPrefixOf? cs = some rest ↔ cs = p ++ rest := by
  induction p generalizing cs with
  | nil => simp [nil_isPrefixOf?]
  | cons a p ih =>
    cases cs with
    | nil => simp [cons_isPrefixOf?_nil]
    | cons c cs =>
      rw [cons_isPrefixOf?_cons]
      by_cases h : a = c
      · simp [h, ih]
      · simp [h, Ne.symm h]

theorem isPrefixOf?_append (p rest : List Char) : p.isPrefixOf? (p ++ rest) = some rest :=
  isPrefixOf?_eq_some_iff.2 rfl

/-- A split puts the text together again. -/
theorem eq_of_splitFirst? {p cs before after : List Char}
    (h : splitFirst? p cs = some (before, after)) : cs = before ++ p ++ after := by
  induction cs generalizing before with
  | nil =>
    simp only [splitFirst?] at h
    split at h
    · rename_i hp
      simp only [Option.some.injEq, Prod.mk.injEq] at h
      obtain ⟨rfl, rfl⟩ := h
      simpa using hp
    · simp at h
  | cons c cs ih =>
    simp only [splitFirst?] at h
    split at h
    · rename_i rest hrest
      simp only [Option.some.injEq, Prod.mk.injEq] at h
      obtain ⟨rfl, rfl⟩ := h
      simpa using isPrefixOf?_eq_some_iff.1 hrest
    · obtain ⟨⟨b, a⟩, hba, heq⟩ := Option.map_eq_some_iff.1 h
      simp only [Prod.mk.injEq] at heq
      obtain ⟨rfl, rfl⟩ := heq
      simpa using ih hba

/-- The characters of a text, from those of its parts.  A part that is spelled out has its own by
`String.toList_ofList`, which is faster than to decode it. -/
theorem toList_append_of_eq {a b : String} {cs ds : List Char} (ha : a.toList = cs)
    (hb : b.toList = ds) : (a ++ b).toList = cs ++ ds := by
  rw [String.toList_append, ha, hb]

end RowMapping.Text
