/-!
# Layout of generated code

Generated code is a list of lines.

* `commaLines`: items one to a line, with commas between them;
* `commaLines_eq`, `map_lineItem_commaLines`: each line, and the items that are read back from them;
* `setOff`: lines set off by an empty line, unless there are none.
-/

namespace RowMapping.Mapping

/-- One item to a line at an indentation, with a comma behind all but the last. -/
def commaLines (indent : String) : List String → List String
  | [] => []
  | [item] => [indent ++ item]
  | item :: next :: items => (indent ++ item ++ ",") :: commaLines indent (next :: items)

/-- Lines after an empty line, or nothing when there are no lines. -/
def setOff (lines : List String) : List String := if lines.isEmpty then [] else "" :: lines

variable {indent l : String} {items : List String}

@[simp] theorem length_commaLines (indent : String) (items : List String) :
    (commaLines indent items).length = items.length := by
  fun_induction commaLines indent items <;> simp_all

/-- The line of each item: a comma stands behind it when it is not the last one. -/
theorem commaLines_eq (indent : String) (items : List String) :
    commaLines indent items =
      items.mapIdx fun i item => indent ++ item ++ if i + 1 < items.length then "," else "" := by
  fun_induction commaLines indent items with
  | case1 => rfl
  | case2 item => simp
  | case3 item next items ih => simp [ih]

theorem mem_commaLines (h : l ∈ commaLines indent items) :
    ∃ item ∈ items, l = indent ++ item ∨ l = indent ++ item ++ "," := by
  fun_induction commaLines indent items with
  | case1 => cases h
  | case2 item =>
    rw [List.mem_singleton] at h
    exact ⟨item, List.mem_cons_self, .inl h⟩
  | case3 item next items ih =>
    rcases List.mem_cons.1 h with rfl | h
    · exact ⟨item, List.mem_cons_self, .inr rfl⟩
    · obtain ⟨other, hother, hl⟩ := ih h
      exact ⟨other, List.mem_cons_of_mem _ hother, hl⟩

/-! ### Reading items back -/

/-- A text without a comma at its end. -/
def withoutComma (cs : List Char) : List Char :=
  if cs.getLast? = some ',' then cs.dropLast else cs

/-- The item on a line, without its indentation and without a comma behind it. -/
def lineItem (indent line : String) : String :=
  String.ofList (withoutComma (line.toList.drop indent.length))

theorem drop_indent (indent text : String) :
    (indent ++ text).toList.drop indent.length = text.toList := by
  rw [String.toList_append]
  exact List.drop_left' String.length_toList

theorem lineItem_line {item : String} (h : item.toList.getLast? ≠ some ',') :
    lineItem indent (indent ++ item) = item := by
  rw [lineItem, drop_indent, withoutComma, if_neg h, String.ofList_toList]

theorem lineItem_line_comma (item : String) : lineItem indent (indent ++ item ++ ",") = item := by
  have hcomma : (item ++ ",").toList = item.toList ++ [','] := String.toList_append
  rw [lineItem, String.append_assoc, drop_indent, hcomma, withoutComma,
    if_pos List.getLast?_concat, List.dropLast_concat, String.ofList_toList]

/-- The items are read back from their lines, if none of them ends with a comma. -/
theorem map_lineItem_commaLines (h : ∀ item ∈ items, item.toList.getLast? ≠ some ',') :
    (commaLines indent items).map (lineItem indent) = items := by
  fun_induction commaLines indent items with
  | case1 => rfl
  | case2 item =>
    rw [List.map_singleton, lineItem_line (h item List.mem_cons_self)]
  | case3 item next items ih =>
    rw [List.map_cons, lineItem_line_comma, ih fun i hi => h i (List.mem_cons_of_mem item hi)]

end RowMapping.Mapping
