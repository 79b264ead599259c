import RowMapping.Proofs.UnbrokenNames
/-!
# Derived table names

The table of a class without a table of its own is named by the words of the class name.  For a name
of the program, what becomes of each character is told by the characters next to it.

* `clusters_of_isNamePart`: every character of such a name is a cluster of its own;
* `startsWord`, `underscored`: where a word starts, and the derived name character by character;
* `takesOut_boundary`: the boundaries behind a character of such a name;
* `tableName_eq_underscored`: the derived name of such a name;
* `exists_underscored_append`: what stands for two neighbours;
* `tableName_of_isNamePart`: the derived name keeps all letters and digits in order, is derived from
  itself, and has an underscore just where a word starts.
-/

namespace RowMapping

open Text

/-! ### Characters of a name -/

namespace Text

variable {c : Char} {cs : List Char}

/-- What holds of the characters with small codes holds of every character of a name. -/
theorem of_isNamePart {p : Char → Prop}
    (hp : ∀ n < 128, isNamePart (Char.ofNat n) = true → p (Char.ofNat n))
    (h : isNamePart c = true) : p c := by
  have hc := hp c.toNat (lt_of_isNamePart h)
  rw [Char.ofNat_toNat] at hc
  exact hc h

/-- A character of a name is no sign and no mark, and it does not join others. -/
theorem plain_of_isNamePart (h : isNamePart c = true) : isControl c = false ∧ isMark c = false ∧
    isLead c = false ∧ isPictograph c = false :=
  of_isNamePart (p := fun c => isControl c = false ∧ isMark c = false ∧ isLead c = false ∧
    isPictograph c = false) (by decide) h

theorem lowerForm_of_isNamePart (h : isNamePart c = true) : lowerForm c = [c.toLower] :=
  of_isNamePart (p := fun c => lowerForm c = [c.toLower]) (by decide) h

theorem toLower_ne_underscore_iff (h : isNamePart c = true) : c.toLower ≠ '_' ↔ c ≠ '_' :=
  of_isNamePart (p := fun c => c.toLower ≠ '_' ↔ c ≠ '_') (by decide) h

/-- A character of a name that is no capital is its own lower-case form. -/
theorem toLower_of_isUpper_eq_false (h : isNamePart c = true) (hc : c.isUpper = false) :
    c.toLower = c :=
  of_isNamePart (p := fun c => c.isUpper = false → c.toLower = c) (by decide) h hc

theorem isUpper_toLower (h : isNamePart c = true) : c.toLower.isUpper = false :=
  of_isNamePart (p := fun c => c.toLower.isUpper = false) (by decide) h

/-- The characters of a name. -/
theorem cases_of_isNamePart (h : isNamePart c = true) :
    c.toLower.isLower = true ∨ c.toLower.isDigit = true ∨ c.toLower = '_' :=
  of_isNamePart (p := fun c => c.toLower.isLower = true ∨ c.toLower.isDigit = true ∨
    c.toLower = '_') (by decide) h

/-- Every character of a name is a cluster of its own. -/
theorem clusters_of_isNamePart (h : ∀ c ∈ cs, isNamePart c = true) :
    clusters cs = cs.map fun c => [c] := by
  have hfrom : clustersFrom false cs = cs.map fun c => [c] := by
    induction cs with
    | nil => rfl
    | cons c cs ih =>
      obtain ⟨hc, hcs⟩ := List.forall_mem_cons.1 h
      obtain ⟨hcontrol, -, hlead, hpicture⟩ := plain_of_isNamePart hc
      unfold clustersFrom
      rw [hpicture, Bool.false_or, Bool.false_and, ih hcs]
      cases cs with
      | nil => rfl
      | cons d cs =>
        obtain ⟨hcontrol', hmark, -, -⟩ := plain_of_isNamePart (hcs d List.mem_cons_self)
        have hsame : sameCluster false c d = false := by
          simp [sameCluster, hcontrol, hcontrol', hmark, hlead]
        simp [hsame]
  exact hfrom

theorem lowerCaseFrom_of_isNamePart (h : ∀ c ∈ cs, isNamePart c = true) (before : List Char) :
    lowerCaseFrom before cs = cs.map Char.toLower := by
  induction cs generalizing before with
  | nil => rfl
  | cons c cs ih =>
    obtain ⟨hc, hcs⟩ := List.forall_mem_cons.1 h
    have hsigma : c ≠ 'Σ' := by
      rintro rfl
      cases hc
    rw [lowerCaseFrom, if_neg hsigma, lowerForm_of_isNamePart hc, ih hcs]
    rfl

end Text

/-! ### The derived name, character by character -/

namespace Name

variable {a b c d : Char} {cs front back : List Char}

/-- A word starts behind `a`: at a capital behind a small letter or a digit, and at a capital behind
a capital when a small letter follows. -/
def startsWord (a : Char) : List Char → Bool
  | [] => false
  | b :: rest => b.isUpper && (a.isLower || a.isDigit || (a.isUpper && rest.head?.any Char.isLower))

/-- The characters of a name in lower case, with an underscore in front of each word but the
first. -/
def underscored : List Char → List Char
  | [] => []
  | c :: cs => c.toLower :: (if startsWord c cs then '_' :: underscored cs else underscored cs)

/-- The kinds of a cluster of one character of a name. -/
theorem kinds_of_isNamePart (h : isNamePart c = true) : isCapital [c] = c.isUpper ∧
    isSmall [c] = c.isLower ∧ isNumeral [c] = c.isDigit :=
  of_isNamePart (p := fun c => isCapital [c] = c.isUpper ∧ isSmall [c] = c.isLower ∧
    isNumeral [c] = c.isDigit) (by decide) h

/-- Where none of the boundaries takes a cluster out, it only counts whether one is there. -/
theorem takesOut_find? {boundaries : List Boundary} (h : ∀ b ∈ boundaries, b.takesOut = false)
    (p : Boundary → Bool) :
    (boundaries.find? p).map Boundary.takesOut =
      if boundaries.any p then some false else none := by
  cases hfind : boundaries.find? p with
  | none =>
    have hany : boundaries.any p = false := by simpa using hfind
    rw [hany]
    rfl
  | some b =>
    have hb := List.mem_of_find?_eq_some hfind
    rw [if_pos (List.any_eq_true.2 ⟨b, hb, List.find?_some hfind⟩), Option.map_some, h b hb]

/-- The other boundaries of table names are where a word of a name starts. -/
theorem any_isAt_map (hc : isNamePart c = true) (h : ∀ d ∈ cs, isNamePart d = true) :
    ([.lowerUpper, .digitUpper, .acronym] : List Boundary).any
      (fun b => b.isAt ([c] :: cs.map fun d => [d])) = startsWord c cs := by
  obtain ⟨hcapital, hsmall, hnumeral⟩ := kinds_of_isNamePart hc
  cases cs with
  | nil => rfl
  | cons d cs =>
    obtain ⟨hd, hcs⟩ := List.forall_mem_cons.1 h
    have hupper := (kinds_of_isNamePart hd).1
    cases cs with
    | nil =>
      simp only [List.any_cons, List.any_nil, List.map_cons, List.map_nil, Boundary.isAt, startsWord,
        hsmall, hnumeral, hupper]
      cases d.isUpper <;> simp
    | cons a cs =>
      have hlower := (kinds_of_isNamePart (hcs a List.mem_cons_self)).2.1
      simp only [List.any_cons, List.any_nil, List.map_cons, Boundary.isAt, startsWord, hcapital,
        hsmall, hnumeral, hupper, hlower]
      cases d.isUpper <;> simp [Bool.or_assoc]

/-- What ends a word behind a character of a name: an underscore, which is taken out, or the start
of a word. -/
theorem takesOut_boundary (hc : isNamePart c = true) (h : ∀ d ∈ cs, isNamePart d = true) :
    (tableNameBoundaries.find? fun b => b.isAt ([c] :: cs.map fun d => [d])).map Boundary.takesOut =
      if c = '_' then some true else if startsWord c cs then some false else none := by
  by_cases hunderscore : c = '_'
  · subst hunderscore
    rfl
  · have hfirst : ¬Boundary.underscore.isAt ([c] :: cs.map fun d => [d]) = true := by
      simpa [Boundary.isAt] using hunderscore
    have hrest : (tableNameBoundaries.find? fun b => b.isAt ([c] :: cs.map fun d => [d])) =
        ([.lowerUpper, .digitUpper, .acronym] : List Boundary).find?
          fun b => b.isAt ([c] :: cs.map fun d => [d]) := List.find?_cons_of_neg hfirst
    rw [if_neg hunderscore, ← any_isAt_map hc h, hrest, takesOut_find? (by decide)]

theorem startsWord_underscore (cs : List Char) : startsWord '_' cs = false := by
  cases cs with
  | nil => rfl
  | cons d cs => simp [startsWord]

/-- Words with underscores between them, in lower case. -/
def joined (ws : List (List Char)) : List Char := ['_'].intercalate (ws.map (List.map Char.toLower))

theorem joined_nil_cons (w : List Char) (ws : List (List Char)) :
    joined ([] :: w :: ws) = '_' :: joined (w :: ws) := by
  rw [joined, List.map_cons, List.map_cons, List.intercalate_cons_cons]
  rfl

theorem joined_append_cons (c : Char) (w : List Char) (ws : List (List Char)) :
    joined (([c] ++ w) :: ws) = c.toLower :: joined (w :: ws) := by
  rw [joined, joined, List.map_cons, List.map_cons]
  cases ws with
  | nil => simp
  | cons v ws =>
    rw [List.map_cons, List.intercalate_cons_cons, List.intercalate_cons_cons]
    rfl

theorem splitWords_ne_nil (boundaries : List Boundary) (gs : List (List Char)) :
    splitWords boundaries gs ≠ [] := by
  cases gs with
  | nil => exact List.cons_ne_nil _ _
  | cons g rest =>
    rw [splitWords]
    split
    · exact List.cons_ne_nil _ _
    · split <;> exact List.cons_ne_nil _ _

/-- The words of a name, joined by underscores. -/
theorem joined_splitWords (h : ∀ c ∈ cs, isNamePart c = true) :
    joined (splitWords tableNameBoundaries (cs.map fun c => [c])) = underscored cs := by
  induction cs with
  | nil => rfl
  | cons c cs ih =>
    obtain ⟨hc, hcs⟩ := List.forall_mem_cons.1 h
    obtain ⟨w, ws, hwords⟩ :=
      List.exists_cons_of_ne_nil (splitWords_ne_nil tableNameBoundaries (cs.map fun c => [c]))
    have hboundary := takesOut_boundary hc hcs
    have ih := ih hcs
    rw [List.map_cons, splitWords, underscored, ← ih, hwords]
    by_cases hunderscore : c = '_'
    · subst hunderscore
      obtain ⟨b, hb, htakes⟩ := Option.map_eq_some_iff.1 hboundary
      rw [hb, startsWord_underscore]
      simp only [htakes, if_true, joined_nil_cons]
      rfl
    · rw [if_neg hunderscore] at hboundary
      split at hboundary
      · next hstart =>
        obtain ⟨b, hb, htakes⟩ := Option.map_eq_some_iff.1 hboundary
        rw [hb, if_pos hstart, ← joined_nil_cons, ← joined_append_cons]
        simp only [htakes]
        rfl
      · next hstart =>
        rw [Option.map_eq_none_iff.1 hboundary, if_neg hstart]
        exact joined_append_cons c w ws

/-- The derived name of a name of the program. -/
theorem tableName_eq_underscored {name : String} (h : ∀ c ∈ name.toList, isNamePart c = true) :
    (tableName name).toList = underscored name.toList := by
  have hwords : (splitWords tableNameBoundaries (clusters name.toList)).map lowerCase =
      (splitWords tableNameBoundaries (clusters name.toList)).map (List.map Char.toLower) := by
    refine List.map_congr_left fun w hw => lowerCaseFrom_of_isNamePart (fun d hd => ?_) []
    obtain ⟨g, hg, hd⟩ := exists_mem_of_mem_splitWords hw hd
    refine h d ?_
    rw [← flatten_clusters name.toList]
    exact List.mem_flatten_of_mem hg hd
  rw [← joined_splitWords h, joined, ← clusters_of_isNamePart h, ← hwords, tableName,
    String.toList_intercalate, List.map_map]
  simp [Function.comp_def]

/-! ### What the derived name keeps -/

theorem mem_underscored (hd : d ∈ underscored cs) : d = '_' ∨ ∃ c ∈ cs, d = c.toLower := by
  induction cs with
  | nil => cases hd
  | cons c cs ih =>
    have hlater : d ∈ underscored cs → d = '_' ∨ ∃ c' ∈ c :: cs, d = c'.toLower := fun hd =>
      (ih hd).imp_right fun ⟨c', hc', heq⟩ => ⟨c', List.mem_cons_of_mem c hc', heq⟩
    rw [underscored] at hd
    rcases List.mem_cons.1 hd with rfl | hd
    · exact .inr ⟨c, List.mem_cons_self, rfl⟩
    · split at hd
      · exact (List.mem_cons.1 hd).elim .inl hlater
      · exact hlater hd

/-- Without its underscores, the derived name is the name without its underscores in lower case. -/
theorem filter_underscored (h : ∀ c ∈ cs, isNamePart c = true) :
    (underscored cs).filter (· ≠ '_') = (cs.filter (· ≠ '_')).map Char.toLower := by
  induction cs with
  | nil => rfl
  | cons c cs ih =>
    obtain ⟨hc, hcs⟩ := List.forall_mem_cons.1 h
    have hrest : (if startsWord c cs then '_' :: underscored cs else underscored cs).filter
        (· ≠ '_') = (cs.filter (· ≠ '_')).map Char.toLower := by
      rw [← ih hcs]
      split <;> simp
    have hhead := toLower_ne_underscore_iff hc
    rw [underscored, List.filter_cons, hrest, List.filter_cons]
    by_cases hunderscore : c = '_' <;> simp [hunderscore, hhead]

/-- A name without capitals is its own derived name. -/
theorem underscored_eq_self (h : ∀ c ∈ cs, isNamePart c = true ∧ c.isUpper = false) :
    underscored cs = cs := by
  induction cs with
  | nil => rfl
  | cons c cs ih =>
    obtain ⟨⟨hc, hupper⟩, hcs⟩ := List.forall_mem_cons.1 h
    have hstart : startsWord c cs = false := by
      cases cs with
      | nil => rfl
      | cons d cs => rw [startsWord, (hcs d List.mem_cons_self).2, Bool.false_and]
    rw [underscored, hstart, toLower_of_isUpper_eq_false hc hupper, ih hcs]
    rfl

theorem isUpper_of_mem_underscored (h : ∀ c ∈ cs, isNamePart c = true) (hd : d ∈ underscored cs) :
    d.isUpper = false := by
  obtain rfl | ⟨c, hc, rfl⟩ := mem_underscored hd
  · rfl
  · exact isUpper_toLower (h c hc)

/-- What stands for two neighbours of a name, and between them. -/
theorem exists_underscored_append (h : ∀ c ∈ front ++ a :: b :: back, isNamePart c = true) :
    ∃ x y, underscored (front ++ a :: b :: back) = x ++ a.toLower ::
        ((if startsWord a (b :: back) then ['_'] else []) ++ b.toLower :: y) ∧
      x.filter (· ≠ '_') = (front.filter (· ≠ '_')).map Char.toLower ∧
      y.filter (· ≠ '_') = (back.filter (· ≠ '_')).map Char.toLower := by
  induction front with
  | nil =>
    have hback : ∀ c ∈ back, isNamePart c = true := fun c hc => h c (by simp [hc])
    refine ⟨[], if startsWord b back then '_' :: underscored back else underscored back, ?_, rfl,
      ?_⟩
    · rw [List.nil_append, underscored, underscored]
      split <;> rfl
    · rw [← filter_underscored hback]
      split <;> simp
  | cons c front ih =>
    obtain ⟨hc, hrest⟩ := List.forall_mem_cons.1 h
    obtain ⟨x, y, hname, hx, hy⟩ := ih hrest
    have hhead := toLower_ne_underscore_iff hc
    refine ⟨c.toLower :: ((if startsWord c (front ++ a :: b :: back) then ['_'] else []) ++ x), y,
      ?_, ?_, hy⟩
    · rw [List.cons_append, underscored, hname]
      split <;> simp
    · have hgap : (if startsWord c (front ++ a :: b :: back) then ['_'] else []).filter
          (· ≠ '_') = [] := by
        split <;> rfl
      rw [List.filter_cons, List.filter_append, hgap, List.nil_append, hx, List.filter_cons]
      by_cases hunderscore : c = '_' <;> simp [hunderscore, hhead]

theorem startsWord_cons_iff : startsWord a (b :: back) = true ↔
    b.isUpper = true ∧ (a.isLower = true ∨ a.isDigit = true) ∨
      a.isUpper = true ∧ b.isUpper = true ∧ ∃ c ∈ back.head?, c.isLower = true := by
  cases back with
  | nil => simp [startsWord]
  | cons c back =>
    simp only [startsWord, Bool.and_eq_true, Bool.or_eq_true, List.head?_cons, Option.any_some,
      Option.mem_some_iff, exists_eq_left']
    tauto

/-- **The derived name of a table.**  What is derived from a name of the program holds small
letters, digits and underscores only.  Without underscores it is the name without underscores in
lower case, so no character is lost and none changes its place.  It is derived from itself.  Between
two neighbours of the name an underscore is put just when the second is a capital and the first a
small letter or a digit, or both are capitals and a small letter follows; so none is put in front of
a digit. -/
theorem tableName_of_isNamePart {name : String} (h : ∀ c ∈ name.toList, isNamePart c = true) :
    (∀ c ∈ (tableName name).toList, c.isLower = true ∨ c.isDigit = true ∨ c = '_') ∧
      (tableName name).toList.filter (· ≠ '_') =
        (name.toList.filter (· ≠ '_')).map Char.toLower ∧
      tableName (tableName name) = tableName name ∧
      ∀ front a b back, name.toList = front ++ a :: b :: back → ∃ x gap y,
        (tableName name).toList = x ++ a.toLower :: (gap ++ b.toLower :: y) ∧
        x.filter (· ≠ '_') = (front.filter (· ≠ '_')).map Char.toLower ∧
        y.filter (· ≠ '_') = (back.filter (· ≠ '_')).map Char.toLower ∧
        (gap = [] ∨ gap = ['_']) ∧
        (gap = ['_'] ↔ b.isUpper = true ∧ (a.isLower = true ∨ a.isDigit = true) ∨
          a.isUpper = true ∧ b.isUpper = true ∧ ∃ c ∈ back.head?, c.isLower = true) ∧
        (b.isDigit = true → gap = []) := by
  have hname := tableName_eq_underscored h
  refine ⟨fun c hc => ?_, ?_, ?_, fun front a b back hsplit => ?_⟩
  · rw [hname] at hc
    obtain rfl | ⟨d, hd, rfl⟩ := mem_underscored hc
    · exact .inr (.inr rfl)
    · exact cases_of_isNamePart (h d hd)
  · rw [hname, filter_underscored h]
  · have hself := isNamePart_tableName h
    refine String.toList_inj.1 ?_
    rw [tableName_eq_underscored hself]
    refine underscored_eq_self fun c hc => ⟨hself c hc, ?_⟩
    rw [hname] at hc
    exact isUpper_of_mem_underscored h hc
  · rw [hsplit] at h
    obtain ⟨x, y, hparts, hx, hy⟩ := exists_underscored_append h
    rw [hname, hsplit]
    refine ⟨x, _, y, hparts, hx, hy, ?_, ?_, fun hdigit => ?_⟩
    · split <;> simp
    · rw [← startsWord_cons_iff]
      split <;> simp [*]
    · have hupper : b.isUpper = false := by
        have hb := h b (by simp)
        exact of_isNamePart (p := fun c => c.isDigit = true → c.isUpper = false) (by decide) hb
          hdigit
      rw [startsWord, hupper]
      rfl

/-- In a name with a run of capitals and a digit, the last capital of the run starts a word, and the
digit starts none. -/
theorem tableName_of_isNamePart_server :
    (∀ c ∈ "HTTPServer2Go_v".toList, isNamePart c = true) ∧
      tableName "http_server2_go_v" = "http_server2_go_v" ∧
      (∃ x gap y, "http_server2_go_v".toList = x ++ 'p' :: (gap ++ 's' :: y) ∧
        x.filter (· ≠ '_') = "htt".toList ∧ y.filter (· ≠ '_') = "erver2gov".toList ∧ gap = ['_']) ∧
      ∃ x gap y, "http_server2_go_v".toList = x ++ 'r' :: (gap ++ '2' :: y) ∧
        x.filter (· ≠ '_') = "httpserve".toList ∧ y.filter (· ≠ '_') = "gov".toList ∧ gap = [] := by
  have hparts : ∀ c ∈ "HTTPServer2Go_v".toList, isNamePart c = true :=
    List.all_eq_true.1 (by decide)
  have hname : tableName "HTTPServer2Go_v" = "http_server2_go_v" := by decide +kernel
  obtain ⟨-, -, hself, hgaps⟩ := tableName_of_isNamePart hparts
  rw [hname] at hself hgaps
  obtain ⟨x, gap, y, htext, hx, hy, -, hgap, -⟩ :=
    hgaps "HTT".toList 'P' 'S' "erver2Go_v".toList rfl
  have hcapitals : 'S'.isUpper = true ∧ ('P'.isLower = true ∨ 'P'.isDigit = true) ∨
      'P'.isUpper = true ∧ 'S'.isUpper = true ∧
        ∃ c ∈ "erver2Go_v".toList.head?, c.isLower = true :=
    .inr ⟨by decide, by decide, 'e', rfl, by decide⟩
  obtain ⟨x', gap', y', htext', hx', hy', -, -, hdigit⟩ :=
    hgaps "HTTPServe".toList 'r' '2' "Go_v".toList rfl
  exact ⟨hparts, hself, ⟨x, gap, y, htext, hx, hy, hgap.2 hcapitals⟩,
    x', gap', y', htext', hx', hy', hdigit rfl⟩

end Name

end RowMapping
