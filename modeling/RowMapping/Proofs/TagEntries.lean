import RowMapping.Proofs.Lexing
import RowMapping.Tag.MemberTags
/-!
# Tags of a member, written and read

The tags of a member are written as words: one for each flag, one for the column, one or several
for the enum pairs, one for each filter and each sort key.  In whatever order these kinds stand
among each other, reading the words gives the tags again.

* `TagEntry`, `TagEntry.text`, `TagEntry.tags`: what one word says, the word, and the tags that it
  gives;
* `Writes`: entries that say together what tags say, each kind in its own order;
* `MemberTags.IsWritable`: tags that can be told from their words;
* `words_intercalate`: words with blanks between them are cut into these words;
* `MemberTags.add_ofText`, `MemberTags.foldl_add_ofText`: one word, and all words;
* `SameTags`, `Shorthand`: words that say the same, and a filter or sort word that says the same as
  a longer one;
* `MemberTags.read_written`: tags are read back from their words.
-/

namespace RowMapping

open Text

/-! ### Words -/

/-- A word: one or more characters that are not blank. -/
def IsWord (w : List Char) : Prop := w ≠ [] ∧ ∀ d ∈ w, isBlank d = false

section

variable {v w : List Char} {ws : List (List Char)}

theorem isWord_of_all (h : (!w.isEmpty && w.all fun d => !isBlank d) = true) : IsWord w := by
  simpa [IsWord] using h

theorem IsWord.append (hw : IsWord w) (hv : ∀ d ∈ v, isBlank d = false) : IsWord (w ++ v) :=
  ⟨List.append_ne_nil_of_left_ne_nil hw.1 v, List.forall_mem_append.2 ⟨hw.2, hv⟩⟩

theorem IsWord.words_self (hw : IsWord w) : words w = [w] := by
  rw [words, List.splitOnP_eq_singleton hw.2]
  simpa using hw.1

theorem IsWord.words_append (hw : IsWord w) (cs : List Char) :
    words (w ++ ' ' :: cs) = w :: words cs := by
  rw [words, List.splitOnP_append_cons_of_forall_mem hw.2 ' ' rfl, List.filter_cons_of_pos]
  · rfl
  · simpa using hw.1

/-- Words with blanks between them are cut into these words. -/
theorem words_intercalate (h : ∀ w ∈ ws, IsWord w) : words ([' '].intercalate ws) = ws := by
  induction ws with
  | nil => rfl
  | cons w ws ih =>
    have hw := h w List.mem_cons_self
    cases ws with
    | nil => rw [List.intercalate_singleton, hw.words_self]
    | cons v ws =>
      rw [List.intercalate_cons_cons, List.append_assoc, List.singleton_append, hw.words_append,
        ih fun u hu => h u (List.mem_cons_of_mem w hu)]

end

/-! ### Entries -/

/-- The fragment of a pair. -/
def EnumPair.text (p : EnumPair) : List Char := p.external.toList ++ ':' :: p.enumerator.toList

/-- A word with fragments of enum pairs. -/
def enumWord (fragments : List (List Char)) : List Char :=
  "enum=".toList ++ [','].intercalate fragments

/-- What one word behind a member says. -/
inductive TagEntry
  | flag (flag : MemberFlag)
  | column (name : String)
  | pairs (pairs : List EnumPair)
  | filter (filter : Filter)
  | sort (key : SortKey)
  deriving DecidableEq, Repr

namespace TagEntry

/-- The word of an entry. -/
def text : TagEntry → List Char
  | flag f => f.word.toList
  | column name => "column=".toList ++ name.toList
  | pairs ps => enumWord (ps.map EnumPair.text)
  | filter f => "filterable".toList ++ ':' :: (f.param.toList ++ ':' :: f.op.name.toList)
  | sort k => "sortable".toList ++ ':' :: (k.param.toList ++ ':' :: k.direction.name.toList)

/-- What an entry says. -/
def tags : TagEntry → MemberTags
  | flag f => { flags := [f] }
  | column name => { column := some name }
  | pairs ps => { pairs := ps }
  | filter f => { filters := [f] }
  | sort k => { sorts := [k] }

end TagEntry

/-- The entries say what the tags say, each kind in its own order. -/
structure Writes (es : List TagEntry) (tags : MemberTags) : Prop where
  flags : es.flatMap (fun e => e.tags.flags) = tags.flags
  column : es.filterMap (fun e => e.tags.column) = tags.column.toList
  pairs : es.flatMap (fun e => e.tags.pairs) = tags.pairs
  filters : es.flatMap (fun e => e.tags.filters) = tags.filters
  sorts : es.flatMap (fun e => e.tags.sorts) = tags.sorts

/-- The text can be part of a word: it holds no blank and no character that ends the part. -/
def IsPart (ends : List Char) (text : String) : Prop :=
  ∀ d ∈ text.toList, isBlank d = false ∧ d ∉ ends

instance (ends : List Char) : DecidablePred (IsPart ends) := fun text =>
  List.decidableBAll (fun d => isBlank d = false ∧ d ∉ ends) text.toList

/-- The flags with a word of their own. -/
def MemberFlag.reserved : List MemberFlag :=
  [primaryKey, partitionKey, dbManaged, timestamp, rawJson, jsonField, autoEnum]

/-- The word is an unknown flag: it is no reserved word and not read as anything else. -/
structure IsOtherWord (word : String) : Prop where
  ne_empty : word ≠ ""
  part : IsPart [] word
  not_reserved : word ∉ MemberFlag.reserved.map MemberFlag.word
  not_pairs : ¬"enum=".toList <+: word.toList
  not_column : ¬"column=".toList <+: word.toList
  not_filter : word.toList.takeWhile (· != ':') ≠ "filterable".toList
  not_sort : word.toList.takeWhile (· != ':') ≠ "sortable".toList

instance : DecidablePred IsOtherWord := fun word =>
  decidable_of_iff (word ≠ "" ∧ IsPart [] word ∧ word ∉ MemberFlag.reserved.map MemberFlag.word ∧
    ¬"enum=".toList <+: word.toList ∧ ¬"column=".toList <+: word.toList ∧
    word.toList.takeWhile (· != ':') ≠ "filterable".toList ∧
    word.toList.takeWhile (· != ':') ≠ "sortable".toList)
    ⟨fun ⟨h₁, h₂, h₃, h₄, h₅, h₆, h₇⟩ => ⟨h₁, h₂, h₃, h₄, h₅, h₆, h₇⟩,
      fun ⟨h₁, h₂, h₃, h₄, h₅, h₆, h₇⟩ => ⟨h₁, h₂, h₃, h₄, h₅, h₆, h₇⟩⟩

/-- The flag can be told from its word. -/
def MemberFlag.IsWritable : MemberFlag → Prop
  | other word => IsOtherWord word
  | _ => True

instance : DecidablePred MemberFlag.IsWritable
  | .other word => inferInstanceAs (Decidable (IsOtherWord word))
  | .primaryKey | .partitionKey | .dbManaged | .timestamp | .rawJson | .jsonField | .autoEnum =>
    inferInstanceAs (Decidable True)

/-- The parts of the pair can be told from its fragment. -/
def EnumPair.IsWritable (p : EnumPair) : Prop :=
  IsPart [',', ':'] p.external ∧ IsPart [',', ':'] p.enumerator

instance : DecidablePred EnumPair.IsWritable := fun _ => inferInstanceAs (Decidable (_ ∧ _))

/-- The filter is on `field` and can be told from its word. -/
def Filter.IsWritable (field : String) (f : Filter) : Prop := f.field = field ∧ IsPart [':'] f.param

instance (field : String) : DecidablePred (Filter.IsWritable field) := fun _ =>
  inferInstanceAs (Decidable (_ ∧ _))

/-- The sort key is on `field` and can be told from its word. -/
def SortKey.IsWritable (field : String) (k : SortKey) : Prop :=
  k.field = field ∧ IsPart [':'] k.param

instance (field : String) : DecidablePred (SortKey.IsWritable field) := fun _ =>
  inferInstanceAs (Decidable (_ ∧ _))

/-- Tags on the member `field` that can be told from their words. -/
structure MemberTags.IsWritable (field : String) (tags : MemberTags) : Prop where
  nodup : tags.flags.Nodup
  flags : ∀ f ∈ tags.flags, f.IsWritable
  column : ∀ name ∈ tags.column, IsPart [] name
  pairs : ∀ p ∈ tags.pairs, p.IsWritable
  filters : ∀ f ∈ tags.filters, f.IsWritable field
  sorts : ∀ k ∈ tags.sorts, k.IsWritable field

/-- The entry can be told from its word. -/
def TagEntry.IsWritable (field : String) : TagEntry → Prop
  | flag f => f.IsWritable
  | column name => IsPart [] name
  | pairs ps => ∀ p ∈ ps, p.IsWritable
  | filter f => f.IsWritable field
  | sort k => k.IsWritable field

/-! ### Parts of words -/

section

variable {cs word x y : List Char} {p : EnumPair} {field : String}

theorem IsPart.not_mem {ends : List Char} {text : String} {d : Char} (h : IsPart ends text)
    (hd : d ∈ ends) : d ∉ text.toList := fun hmem => (h d hmem).2 hd

theorem splitOn_two (hx : ':' ∉ x) (hy : ':' ∉ y) : (x ++ ':' :: y).splitOn ':' = [x, y] := by
  rw [List.splitOn_append_cons_self_of_not_mem hx, List.splitOn_eq_singleton hy]

theorem splitOn_three (hword : ':' ∉ word) (hx : ':' ∉ x) (hy : ':' ∉ y) :
    (word ++ ':' :: (x ++ ':' :: y)).splitOn ':' = [word, x, y] := by
  rw [List.splitOn_append_cons_self_of_not_mem hword, splitOn_two hx hy]

theorem EnumPair.ofFragment?_text (hp : p.IsWritable) : ofFragment? p.text = some p := by
  have hexternal : ':' ∉ p.external.toList := hp.1.not_mem (by simp)
  have henumerator : ':' ∉ p.enumerator.toList := hp.2.not_mem (by simp)
  rw [ofFragment?, text, splitOn_two hexternal henumerator]
  simp

/-- A fragment that has not exactly two parts gives no pair. -/
theorem EnumPair.ofFragment?_of_length (h : (cs.splitOn ':').length ≠ 2) :
    ofFragment? cs = none := by
  rw [ofFragment?]
  split
  · rename_i hsplit
    exact absurd (congrArg List.length hsplit) h
  · rfl

theorem EnumPair.listOf_intercalate {fragments : List (List Char)}
    (h : ∀ f ∈ fragments, ',' ∉ f) :
    listOf ([','].intercalate fragments) = fragments.filterMap ofFragment? := by
  cases fragments with
  | nil => rfl
  | cons f fragments => rw [listOf, List.splitOn_intercalate ',' h (List.cons_ne_nil f fragments)]

theorem EnumPair.comma_not_mem_text (hp : p.IsWritable) : ',' ∉ p.text := by
  have hexternal : ',' ∉ p.external.toList := hp.1.not_mem (by simp)
  have henumerator : ',' ∉ p.enumerator.toList := hp.2.not_mem (by simp)
  simp [text, hexternal, henumerator]

/-- Pairs that are written are read back. -/
theorem EnumPair.listOf_map_text {ps : List EnumPair} (h : ∀ p ∈ ps, p.IsWritable) :
    listOf ([','].intercalate (ps.map text)) = ps := by
  have hcomma : ∀ f ∈ ps.map text, ',' ∉ f := by
    intro f hf
    obtain ⟨p, hp, rfl⟩ := List.mem_map.1 hf
    exact comma_not_mem_text (h p hp)
  have hread : ∀ p ∈ ps, (ofFragment? ∘ text) p = some p := fun p hp => ofFragment?_text (h p hp)
  rw [listOf_intercalate hcomma, List.filterMap_map, List.filterMap_congr hread]
  exact List.filterMap_some

theorem Filter.ofTag_alone (field : String) (hword : ':' ∉ word) :
    ofTag field word = ⟨field, field, .eq⟩ := by
  rw [ofTag, List.splitOn_eq_singleton hword]
  rfl

/-- A filter word with two parts. -/
theorem Filter.ofTag_two (field : String) (hword : ':' ∉ word) (hx : ':' ∉ x) :
    ofTag field (word ++ ':' :: x) = match FilterOp.ofName? (String.ofList x) with
      | some op => ⟨field, field, op⟩
      | none => ⟨String.ofList x, field, .eq⟩ := by
  rw [ofTag, splitOn_two hword hx]
  rfl

/-- A filter word with three parts. -/
theorem Filter.ofTag_three (field : String) (hword : ':' ∉ word) (hx : ':' ∉ x) (hy : ':' ∉ y) :
    ofTag field (word ++ ':' :: (x ++ ':' :: y)) =
      ⟨String.ofList x, field, (FilterOp.ofName? (String.ofList y)).getD .eq⟩ := by
  rw [ofTag, splitOn_three hword hx hy]
  rfl

theorem SortKey.ofTag_alone (field : String) (hword : ':' ∉ word) :
    ofTag field word = ⟨field, field, .desc⟩ := by
  rw [ofTag, List.splitOn_eq_singleton hword]
  rfl

/-- A sort word with two parts. -/
theorem SortKey.ofTag_two (field : String) (hword : ':' ∉ word) (hx : ':' ∉ x) :
    ofTag field (word ++ ':' :: x) = match Direction.ofName? (String.ofList x) with
      | some direction => ⟨field, field, direction⟩
      | none => ⟨String.ofList x, field, .desc⟩ := by
  rw [ofTag, splitOn_two hword hx]
  rfl

/-- A sort word with three parts. -/
theorem SortKey.ofTag_three (field : String) (hword : ':' ∉ word) (hx : ':' ∉ x) (hy : ':' ∉ y) :
    ofTag field (word ++ ':' :: (x ++ ':' :: y)) =
      ⟨String.ofList x, field, (Direction.ofName? (String.ofList y)).getD .desc⟩ := by
  rw [ofTag, splitOn_three hword hx hy]
  rfl

end

/-! ### The kinds of words -/

namespace MemberTags

section

variable {cs : List Char} {w : String}

theorem Word.ofText_enumWord (fragments : List (List Char)) :
    Word.ofText (enumWord fragments) = .pairs ([','].intercalate fragments) := by
  have henum : ClassTag.value? "enum" (enumWord fragments) = some ([','].intercalate fragments) :=
    isPrefixOf?_append _ _
  rw [Word.ofText, henum]

theorem Word.ofText_column (cs : List Char) :
    Word.ofText ("column=".toList ++ cs) = .column (String.ofList cs) := by
  have henum : ClassTag.value? "enum" ("column=".toList ++ cs) = none := rfl
  have hcolumn : ClassTag.value? "column" ("column=".toList ++ cs) = some cs :=
    isPrefixOf?_append _ _
  rw [Word.ofText, henum, hcolumn]

theorem eq_colon_of_head (cs : List Char) : ∀ d ∈ (':' :: cs).head?, d = ':' := by
  rintro _ ⟨⟩
  rfl

theorem Word.ofText_filter (hcs : ∀ d ∈ cs.head?, d = ':') :
    Word.ofText ("filterable".toList ++ cs) = .filter ("filterable".toList ++ cs) := by
  have henum : ClassTag.value? "enum" ("filterable".toList ++ cs) = none := rfl
  have hcolumn : ClassTag.value? "column" ("filterable".toList ++ cs) = none := rfl
  have hhead : ("filterable".toList ++ cs).takeWhile (· != ':') = "filterable".toList :=
    takeWhile_append_of_stop (by decide) fun d hd => by rw [hcs d hd]; rfl
  rw [Word.ofText, henum, hcolumn, hhead]
  rfl

theorem Word.ofText_sort (hcs : ∀ d ∈ cs.head?, d = ':') :
    Word.ofText ("sortable".toList ++ cs) = .sort ("sortable".toList ++ cs) := by
  have henum : ClassTag.value? "enum" ("sortable".toList ++ cs) = none := rfl
  have hcolumn : ClassTag.value? "column" ("sortable".toList ++ cs) = none := rfl
  have hhead : ("sortable".toList ++ cs).takeWhile (· != ':') = "sortable".toList :=
    takeWhile_append_of_stop (by decide) fun d hd => by rw [hcs d hd]; rfl
  have hother : "sortable".toList ≠ "filterable".toList := by decide
  rw [Word.ofText, henum, hcolumn, hhead, if_neg hother]
  rfl

theorem ofWord_of_not_reserved (h : w ∉ MemberFlag.reserved.map MemberFlag.word) :
    MemberFlag.ofWord w = .other w := by
  unfold MemberFlag.ofWord
  split
  case h_8 => rfl
  all_goals exact absurd (by decide) h

theorem value?_eq_none (key : String) (h : ¬(key ++ "=").toList <+: cs) :
    ClassTag.value? key cs = none := by
  rw [ClassTag.value?, Option.eq_none_iff_forall_ne_some]
  intro rest hrest
  exact h ⟨rest, (isPrefixOf?_eq_some_iff.1 hrest).symm⟩

theorem Word.ofText_flag {f : MemberFlag} (hf : f.IsWritable) :
    Word.ofText f.word.toList = .flag f := by
  cases f with
  | other w =>
    have hw : IsOtherWord w := hf
    show Word.ofText w.toList = .flag (.other w)
    rw [Word.ofText, value?_eq_none "enum" hw.not_pairs, value?_eq_none "column" hw.not_column]
    simp only [hw.not_filter, hw.not_sort, String.ofList_toList,
      ofWord_of_not_reserved hw.not_reserved, if_false]
  | _ => rfl

end

/-! ### One word and all words -/

/-- Tags and what a further word says: the later column counts. -/
def merge (a b : MemberTags) : MemberTags where
  flags := a.flags ++ b.flags
  column := b.column.or a.column
  pairs := a.pairs ++ b.pairs
  filters := a.filters ++ b.filters
  sorts := a.sorts ++ b.sorts

section

variable {field : String} {tags : MemberTags} {es : List TagEntry} {e : TagEntry}

/-- A word adds what its entry says. -/
theorem add_ofText (he : e.IsWritable field) (hflag : ∀ f ∈ e.tags.flags, f ∉ tags.flags) :
    tags.add field (Word.ofText e.text) = tags.merge e.tags := by
  cases e with
  | flag f =>
    have hf : f.IsWritable := he
    have hnew : tags.has f = false := by
      have hmem : f ∉ tags.flags := hflag f List.mem_cons_self
      simpa [has] using hmem
    show tags.add field (Word.ofText f.word.toList) = _
    rw [Word.ofText_flag hf, add, hnew]
    simp [merge, TagEntry.tags]
  | column name =>
    show tags.add field (Word.ofText ("column=".toList ++ name.toList)) = _
    rw [Word.ofText_column, add, String.ofList_toList]
    simp [merge, TagEntry.tags]
  | pairs ps =>
    have hps : ∀ p ∈ ps, p.IsWritable := he
    show tags.add field (Word.ofText (enumWord (ps.map EnumPair.text))) = _
    rw [Word.ofText_enumWord, add, EnumPair.listOf_map_text hps]
    simp [merge, TagEntry.tags]
  | filter f =>
    obtain ⟨rfl, hpart⟩ : f.IsWritable field := he
    have hparam : ':' ∉ f.param.toList := hpart.not_mem (by simp)
    have hop : ':' ∉ f.op.name.toList := by cases f.op <;> decide
    show tags.add f.field (Word.ofText ("filterable".toList ++
      ':' :: (f.param.toList ++ ':' :: f.op.name.toList))) = _
    rw [Word.ofText_filter (eq_colon_of_head _), add,
      Filter.ofTag_three f.field (by decide) hparam hop]
    simp [merge, TagEntry.tags]
  | sort k =>
    obtain ⟨rfl, hpart⟩ : k.IsWritable field := he
    have hparam : ':' ∉ k.param.toList := hpart.not_mem (by simp)
    have hdirection : ':' ∉ k.direction.name.toList := by cases k.direction <;> decide
    show tags.add k.field (Word.ofText ("sortable".toList ++
      ':' :: (k.param.toList ++ ':' :: k.direction.name.toList))) = _
    rw [Word.ofText_sort (eq_colon_of_head _), add,
      SortKey.ofTag_three k.field (by decide) hparam hdirection]
    simp [merge, TagEntry.tags]

/-- Words that are read one after another add what their entries say. -/
theorem foldl_merge (tags : MemberTags) (es : List TagEntry) :
    (es.map TagEntry.tags).foldl merge tags = {
      flags := tags.flags ++ es.flatMap fun e => e.tags.flags
      column := (es.filterMap fun e => e.tags.column).getLast?.or tags.column
      pairs := tags.pairs ++ es.flatMap fun e => e.tags.pairs
      filters := tags.filters ++ es.flatMap fun e => e.tags.filters
      sorts := tags.sorts ++ es.flatMap fun e => e.tags.sorts } := by
  induction es generalizing tags with
  | nil => simp
  | cons e es ih =>
    have hcolumn : (es.filterMap fun e => e.tags.column).getLast?.or
        (e.tags.column.or tags.column) =
        ((e :: es).filterMap fun e => e.tags.column).getLast?.or tags.column := by
      rw [List.filterMap_cons]
      cases e.tags.column with
      | none => rfl
      | some name =>
        rw [List.getLast?_cons]
        cases (es.filterMap fun e => e.tags.column).getLast? <;> rfl
    rw [List.map_cons, List.foldl_cons, ih, ← hcolumn]
    simp [merge]

/-- Words add what their entries say, where each flag is new. -/
theorem foldl_add_ofText (hes : ∀ e ∈ es, e.IsWritable field)
    (hnodup : (tags.flags ++ es.flatMap fun e => e.tags.flags).Nodup) :
    ((es.map TagEntry.text).map Word.ofText).foldl (add field) tags =
      (es.map TagEntry.tags).foldl merge tags := by
  induction es generalizing tags with
  | nil => rfl
  | cons e es ih =>
    rw [List.flatMap_cons, ← List.append_assoc] at hnodup
    have hnew : ∀ f ∈ e.tags.flags, f ∉ tags.flags := fun f he htags =>
      (List.nodup_append.1 (List.nodup_append.1 hnodup).1).2.2 f htags f he rfl
    have hstep := add_ofText (hes e List.mem_cons_self) hnew
    rw [List.map_cons, List.map_cons, List.foldl_cons, hstep, List.map_cons, List.foldl_cons]
    exact ih (fun d hd => hes d (List.mem_cons_of_mem e hd)) hnodup

end

end MemberTags

section

variable {field : String} {tags : MemberTags} {es : List TagEntry} {e : TagEntry}

/-- Entries that write tags can be told from their words when the tags can. -/
theorem Writes.isWritable (hes : Writes es tags) (htags : tags.IsWritable field) (he : e ∈ es) :
    e.IsWritable field := by
  cases e with
  | flag f =>
    refine htags.flags f ?_
    rw [← hes.flags]
    exact List.mem_flatMap.2 ⟨_, he, List.mem_cons_self⟩
  | column name =>
    have hname : name ∈ tags.column.toList := by
      rw [← hes.column]
      exact List.mem_filterMap.2 ⟨_, he, rfl⟩
    exact htags.column name (Option.mem_toList.1 hname)
  | pairs ps =>
    intro p hp
    refine htags.pairs p ?_
    rw [← hes.pairs]
    exact List.mem_flatMap.2 ⟨_, he, hp⟩
  | filter f =>
    refine htags.filters f ?_
    rw [← hes.filters]
    exact List.mem_flatMap.2 ⟨_, he, List.mem_cons_self⟩
  | sort k =>
    refine htags.sorts k ?_
    rw [← hes.sorts]
    exact List.mem_flatMap.2 ⟨_, he, List.mem_cons_self⟩

/-- What entries say together is what they write. -/
theorem Writes.foldl_merge (hes : Writes es tags) :
    (es.map TagEntry.tags).foldl .merge {} = tags := by
  rw [MemberTags.foldl_merge, hes.flags, hes.column, hes.pairs, hes.filters, hes.sorts]
  cases tags with
  | mk flags column pairs filters sorts => cases column <;> simp

theorem Writes.ofText (hes : Writes es tags) (htags : tags.IsWritable field) {text : List Char}
    (htext : words text = es.map TagEntry.text) : MemberTags.ofText field text = tags := by
  have hnodup : ((∅ : List MemberFlag) ++ es.flatMap fun e => e.tags.flags).Nodup := by
    rw [hes.flags]
    exact htags.nodup
  rw [MemberTags.ofText, htext, MemberTags.foldl_add_ofText (fun e he => hes.isWritable htags he)
    hnodup, hes.foldl_merge]

theorem IsPart.not_isBlank {ends : List Char} {text : String} (h : IsPart ends text) :
    ∀ d ∈ text.toList, isBlank d = false := fun d hd => (h d hd).1

/-- The word of an entry is a word. -/
theorem TagEntry.isWord_text (he : e.IsWritable field) : IsWord e.text := by
  cases e with
  | flag f =>
    cases f with
    | other w =>
      have hw : IsOtherWord w := he
      exact ⟨fun h => hw.ne_empty (String.toList_eq_nil_iff.1 h), hw.part.not_isBlank⟩
    | _ => exact isWord_of_all rfl
  | column name =>
    have hname : IsPart [] name := he
    have hkey : IsWord "column=".toList := isWord_of_all rfl
    exact hkey.append hname.not_isBlank
  | pairs ps =>
    have hps : ∀ p ∈ ps, p.IsWritable := he
    have hkey : IsWord "enum=".toList := isWord_of_all rfl
    refine hkey.append fun d hd => ?_
    rcases mem_of_mem_intercalate hd with rfl | hd
    · rfl
    · obtain ⟨_, hf, hd⟩ := List.mem_flatten.1 hd
      obtain ⟨p, hp, rfl⟩ := List.mem_map.1 hf
      obtain ⟨hexternal, henumerator⟩ := hps p hp
      have htext : ∀ d ∈ p.text, isBlank d = false := List.forall_mem_append.2
        ⟨hexternal.not_isBlank, List.forall_mem_cons.2 ⟨rfl, henumerator.not_isBlank⟩⟩
      exact htext d hd
  | filter f =>
    obtain ⟨-, hparam⟩ : f.IsWritable field := he
    have hkey : IsWord "filterable".toList := isWord_of_all rfl
    have hop : IsWord f.op.name.toList := by cases f.op <;> exact isWord_of_all rfl
    exact hkey.append (List.forall_mem_cons.2 ⟨rfl, List.forall_mem_append.2
      ⟨hparam.not_isBlank, List.forall_mem_cons.2 ⟨rfl, hop.2⟩⟩⟩)
  | sort k =>
    obtain ⟨-, hparam⟩ : k.IsWritable field := he
    have hkey : IsWord "sortable".toList := isWord_of_all rfl
    have hdirection : IsWord k.direction.name.toList := by
      cases k.direction <;> exact isWord_of_all rfl
    exact hkey.append (List.forall_mem_cons.2 ⟨rfl, List.forall_mem_append.2
      ⟨hparam.not_isBlank, List.forall_mem_cons.2 ⟨rfl, hdirection.2⟩⟩⟩)

end

/-! ### Words that change nothing, and words that mean the same -/

/-- Texts with these words and with those behind the member `field` say the same. -/
def SameTags (field : String) (ws vs : List (List Char)) : Prop :=
  ∀ a b, words a = ws → words b = vs → MemberTags.ofText field a = MemberTags.ofText field b

/-- A filter or sort word on the member `field`, and the word with three parts that means the
same. -/
inductive Shorthand (field : String) : List Char → List Char → Prop
  | filter : Shorthand field "filterable".toList
      ("filterable".toList ++ ':' :: (field.toList ++ ':' :: FilterOp.eq.name.toList))
  | filterBy {x : List Char} {op : FilterOp} (hx : ':' ∉ x)
      (hop : FilterOp.ofName? (String.ofList x) = some op) :
      Shorthand field ("filterable".toList ++ ':' :: x)
        ("filterable".toList ++ ':' :: (field.toList ++ ':' :: x))
  | filterParam {x : List Char} (hx : ':' ∉ x) (hop : FilterOp.ofName? (String.ofList x) = none) :
      Shorthand field ("filterable".toList ++ ':' :: x)
        ("filterable".toList ++ ':' :: (x ++ ':' :: FilterOp.eq.name.toList))
  | sort : Shorthand field "sortable".toList
      ("sortable".toList ++ ':' :: (field.toList ++ ':' :: Direction.desc.name.toList))
  | sortBy {x : List Char} {d : Direction} (hx : ':' ∉ x)
      (hd : Direction.ofName? (String.ofList x) = some d) :
      Shorthand field ("sortable".toList ++ ':' :: x)
        ("sortable".toList ++ ':' :: (field.toList ++ ':' :: x))
  | sortParam {x : List Char} (hx : ':' ∉ x) (hd : Direction.ofName? (String.ofList x) = none) :
      Shorthand field ("sortable".toList ++ ':' :: x)
        ("sortable".toList ++ ':' :: (x ++ ':' :: Direction.desc.name.toList))

namespace MemberTags

section

variable {field : String} {tags : MemberTags} {short long : List Char} {f : MemberFlag}

/-- Words that do the same to all tags can be put in place of each other. -/
theorem sameTags_of_foldl (front back : List (List Char)) {xs ys : List (List Char)}
    (h : ∀ tags, (xs.map Word.ofText).foldl (add field) tags =
      (ys.map Word.ofText).foldl (add field) tags) :
    SameTags field (front ++ (xs ++ back)) (front ++ (ys ++ back)) := by
  intro a b ha hb
  simp only [ofText, ha, hb, List.map_append, List.foldl_append, h]

theorem sameTags_of_add (front back : List (List Char)) {v w : List Char}
    (h : ∀ tags : MemberTags, tags.add field (Word.ofText v) = tags.add field (Word.ofText w)) :
    SameTags field (front ++ v :: back) (front ++ w :: back) := by
  have hone : ∀ tags, ([v].map Word.ofText).foldl (add field) tags =
      ([w].map Word.ofText).foldl (add field) tags := h
  exact sameTags_of_foldl front back hone

/-- A shorthand and its long word say the same. -/
theorem add_shorthand (h : Shorthand field short long) (hfield : ':' ∉ field.toList) :
    tags.add field (Word.ofText short) = tags.add field (Word.ofText long) := by
  have hfilter : ':' ∉ "filterable".toList := by decide
  have hsort : ':' ∉ "sortable".toList := by decide
  have heq : ':' ∉ FilterOp.eq.name.toList := by decide
  have hdesc : ':' ∉ Direction.desc.name.toList := by decide
  cases h with
  | filter =>
    rw [Word.ofText_filter (eq_colon_of_head _), show Word.ofText "filterable".toList =
      .filter "filterable".toList from rfl, add, add, Filter.ofTag_alone field hfilter,
      Filter.ofTag_three field hfilter hfield heq]
    simp
  | filterBy hx hop =>
    rw [Word.ofText_filter (eq_colon_of_head _), Word.ofText_filter (eq_colon_of_head _), add, add,
      Filter.ofTag_two field hfilter hx, Filter.ofTag_three field hfilter hfield hx, hop]
    simp
  | filterParam hx hop =>
    rw [Word.ofText_filter (eq_colon_of_head _), Word.ofText_filter (eq_colon_of_head _), add, add,
      Filter.ofTag_two field hfilter hx, Filter.ofTag_three field hfilter hx heq, hop]
    simp
  | sort =>
    rw [Word.ofText_sort (eq_colon_of_head _), show Word.ofText "sortable".toList =
      .sort "sortable".toList from rfl, add, add, SortKey.ofTag_alone field hsort,
      SortKey.ofTag_three field hsort hfield hdesc]
    simp
  | sortBy hx hd =>
    rw [Word.ofText_sort (eq_colon_of_head _), Word.ofText_sort (eq_colon_of_head _), add, add,
      SortKey.ofTag_two field hsort hx, SortKey.ofTag_three field hsort hfield hx, hd]
    simp
  | sortParam hx hd =>
    rw [Word.ofText_sort (eq_colon_of_head _), Word.ofText_sort (eq_colon_of_head _), add, add,
      SortKey.ofTag_two field hsort hx, SortKey.ofTag_three field hsort hx hdesc, hd]
    simp

/-- A flag that is set stays set. -/
theorem has_foldl (h : tags.has f = true) (ws : List Word) :
    (ws.foldl (add field) tags).has f = true := by
  induction ws generalizing tags with
  | nil => exact h
  | cons w ws ih =>
    refine ih ?_
    cases w with
    | flag g =>
      rw [add]
      split
      · exact h
      · simp only [has, List.contains_eq_mem, decide_eq_true_eq] at h ⊢
        exact List.mem_append_left _ h
    | _ => exact h

theorem has_add_flag (tags : MemberTags) (field : String) (f : MemberFlag) :
    (tags.add field (.flag f)).has f = true := by
  rw [add]
  split
  · assumption
  · simp [has]

/-- The word of a flag that is set changes nothing. -/
theorem add_flag_of_has (h : tags.has f = true) : tags.add field (.flag f) = tags := if_pos h

/-- A fragment that gives no pair changes nothing. -/
theorem listOf_malformed {fs gs : List (List Char)} {g : List Char}
    (hcomma : ∀ f ∈ fs ++ g :: gs, ',' ∉ f) (hg : (g.splitOn ':').length ≠ 2) :
    EnumPair.listOf ([','].intercalate (fs ++ g :: gs)) =
      EnumPair.listOf ([','].intercalate (fs ++ gs)) := by
  have hless : ∀ f ∈ fs ++ gs, ',' ∉ f := fun f hf => hcomma f (by
    simp only [List.mem_append, List.mem_cons] at hf ⊢
    tauto)
  rw [EnumPair.listOf_intercalate hcomma, EnumPair.listOf_intercalate hless, List.filterMap_append,
    List.filterMap_cons_none (EnumPair.ofFragment?_of_length hg), List.filterMap_append]

end

/-- **Tags are read back from their words.**  The words of entries that write tags, in whatever
order of the kinds among each other, give these tags, however blanks separate the words.  Besides,
on a member whose name has no colon, a fragment of a list of pairs that has not exactly two parts,
and the word of a flag that has been set, change nothing, and a shorthand says the same as its long
word. -/
theorem read_written {field : String} {tags : MemberTags} {es : List TagEntry}
    (hfield : ':' ∉ field.toList) (htags : tags.IsWritable field) (hes : Writes es tags) :
    words ([' '].intercalate (es.map TagEntry.text)) = es.map TagEntry.text ∧
    (∀ text, words text = es.map TagEntry.text → ofText field text = tags) ∧
    (∀ front back fs g gs, (∀ f ∈ fs ++ g :: gs, ',' ∉ f) → (g.splitOn ':').length ≠ 2 →
      SameTags field (front ++ enumWord (fs ++ g :: gs) :: back)
        (front ++ enumWord (fs ++ gs) :: back)) ∧
    (∀ front between back (f : MemberFlag), f.IsWritable →
      SameTags field (front ++ f.word.toList :: (between ++ f.word.toList :: back))
        (front ++ f.word.toList :: (between ++ back))) ∧
    ∀ front back short long, Shorthand field short long →
      SameTags field (front ++ short :: back) (front ++ long :: back) := by
  refine ⟨?_, fun text => hes.ofText htags, ?_, ?_, ?_⟩
  · refine words_intercalate fun w hw => ?_
    obtain ⟨e, he, rfl⟩ := List.mem_map.1 hw
    exact TagEntry.isWord_text (hes.isWritable htags he)
  · intro front back fs g gs hcomma hg
    refine sameTags_of_add front back fun tags => ?_
    rw [Word.ofText_enumWord, Word.ofText_enumWord, add, add, listOf_malformed hcomma hg]
  · intro front between back f hf
    have hrepeat : ∀ tags, ((f.word.toList :: (between ++ [f.word.toList])).map Word.ofText).foldl
        (add field) tags = ((f.word.toList :: between).map Word.ofText).foldl (add field) tags := by
      intro tags
      rw [List.map_cons, List.map_append, List.foldl_cons, List.foldl_append, List.map_singleton,
        List.foldl_cons, List.foldl_nil, List.map_cons, List.foldl_cons, Word.ofText_flag hf]
      exact add_flag_of_has (has_foldl (has_add_flag tags field f) _)
    simpa using sameTags_of_foldl front back hrepeat
  · exact fun front back short long h => sameTags_of_add front back fun tags =>
      add_shorthand h hfield

/-- Tags of each kind on a member, with two lists of pairs. -/
theorem read_written_status :
    ofText "status" ([' '].intercalate ["primary_key".toList, "enum=open:Open,done:Done".toList,
      "custom".toList, "column=state".toList, "filterable:ge:le".toList,
      "sortable:status:asc".toList, "filterable:status:eq".toList, "enum=x:X".toList]) = {
      flags := [.primaryKey, .other "custom"]
      column := some "state"
      pairs := [⟨"open", "Open"⟩, ⟨"done", "Done"⟩, ⟨"x", "X"⟩]
      filters := [⟨"ge", "status", .le⟩, ⟨"status", "status", .eq⟩]
      sorts := [⟨"status", "status", .asc⟩] } := by
  have hes : Writes [.flag .primaryKey, .pairs [⟨"open", "Open"⟩, ⟨"done", "Done"⟩],
      .flag (.other "custom"), .column "state", .filter ⟨"ge", "status", .le⟩,
      .sort ⟨"status", "status", .asc⟩, .filter ⟨"status", "status", .eq⟩, .pairs [⟨"x", "X"⟩]]
      ⟨[.primaryKey, .other "custom"], some "state",
        [⟨"open", "Open"⟩, ⟨"done", "Done"⟩, ⟨"x", "X"⟩],
        [⟨"ge", "status", .le⟩, ⟨"status", "status", .eq⟩], [⟨"status", "status", .asc⟩]⟩ :=
    ⟨rfl, rfl, rfl, rfl, rfl⟩
  have hfield : ':' ∉ "status".toList := by decide
  obtain ⟨hwords, hread, -⟩ := read_written hfield
    ⟨by decide, by decide +kernel, by decide +kernel, by decide +kernel, by decide +kernel,
      by decide +kernel⟩ hes
  exact hread _ hwords

end MemberTags

end RowMapping
