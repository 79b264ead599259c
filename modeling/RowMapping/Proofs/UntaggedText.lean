import RowMapping.Proofs.Declared
import RowMapping.Proofs.LexemeForm
import RowMapping.Proofs.TagComment
/-!
# Texts without annotations

A text of code, string literals, directives and comments holds no annotation when none of its
comments is one, as long as the code neither starts anything else nor makes a literal a raw one.

* `Untagged`: such a text;
* `Untagged.first`: what is left of such a text behind its first lexeme;
* `sourceFindings_of_untagged`: such a text declares no annotated class;
* `IsCode`, `IsStop`, `IsLead`, `IsInert`, `IsQuiet`: texts that may stand in front of such a text;
* `untagged_intercalate`: lines that make such a text.
-/

namespace RowMapping

open Text Lexeme

/-- A character that starts neither a comment nor a directive nor a literal. -/
def isCodeChar (c : Char) : Bool := !(c == '/' || c == '#' || c == '"' || c == '\'')

/-- A text in which no comment is an annotation.  A literal does not follow a name at once. -/
inductive Untagged : List Char → Prop
  | nil : Untagged []
  | code {c : Char} {cs : List Char} (hc : isCodeChar c = true)
      (hquote : isNamePart c = true → cs.head? ≠ some '"') (hcs : Untagged cs) : Untagged (c :: cs)
  | literal {run cs : List Char} (hrun : Escaped (stopsLiteral '"') run) (hcs : Untagged cs) :
      Untagged ('"' :: (run ++ '"' :: cs))
  | comment {body cs : List Char} (hbody : '\n' ∉ body)
      (htag : TagLine.ofComment? ('/' :: '/' :: body) = none) (hcs : Untagged cs) :
      Untagged ('/' :: '/' :: (body ++ '\n' :: cs))
  | directive {run cs : List Char} (hrun : Escaped (· == '\n') run) (hcs : Untagged cs) :
      Untagged ('#' :: (run ++ '\n' :: cs))

namespace Untagged

variable {c : Char} {cs front rest : List Char}

theorem newline (h : Untagged cs) : Untagged ('\n' :: cs) :=
  .code (by decide) (fun hname => absurd hname (by decide)) h

/-! Characters that start nothing but code. -/

theorem ne_of_isNamePart' (h : isNamePart c = true) : c ≠ '/' ∧ c ≠ '#' ∧ c ≠ '"' :=
  (ne_of_isNamePart h).imp_right (·.imp_right And.left)

theorem ne_of_isNumberPart (h : isNumberPart c = true) : c ≠ '/' ∧ c ≠ '#' ∧ c ≠ '"' := by
  refine ⟨?_, ?_, ?_⟩ <;> rintro rfl <;> exact absurd h (by decide)

/-- A character that starts nothing but code can be taken away from the front. -/
theorem of_cons (h : Untagged (c :: cs)) (hc : c ≠ '/' ∧ c ≠ '#' ∧ c ≠ '"') :
    Untagged cs ∧ (isNamePart c = true → cs.head? ≠ some '"') := by
  cases h with
  | code _ hquote hcs => exact ⟨hcs, hquote⟩
  | literal => exact absurd rfl hc.2.2
  | comment => exact absurd rfl hc.1
  | directive => exact absurd rfl hc.2.1

theorem of_append (h : Untagged (front ++ rest))
    (hfront : ∀ d ∈ front, d ≠ '/' ∧ d ≠ '#' ∧ d ≠ '"') : Untagged rest := by
  induction front with
  | nil => exact h
  | cons c front ih =>
    rw [List.forall_mem_cons] at hfront
    exact ih (h.of_cons hfront.1).1 hfront.2

/-- No literal follows a name at once. -/
theorem head_ne_quote (h : Untagged (c :: (front ++ rest))) (hc : isNamePart c = true)
    (hfront : front.all isNamePart = true) : rest.head? ≠ some '"' := by
  induction front generalizing c with
  | nil => exact (h.of_cons (ne_of_isNamePart' hc)).2 hc
  | cons d front ih =>
    rw [List.all_cons, Bool.and_eq_true] at hfront
    exact ih (h.of_cons (ne_of_isNamePart' hc)).1 hfront.1 hfront.2

/-- What is left behind the first lexeme when it is code. -/
theorem first_of_code (hc : isCodeChar c = true) (h : Untagged (c :: cs)) :
    Untagged (Lexeme.first c cs).2 ∧ (Lexeme.first c cs).1.shape ≠ .lineComment := by
  simp only [isCodeChar, Bool.not_eq_true', Bool.or_eq_false_iff, beq_eq_false_iff_ne] at hc
  obtain ⟨⟨⟨hslash, hhash⟩, hliteral⟩, happ⟩ := hc
  have hfits := fits_first c cs
  have htext := first_append c cs
  generalize Lexeme.first c cs = r at hfits htext
  obtain ⟨l, rest⟩ := r
  dsimp only at hfits htext ⊢
  rw [← htext] at h
  cases hfits with
  | blank _ hrun =>
    exact ⟨h.of_append fun d hd =>
      (ne_of_isBlank (List.all_eq_true.1 hrun.1 d hd)).imp_right (·.imp_right And.left), nofun⟩
  | closedComment | openComment | lineComment | slash =>
    exact absurd (List.cons.inj htext).1.symm hslash
  | directive => exact absurd (List.cons.inj htext).1.symm hhash
  | @literal shape quote tail _ hshape =>
    obtain rfl := (List.cons.inj htext).1
    cases shape with
    | string => exact absurd (Option.some.inj hshape).symm hliteral
    | character => exact absurd (Option.some.inj hshape).symm happ
    | _ => cases hshape
  | @raw marker tail _ hmarker =>
    obtain ⟨d, ds, rfl, hd, hds⟩ := isName_of_rawMarkers hmarker
    rw [List.append_assoc, List.cons_append, List.cons_append] at h
    exact absurd rfl (h.head_ne_quote (isNamePart_of_isNameStart hd) hds)
  | @number d more _ hd hrun =>
    have hd := (ne_of_isDigit (isDigit_of_isAsciiDigit hd)).imp_right (·.imp_right And.left)
    refine ⟨h.of_append (List.forall_mem_cons.2 ⟨hd, fun d hd => ?_⟩), nofun⟩
    exact ne_of_isNumberPart (List.all_eq_true.1 hrun.1 d hd)
  | @word d more _ hd hrun =>
    refine ⟨h.of_append (List.forall_mem_cons.2 ⟨?_, fun d hd => ?_⟩), nofun⟩
    · exact ne_of_isNamePart' (isNamePart_of_isNameStart hd)
    · exact ne_of_isNamePart' (List.all_eq_true.1 hrun.1 d hd)
  | @foreignNumber d more _ hd _ hrun =>
    have hd := (ne_of_isDigit hd).imp_right (·.imp_right And.left)
    refine ⟨h.of_append (List.forall_mem_cons.2 ⟨hd, fun d hd => ?_⟩), nofun⟩
    exact ne_of_isNumberPart (List.all_eq_true.1 hrun.1 d hd)
  | doubleColon => exact ⟨h.of_append (by simp), nofun⟩
  | colon => exact ⟨h.of_append (by simp), nofun⟩
  | mark =>
    obtain rfl := (List.cons.inj htext).1
    exact ⟨h.of_append (by simpa using ⟨hslash, hhash, hliteral⟩), nofun⟩

/-- What is left behind the first lexeme, which is no annotation if it is a comment. -/
theorem first (h : Untagged (c :: cs)) : Untagged (Lexeme.first c cs).2 ∧
    ((Lexeme.first c cs).1.shape = .lineComment →
      TagLine.ofComment? (Lexeme.first c cs).1.text = none) := by
  cases h with
  | @literal run rest hrun hrest =>
    have hfits : Fits ⟨.string, '"' :: (run ++ ['"'])⟩ rest := .literal rfl (.closed hrun rest)
    rw [hfits.first_eq (by simp)]
    exact ⟨hrest, nofun⟩
  | @comment body rest hbody htag hrest =>
    have hrun : IsRun (· != '\n') body ('\n' :: rest) := by
      refine ⟨List.all_eq_true.2 fun d hd => ?_, by simp⟩
      simpa using fun heq : d = '\n' => hbody (heq ▸ hd)
    have hfirst : Lexeme.first '/' ('/' :: (body ++ '\n' :: rest)) =
        (⟨.lineComment, '/' :: '/' :: body⟩, '\n' :: rest) := (Fits.lineComment hrun).first_eq rfl
    rw [hfirst]
    exact ⟨hrest.newline, fun _ => htag⟩
  | @directive run rest hrun hrest =>
    have hfirst : Lexeme.first '#' (run ++ '\n' :: rest) = (⟨.directive, '#' :: run⟩, '\n' :: rest) :=
      (Fits.directive hrun (.inr (by simp))).first_eq rfl
    rw [hfirst]
    exact ⟨hrest.newline, nofun⟩
  | code hc hquote hcs =>
    obtain ⟨hrest, hshape⟩ := first_of_code hc (.code hc hquote hcs)
    exact ⟨hrest, fun hcomment => absurd hcomment hshape⟩

end Untagged

/-! ### Nothing is declared -/

section

variable {cs : List Char} {ts : List Token} {t : Token}

/-- No comment of such a text is an annotation. -/
theorem ofComment?_of_mem_lexemes (h : Untagged cs) {l : Lexeme} (hl : l ∈ lexemes cs)
    (hshape : l.shape = .lineComment) : TagLine.ofComment? l.text = none := by
  induction cs using lexemes.induct with
  | case1 => simp at hl
  | case2 c cs ih =>
    obtain ⟨hrest, hfirst⟩ := h.first
    rw [lexemes_cons, List.mem_cons] at hl
    rcases hl with rfl | hl
    · exact hfirst hshape
    · exact ih hrest hl

theorem tagLine?_of_untagged (h : Untagged cs) (ht : t ∈ Token.ofText cs) : t.tagLine? = none := by
  obtain ⟨l, hl, hkind, htext⟩ := exists_lexeme_of_mem_located ht
  unfold Token.tagLine?
  split
  · next hcomment =>
    have hcomment : t.kind = .comment := by
      rw [Bool.and_eq_true, Token.isComment, beq_iff_eq] at hcomment
      exact hcomment.1
    have hshape : l.shape = .lineComment := by
      rw [hcomment] at hkind
      cases hl : l.shape <;> rw [hl] at hkind <;> first | rfl | cases hkind
    rw [htext]
    exact ofComment?_of_mem_lexemes h hl hshape
  · rfl

/-- A walk that meets no annotation finds nothing. -/
theorem findings_of_untagged {before : Option Token} {scopes : List Scope}
    {waiting : Option (List TagLine)} (hwaiting : waiting = none)
    (h : ∀ t ∈ ts, t.tagLine? = none) : findings before scopes waiting ts = [] := by
  fun_induction findings before scopes waiting ts with
  | case1 => rw [hwaiting]; rfl
  | case2 _ _ _ t ts _ _ ih => exact ih hwaiting fun u hu => h u (List.mem_cons_of_mem t hu)
  | case3 => cases hwaiting
  | case4 _ _ t ts _ _ hline =>
    rw [h t List.mem_cons_self] at hline
    cases hline
  | case5 _ _ _ t ts _ _ ih =>
    exact ih hwaiting fun u hu =>
      h u (List.mem_cons_of_mem t (Declaration.namespaceHead_subset "" ts hu))
  | case6 _ _ _ t ts _ _ _ ih => exact ih hwaiting fun u hu => h u (List.mem_cons_of_mem t hu)
  | case7 _ _ _ t ts _ _ _ _ ih => exact ih hwaiting fun u hu => h u (List.mem_cons_of_mem t hu)
  | case8 => cases hwaiting
  | case9 _ _ _ t ts _ _ _ _ _ _ ih =>
    exact ih hwaiting fun u hu => h u (List.mem_cons_of_mem t hu)
  | case10 _ _ _ t ts _ _ _ _ _ ih =>
    exact ih hwaiting fun u hu => h u (List.mem_cons_of_mem t hu)

/-- **A text without annotations declares nothing**, and nothing of it is told. -/
theorem sourceFindings_of_untagged (h : Untagged cs) : sourceFindings cs = [] :=
  findings_of_untagged rfl fun _ ht => tagLine?_of_untagged h ht

end

/-! ### Texts that may stand in front -/

namespace Lexeme

variable {stop : Char → Bool} {a b cs : List Char}

/-- A line that does not end with a backslash. -/
theorem escaped_of_line (hcs : '\n' ∉ cs) (hlast : cs.getLast? ≠ some '\\') :
    Escaped (· == '\n') cs := by
  induction hn : cs.length using Nat.strong_induction_on generalizing cs with
  | _ n ih =>
    match cs with
    | [] => exact .nil
    | [c] =>
      have hc : '\n' ≠ c := by simpa using hcs
      exact .plain (by simpa using hlast) (beq_false_of_ne hc.symm) .nil
    | c :: d :: cs =>
      obtain ⟨hc, hd, hrest⟩ : '\n' ≠ c ∧ '\n' ≠ d ∧ '\n' ∉ cs := by simpa using hcs
      have hlength : cs.length + 2 = n := hn
      rw [List.getLast?_cons_cons] at hlast
      by_cases hslash : c = '\\'
      · subst hslash
        refine .pair d (ih cs.length (by omega) hrest ?_ rfl)
        cases cs with
        | nil => exact nofun
        | cons e cs => rwa [List.getLast?_cons_cons] at hlast
      · exact .plain hslash (beq_false_of_ne hc.symm)
          (ih (cs.length + 1) (by omega) (by simpa using ⟨hd, hrest⟩) hlast rfl)

/-- A quoted character neither ends the literal nor the line. -/
theorem escaped_quotedChar (c : Char) : Escaped (stopsLiteral '"') (quotedChar c) := by
  unfold quotedChar
  split
  case h_8 _ hquote hslash _ _ hnewline _ _ =>
    split
    · have hdigits : ∀ n < 16, Nat.digitChar n ≠ '\\' ∧
          stopsLiteral '"' (Nat.digitChar n) = false := by decide
      have hhigh := hdigits (c.toNat / 16) (by omega)
      have hlow := hdigits (c.toNat % 16) (by omega)
      exact .pair 'u' (.plain (by decide) (by decide) (.plain (by decide) (by decide)
        (.plain hhigh.1 hhigh.2 (.plain hlow.1 hlow.2 .nil))))
    · refine .plain hslash ?_ .nil
      rw [stopsLiteral, beq_false_of_ne hquote, beq_false_of_ne hnewline]
      rfl
  all_goals exact .pair _ .nil

/-- Quoted characters neither end the literal nor the line. -/
theorem escaped_quoted (text : List Char) :
    Escaped (stopsLiteral '"') (text.flatMap quotedChar) := by
  induction text with
  | nil => exact .nil
  | cons c text ih => exact (escaped_quotedChar c).append ih

end Lexeme

/-- A text of nothing but code. -/
def IsCode (s : String) : Prop := s.toList.all isCodeChar = true

instance : DecidablePred IsCode := fun s =>
  inferInstanceAs (Decidable (s.toList.all isCodeChar = true))

/-- A text of code that does not end with a name. -/
def IsStop (s : String) : Prop :=
  IsCode s ∧ (s.toList.getLast?.any fun c => !isNamePart c) = true

instance : DecidablePred IsStop := fun _ => inferInstanceAs (Decidable (_ ∧ _))

/-- Behind the text, a text without annotations may follow. -/
def IsLead (s : String) : Prop := ∀ rest, Untagged rest → Untagged (s.toList ++ rest)

/-- Behind the text, a text without annotations may follow that does not begin with a literal. -/
def IsInert (s : String) : Prop :=
  ∀ rest, Untagged rest → rest.head? ≠ some '"' → Untagged (s.toList ++ rest)

/-- Behind the line, a text without annotations may follow. -/
def IsQuiet (line : String) : Prop := ∀ rest, Untagged rest → Untagged (line.toList ++ '\n' :: rest)

section

variable {a b s : String}

/-- A literal is looked at as the list of its characters. -/
theorem isCode_ofList {cs : List Char} (h : cs.all isCodeChar = true) :
    IsCode (String.ofList cs) := by
  rwa [IsCode, String.toList_ofList]

theorem isStop_ofList {cs : List Char} (h : cs.all isCodeChar = true)
    (hlast : (cs.getLast?.any fun c => !isNamePart c) = true) : IsStop (String.ofList cs) := by
  refine ⟨isCode_ofList h, ?_⟩
  rwa [String.toList_ofList]

@[simp] theorem isCode_append : IsCode (a ++ b) ↔ IsCode a ∧ IsCode b := by
  simp [IsCode]

theorem isCode_of_isNamePart {s : String} (h : ∀ c ∈ s.toList, isNamePart c) : IsCode s := by
  refine List.all_eq_true.2 fun c hc => ?_
  obtain ⟨hslash, hhash, hquote, happ⟩ := ne_of_isNamePart (h c hc)
  simp [isCodeChar, hslash, hhash, hquote, happ]

@[simp] theorem isCode_repr (n : Nat) : IsCode n.repr := by
  refine isCode_of_isNamePart fun c hc => ?_
  rw [Nat.repr, String.toList_ofList] at hc
  have hdigit := Nat.isDigit_of_mem_toDigits (by decide) (by decide) hc
  simp only [Char.isDigit, Bool.and_eq_true, decide_eq_true_eq] at hdigit
  have hascii : isAsciiDigit c = true := by
    simp only [isAsciiDigit, Bool.and_eq_true, decide_eq_true_eq]
    exact hdigit
  exact isNamePart_of_isAsciiDigit hascii

@[simp] theorem isCode_toString_bool (b : Bool) : IsCode (toString b) := by
  cases b <;> decide

theorem IsCode.append (ha : IsCode a) (hb : IsCode b) : IsCode (a ++ b) := isCode_append.2 ⟨ha, hb⟩

theorem IsCode.append_ofList (ha : IsCode a) {cs : List Char} (h : cs.all isCodeChar = true) :
    IsCode (a ++ String.ofList cs) := ha.append (isCode_ofList h)

/-- Code between two literals. -/
theorem IsCode.between {cs ds : List Char} (hs : IsCode s) (hfront : cs.all isCodeChar = true)
    (hbehind : ds.all isCodeChar = true) : IsCode (String.ofList cs ++ s ++ String.ofList ds) :=
  ((isCode_ofList hfront).append hs).append_ofList hbehind

/-- More code, and a literal behind it. -/
theorem IsCode.append_between (ha : IsCode a) (hs : IsCode s) {cs : List Char}
    (h : cs.all isCodeChar = true) : IsCode (a ++ s ++ String.ofList cs) :=
  (ha.append hs).append_ofList h

/-- Behind code, a text may follow unless a literal follows a name. -/
theorem IsCode.untagged_append (h : IsCode s) {rest : List Char} (hrest : Untagged rest)
    (hlast : ∀ c ∈ s.toList.getLast?, isNamePart c = true → rest.head? ≠ some '"') :
    Untagged (s.toList ++ rest) := by
  unfold IsCode at h
  generalize s.toList = cs at h hlast
  induction cs with
  | nil => exact hrest
  | cons c cs ih =>
    rw [List.all_cons, Bool.and_eq_true] at h
    cases cs with
    | nil => exact .code h.1 (hlast c rfl) hrest
    | cons d cs =>
      refine .code h.1 (fun _ => ?_) (ih h.2 hlast)
      rintro ⟨⟩
      exact absurd (List.all_eq_true.1 h.2 _ List.mem_cons_self) (by decide)

theorem IsCode.isInert (h : IsCode s) : IsInert s := fun _ hrest hquote =>
  h.untagged_append hrest fun _ _ _ => hquote

theorem IsStop.exists_getLast (h : IsStop s) : ∃ c ∈ s.toList.getLast?, isNamePart c = false := by
  obtain ⟨c, hc, hname⟩ := (Option.any_eq_true _ _).1 h.2
  exact ⟨c, hc, by simpa using hname⟩

/-- Code that does not end with a name may stand in front of a literal. -/
theorem IsStop.isLead (h : IsStop s) : IsLead s := fun _ hrest => by
  obtain ⟨c, hc, hname⟩ := h.exists_getLast
  refine h.1.untagged_append hrest fun d hd hpart => ?_
  rw [Option.mem_unique hd hc, hname] at hpart
  cases hpart

theorem IsInert.isQuiet (h : IsInert s) : IsQuiet s := fun rest hrest =>
  h _ hrest.newline (by simp)

theorem IsCode.isQuiet (h : IsCode s) : IsQuiet s := h.isInert.isQuiet

theorem IsCode.isQuiet_between {cs ds : List Char} (hs : IsCode s)
    (hfront : cs.all isCodeChar = true) (hbehind : ds.all isCodeChar = true) :
    IsQuiet (String.ofList cs ++ s ++ String.ofList ds) := (hs.between hfront hbehind).isQuiet

/-- A line of code that is always the same. -/
theorem isQuiet_ofList {cs : List Char} (h : cs.all isCodeChar = true) :
    IsQuiet (String.ofList cs) := (isCode_ofList h).isQuiet

theorem IsLead.isInert (h : IsLead s) : IsInert s := fun rest hrest _ => h rest hrest

theorem IsLead.append (ha : IsLead a) (hb : IsLead b) : IsLead (a ++ b) := fun rest hrest => by
  rw [String.toList_append, List.append_assoc]
  exact ha _ (hb rest hrest)

theorem IsLead.append_isInert (ha : IsLead a) (hb : IsInert b) : IsInert (a ++ b) :=
  fun rest hrest hquote => by
    rw [String.toList_append, List.append_assoc]
    exact ha _ (hb rest hrest hquote)

/-- Code does not begin with a literal. -/
theorem IsCode.head_ne_quote (h : IsCode s) {rest : List Char} (hrest : rest.head? ≠ some '"') :
    (s.toList ++ rest).head? ≠ some '"' := by
  unfold IsCode at h
  cases hcs : s.toList with
  | nil => exact hrest
  | cons c cs =>
    rw [hcs, List.all_cons, Bool.and_eq_true] at h
    rintro ⟨⟩
    exact absurd h.1 (by decide)

theorem IsInert.append_isCode (ha : IsInert a) (hb : IsCode b) : IsInert (a ++ b) :=
  fun rest hrest hquote => by
    rw [String.toList_append, List.append_assoc]
    exact ha _ (hb.isInert rest hrest hquote) (hb.head_ne_quote hquote)

/-- Code behind a text makes a literal possible when it does not end with a name. -/
theorem IsInert.append_isStop (ha : IsInert a) (hb : IsStop b) : IsLead (a ++ b) := by
  obtain ⟨c, hc, -⟩ := hb.exists_getLast
  intro rest hrest
  rw [String.toList_append, List.append_assoc]
  refine ha _ (hb.isLead rest hrest) ?_
  have hhead : (b.toList ++ rest).head? = b.toList.head? := by
    cases hcs : b.toList with
    | nil => rw [hcs] at hc; cases hc
    | cons d cs => rfl
  rw [hhead, ← List.append_nil b.toList]
  exact hb.1.head_ne_quote nofun

theorem IsLead.append_isCode (ha : IsLead a) (hb : IsCode b) : IsInert (a ++ b) :=
  ha.isInert.append_isCode hb

theorem isLead_quote (text : String) : IsLead (quote text) := by
  intro rest hrest
  have htext : (quote text).toList ++ rest =
      '"' :: (text.toList.flatMap quotedChar ++ '"' :: rest) := by
    simp [quote]
  rw [htext]
  exact .literal (escaped_quoted text.toList) hrest

theorem isCode_intercalate {sep : String} {items : List String} (hsep : IsCode sep)
    (h : ∀ item ∈ items, IsCode item) : IsCode (sep.intercalate items) := by
  induction items with
  | nil => exact (by decide : IsCode "")
  | cons item items ih =>
    rw [List.forall_mem_cons] at h
    cases items with
    | nil => rw [String.intercalate_singleton]; exact h.1
    | cons next items =>
      rw [String.intercalate_cons_cons, isCode_append, isCode_append]
      exact ⟨⟨h.1, hsep⟩, ih h.2⟩

theorem isLead_intercalate {sep : String} {items : List String} (hsep : IsLead sep)
    (h : ∀ item ∈ items, IsLead item) : IsLead (sep.intercalate items) := by
  induction items with
  | nil => exact fun _ hrest => hrest
  | cons item items ih =>
    rw [List.forall_mem_cons] at h
    cases items with
    | nil => rw [String.intercalate_singleton]; exact h.1
    | cons next items =>
      rw [String.intercalate_cons_cons]
      exact (h.1.append hsep).append (ih h.2)

theorem isInert_intercalate {sep : String} {items : List String} (hsep : IsStop sep)
    (h : ∀ item ∈ items, IsInert item) : IsInert (sep.intercalate items) := by
  induction items with
  | nil => exact fun _ hrest _ => hrest
  | cons item items ih =>
    rw [List.forall_mem_cons] at h
    cases items with
    | nil => rw [String.intercalate_singleton]; exact h.1
    | cons next items =>
      rw [String.intercalate_cons_cons]
      exact (h.1.append_isStop hsep).append_isInert (ih h.2)

/-- A comment that begins with another word than the marker is no annotation. -/
theorem ofComment?_of_head {c : Char} (hblank : isBlank c = false) (hmarker : c ≠ '@')
    (body : List Char) : TagLine.ofComment? ("// ".toList ++ c :: body) = none := by
  have htrim : ∃ body', trim ("// ".toList ++ c :: body) = "//".toList ++ ' ' :: c :: body' := by
    refine ⟨(trimStart body.reverse).reverse, ?_⟩
    have hstart : trimStart ("// ".toList ++ c :: body) = "// ".toList ++ c :: body :=
      trimStart_eq_self (by rintro _ ⟨⟩; rfl)
    have hend : trimStart (c :: "// ".toList.reverse) = c :: "// ".toList.reverse :=
      trimStart_eq_self (by rintro _ ⟨⟩; exact hblank)
    have hreverse : ("// ".toList ++ c :: body).reverse =
        body.reverse ++ c :: "// ".toList.reverse := by
      simp
    have hfull : trimStart (body.reverse ++ c :: "// ".toList.reverse) =
        trimStart body.reverse ++ c :: "// ".toList.reverse := by
      unfold trimStart at hend ⊢
      rw [List.dropWhile_append, hend]
      split
      · next hnil => rw [List.isEmpty_iff.1 hnil, List.nil_append]
      · rfl
    rw [trim, hstart, hreverse, hfull]
    simp
  obtain ⟨body', htrim⟩ := htrim
  have hmark : marker.isPrefixOf? (c :: body') = none := by
    have hmarker' : marker = ['@', 'r', 'e', 'l', 'a', 'i', 's'] := String.toList_ofList
    rw [hmarker', cons_isPrefixOf?_cons, if_neg (by simpa using hmarker.symm)]
  have hbody : trimStart (' ' :: c :: body') = c :: body' := by
    rw [trimStart, List.dropWhile_cons_of_pos rfl]
    exact trimStart_eq_self (by rintro _ ⟨⟩; exact hblank)
  unfold TagLine.ofComment?
  rw [htrim, isPrefixOf?_append]
  dsimp only
  rw [hbody, hmark]

/-- A line with a comment behind its code. -/
theorem IsInert.append_comment (text : String) (h : IsInert a) (hline : '\n' ∉ text.toList)
    (hhead : ∃ c ∈ text.toList.head?, isBlank c = false ∧ c ≠ '@') :
    IsQuiet (a ++ "// " ++ text) := by
  intro rest hrest
  obtain ⟨c, hc, hblank, hmarker⟩ := hhead
  obtain ⟨body, hbody⟩ := List.head?_eq_some_iff.1 hc
  have htag := ofComment?_of_head hblank hmarker body
  rw [← hbody] at htag
  have hcomment : Untagged ('/' :: '/' :: ((' ' :: text.toList) ++ '\n' :: rest)) :=
    .comment (by simpa using hline) htag hrest
  have htext : (a ++ "// " ++ text).toList ++ '\n' :: rest =
      a.toList ++ '/' :: '/' :: ((' ' :: text.toList) ++ '\n' :: rest) := by
    simp
  rw [htext]
  exact h _ hcomment (by simp)

/-- A line that is a directive. -/
theorem isQuiet_of_directive {line : String} (hhead : line.toList.head? = some '#')
    (hline : '\n' ∉ line.toList) (hlast : line.toList.getLast? ≠ some '\\') : IsQuiet line := by
  obtain ⟨run, hrun⟩ := List.head?_eq_some_iff.1 hhead
  rw [hrun] at hline hlast
  have hescaped : Escaped (· == '\n') run := by
    refine escaped_of_line (fun hmem => hline (List.mem_cons_of_mem _ hmem)) ?_
    cases run with
    | nil => exact nofun
    | cons c run => rwa [List.getLast?_cons_cons] at hlast
  intro rest hrest
  rw [hrun]
  exact .directive hescaped hrest

/-- A directive that is always the same. -/
theorem isQuiet_directive {run : List Char} (hline : '\n' ∉ run)
    (hlast : ('#' :: run).getLast? ≠ some '\\') : IsQuiet (String.ofList ('#' :: run)) := by
  refine isQuiet_of_directive ?_ ?_ ?_ <;> rw [String.toList_ofList]
  · rfl
  · simpa using hline
  · exact hlast

/-- Lines are the text in which each of them is closed. -/
theorem toList_lines (lines : List String) : ("\n".intercalate (lines ++ [""])).toList =
    lines.flatMap fun line => line.toList ++ ['\n'] := by
  rw [String.toList_intercalate]
  induction lines with
  | nil => rfl
  | cons line lines ih =>
    have hne : (lines ++ [""]).map String.toList ≠ [] := by simp
    obtain ⟨next, others, hnext⟩ := List.exists_cons_of_ne_nil hne
    rw [List.flatMap_cons, ← ih, List.cons_append, List.map_cons, hnext,
      List.intercalate_cons_cons]
    rfl

/-- Lines of such texts are a text without annotations. -/
theorem untagged_intercalate {lines : List String} (h : ∀ line ∈ lines, IsQuiet line) :
    Untagged ("\n".intercalate (lines ++ [""])).toList := by
  rw [toList_lines]
  induction lines with
  | nil => exact .nil
  | cons line lines ih =>
    rw [List.forall_mem_cons] at h
    rw [List.flatMap_cons, List.append_assoc]
    exact h.1 _ (ih h.2)

end

end RowMapping
