import RowMapping.Proofs.SpecializationForm
/-!
# Specializations behind a text

What a search finds in a text is found in every longer text, and a specialization that is put behind
a text without one for its type is the first one.  All depends on the angle bracket of a head: it
ends a keyword and a template, so that a text that is put between can be checked bracket by bracket.

* `occursFor_append_right`, `firstBody?_append_right`: what is found stays found;
* `Opens`: a text ends with a head up to its angle bracket;
* `Opened`: the heads that are opened in a text are closed behind known names, with `Opened.append`,
  `opened_of_not_mem`, `opened_word` and `opened_head` for its parts;
* `exists_opens_of_occursFor`: a head in a longer text is opened in the part that is new;
* `firstBody?_behind`: the body of a specialization that is put behind a text.
-/

namespace RowMapping.Specialization

open Text

variable {type cs source ext body p q r : List Char} {x : Char}

/-! ### Places in a text -/

/-- A part in front without the character does not reach it. -/
theorem exists_of_append_eq_append_cons {a b c d : List Char} (hx : x ∉ a)
    (h : a ++ b = c ++ x :: d) : ∃ w, c = a ++ w ∧ b = w ++ x :: d := by
  rcases List.append_eq_append_iff.1 h with ⟨w, hc, hb⟩ | ⟨w, ha, hd⟩
  · exact ⟨w, hc, hb⟩
  · cases w with
    | nil => exact ⟨[], by rw [ha, List.append_nil, List.append_nil], hd.symm⟩
    | cons y w =>
      obtain rfl : x = y := (List.cons.inj hd).1
      exact absurd (ha ▸ List.mem_append_right c List.mem_cons_self) hx

/-- A part behind without the character does not reach it. -/
theorem exists_of_append_cons_eq_append {a b c d : List Char} (hx : x ∉ b)
    (h : c ++ x :: d = a ++ b) : ∃ w, a = c ++ x :: w ∧ d = w ++ b := by
  rcases List.append_eq_append_iff.1 h with ⟨w, ha, hd⟩ | ⟨w, hc, hb⟩
  · cases w with
    | nil =>
      rw [List.nil_append] at hd
      exact absurd (hd ▸ List.mem_cons_self) hx
    | cons y w =>
      obtain ⟨rfl, hd'⟩ := List.cons.inj (hd.trans List.cons_append)
      exact ⟨w, ha, hd'⟩
  · exact absurd (hb ▸ List.mem_append_right w List.mem_cons_self) hx

/-- Two places of a character are one place, or one lies in front of the other. -/
theorem append_cons_cases {p' q' : List Char} (h : p ++ x :: q = p' ++ x :: q') :
    (p = p' ∧ q = q') ∨ (∃ w, p' = p ++ x :: w ∧ q = w ++ x :: q') ∨
      ∃ w, p = p' ++ x :: w := by
  rcases List.append_eq_append_iff.1 h with ⟨w, hp', hq⟩ | ⟨w, hp, hq⟩
  · cases w with
    | nil => exact .inl ⟨by rw [hp', List.append_nil], (List.cons.inj hq).2⟩
    | cons y w =>
      obtain ⟨rfl, hq'⟩ := List.cons.inj (hq.trans List.cons_append)
      exact .inr (.inl ⟨w, hp', hq'⟩)
  · cases w with
    | nil => exact .inl ⟨by rw [hp, List.append_nil], (List.cons.inj hq).2.symm⟩
    | cons y w =>
      obtain ⟨rfl, -⟩ := List.cons.inj hq
      exact .inr (.inr ⟨w, hp⟩)

theorem Gap.not_mem (g : Gap) (hx : isBlank x = false) : x ∉ g.text := fun h => by
  rw [List.all_eq_true.1 g.blank x h] at hx
  cases hx

/-- Blanks at the end of a text can be told from the text. -/
theorem Gap.append_inj {a b : List Char} {g g' : Gap} (h : a ++ g.text = b ++ g'.text)
    (ha : ∀ d ∈ a.getLast?, isBlank d = false) (hb : ∀ d ∈ b.getLast?, isBlank d = false) :
    a = b := by
  have hback : ∀ {a : List Char} {g : Gap}, (∀ d ∈ a.getLast?, isBlank d = false) →
      trimStart (a ++ g.text).reverse = a.reverse := fun {a g} ha => by
    rw [List.reverse_append]
    exact dropWhile_append_of_stop (by rw [List.all_reverse]; exact g.blank)
      (by rwa [List.head?_reverse])
  have hsame := congrArg (fun cs => trimStart cs.reverse) h
  simp only [hback ha, hback hb] at hsame
  exact List.reverse_injective hsame

/-! ### Longer texts -/

/-- A specialization occurs where a head is. -/
theorem occursFor_iff : occursFor type cs = true ↔
    ∃ (a : List Char) (h : Head type) (r : List Char), cs = a ++ (h.text ++ r) := by
  induction cs with
  | nil =>
    constructor
    · intro h
      cases h
    · rintro ⟨a, h, r, heq⟩
      rw [Head.text] at heq
      cases a <;> cases heq
  | cons c cs ih =>
    have hhere : (!(headRests type (c :: cs)).isEmpty) = true ↔
        ∃ (h : Head type) (r : List Char), c :: cs = h.text ++ r := by
      rw [Bool.not_eq_true', List.isEmpty_eq_false_iff_exists_mem, exists_comm]
      exact exists_congr fun r => mem_headRests_iff
    rw [occursFor, Bool.or_eq_true, hhere, ih]
    constructor
    · rintro (⟨h, r, heq⟩ | ⟨a, h, r, rfl⟩)
      · exact ⟨[], h, r, heq⟩
      · exact ⟨c :: a, h, r, rfl⟩
    · rintro ⟨a, h, r, heq⟩
      cases a with
      | nil => exact .inl ⟨h, r, heq⟩
      | cons d a => exact .inr ⟨a, h, r, (List.cons.inj heq).2⟩

theorem occursFor_append_right (h : occursFor type cs = true) (ext : List Char) :
    occursFor type (cs ++ ext) = true := by
  obtain ⟨a, head, r, rfl⟩ := occursFor_iff.1 h
  exact occursFor_iff.2 ⟨a, head, r ++ ext, by simp⟩

theorem untilEnd?_append_right (h : untilEnd? cs = some body) (ext : List Char) :
    untilEnd? (cs ++ ext) = some body := by
  obtain ⟨hopen, g, rest, rfl⟩ := untilEnd?_eq_some_iff.1 h
  exact untilEnd?_eq_some_iff.2 ⟨hopen, g, rest ++ ext, by simp⟩

theorem untilEnd?_append_left (front : List Char) (h : untilEnd? cs ≠ none) :
    untilEnd? (front ++ cs) ≠ none := by
  induction front with
  | nil => exact h
  | cons c front ih => exact fun hnone => ih (untilEnd?_cons_eq_none_iff.1 hnone).2

theorem Head.not_mem_text (ht : IsPlain type) (h : Head type) (hx : isBlank x = false)
    (hpath : isPathChar x = false) (hangle : x ≠ '<' ∧ x ≠ '>') : x ∉ h.text := by
  have hname : x ∉ h.name := fun hmem => by
    rw [List.all_eq_true.1 (h.all_name ht) x hmem] at hpath
    cases hpath
  have hword : ∀ w : List Char, w.all isPathChar = true → x ∉ w := fun w hw hmem => by
    rw [List.all_eq_true.1 hw x hmem] at hpath
    cases hpath
  simp [text, argument, Gap.not_mem _ hx, hword keyword rfl, hword template rfl, hname, hangle.1,
    hangle.2]

/-- Behind a text with the end of a body, nothing begins that did not begin before. -/
theorem Reads.of_append (ht : IsPlain type) (hclosed : untilEnd? cs ≠ none)
    (h : Reads type (cs ++ ext)) : Reads type cs := by
  obtain ⟨f, after, hf⟩ := h
  obtain ⟨body, hbody⟩ := Option.ne_none_iff_exists'.1 hclosed
  obtain ⟨-, g, rest, hcs⟩ := untilEnd?_eq_some_iff.1 hbody
  -- up to its own brace, the specialization holds no closing brace
  have hfront : '\x7d' ∉ f.head.text ++ (f.beforeBody.text ++ ['\x7b']) := by
    simp [f.head.not_mem_text ht (x := '\x7d') rfl (by decide) (by decide),
      Gap.not_mem f.beforeBody (x := '\x7d') rfl]
  have hall : (f.head.text ++ (f.beforeBody.text ++ ['\x7b'])) ++
      (f.body ++ '\x7d' :: (f.beforeEnd.text ++ ';' :: after)) =
        body ++ '\x7d' :: (g.text ++ ';' :: (rest ++ ext)) := by
    rw [f.text_append] at hf
    simpa [hcs] using hf
  obtain ⟨w, rfl, hw⟩ := exists_of_append_eq_append_cons hfront hall
  have hend : untilEnd? (w ++ '\x7d' :: (g.text ++ ';' :: rest)) ≠ none := by
    refine untilEnd?_append_left w (Option.ne_none_iff_exists'.2 ⟨[], ?_⟩)
    exact untilEnd?_eq_some_iff.2 ⟨rfl, g, rest, rfl⟩
  obtain ⟨body, hbody⟩ := Option.ne_none_iff_exists'.1 hend
  have hsame : body = f.body := by
    have hlong := untilEnd?_append_right hbody ext
    have hown := untilEnd?_eq_some_iff.2 ⟨f.body_valid, f.beforeEnd, after, rfl⟩
    rw [hw] at hown
    simp only [List.append_assoc, List.cons_append] at hlong
    exact Option.some.inj (hlong.symm.trans hown)
  obtain ⟨hopen, g', rest', hinner⟩ := untilEnd?_eq_some_iff.1 hbody
  refine ⟨⟨f.head, f.beforeBody, body, g', hopen⟩, rest', ?_⟩
  rw [hcs, Form.text]
  simp only [List.append_assoc, List.cons_append, List.nil_append, hinner]

/-- The body that is found is that of a specialization in front of which nothing reads as one. -/
theorem firstBody?_eq_some_iff (ht : IsPlain type) : firstBody? type cs = some body ↔
    ∃ (before : List Char) (f : Form type) (after : List Char),
      cs = before ++ (f.text ++ after) ∧ f.body = body ∧
        ∀ n < before.length, ¬Reads type (cs.drop n) := by
  constructor
  · intro h
    induction cs with
    | nil => cases h
    | cons c cs ih =>
      rw [firstBody?] at h
      split at h
      · next found hfound =>
        cases h
        obtain ⟨f, after, hf⟩ := isSome_findSome?_body?.1 (Option.isSome_of_eq_some hfound)
        rw [← hf, findSome?_body?_form ht] at hfound
        exact ⟨[], f, after, hf.symm, Option.some.inj hfound, by simp⟩
      · next hnone =>
        obtain ⟨before, f, after, rfl, hbody, hfirst⟩ := ih h
        refine ⟨c :: before, f, after, rfl, hbody, fun n hn => ?_⟩
        cases n with
        | zero => rw [List.drop_zero, ← isSome_findSome?_body?, hnone]; exact Bool.false_ne_true
        | succ n => exact hfirst n (Nat.lt_of_succ_lt_succ hn)
  · rintro ⟨before, f, after, rfl, rfl, hfirst⟩
    exact firstBody?_append_form ht f after hfirst

theorem Form.untilEnd?_ne_none (f : Form type) (after : List Char) :
    untilEnd? (f.text ++ after) ≠ none := by
  have hbody : untilEnd? (f.body ++ '\x7d' :: (f.beforeEnd.text ++ ';' :: after)) ≠ none := by
    rw [untilEnd?_eq_some_iff.2 ⟨f.body_valid, f.beforeEnd, after, rfl⟩]
    exact Option.some_ne_none _
  rw [f.text_append]
  exact untilEnd?_append_left _ (untilEnd?_append_left _ (untilEnd?_append_left ['\x7b'] hbody))

/-- **A body that is found is found in every longer text.** -/
theorem firstBody?_append_right (ht : IsPlain type) (h : firstBody? type cs = some body)
    (ext : List Char) : firstBody? type (cs ++ ext) = some body := by
  obtain ⟨before, f, after, hcs, hbody, hfirst⟩ := (firstBody?_eq_some_iff ht).1 h
  refine (firstBody?_eq_some_iff ht).2
    ⟨before, f, after ++ ext, by simp [hcs], hbody, fun n hn hreads => ?_⟩
  have hlength : n ≤ cs.length := by
    rw [hcs, List.length_append]
    omega
  rw [List.drop_append_of_le_length hlength] at hreads
  refine hfirst n hn (hreads.of_append ht ?_)
  rw [hcs, List.drop_append_of_le_length (Nat.le_of_lt hn)]
  exact untilEnd?_append_left _ (f.untilEnd?_ne_none after)

theorem occursFor_of_firstBody? (ht : IsPlain type) (h : firstBody? type cs = some body) :
    occursFor type cs = true := by
  obtain ⟨before, f, after, rfl, -, -⟩ := (firstBody?_eq_some_iff ht).1 h
  exact occursFor_append_form before f after

/-! ### Openings -/

/-- The head up to its angle bracket. -/
def Head.opening (h : Head type) : List Char :=
  keyword ++ (h.behindKeyword.text ++ (template ++ h.behindTemplate.text))

/-- The head behind its angle bracket. -/
def Head.closing (h : Head type) : List Char := h.beforePath.text ++ h.argument

/-- The text ends with a head up to its angle bracket. -/
def Opens (cs : List Char) : Prop :=
  ∃ (a : List Char) (g g' : Gap), g.text ≠ [] ∧
    cs = a ++ (keyword ++ (g.text ++ (template ++ g'.text)))

theorem Head.text_eq (h : Head type) : h.text = h.opening ++ '<' :: h.closing := by
  simp [text, opening, closing]

theorem Head.opens (h : Head type) (a : List Char) : Opens (a ++ h.opening) :=
  ⟨a, h.behindKeyword, h.behindTemplate, h.behindKeyword_ne, rfl⟩

theorem Head.angle_not_mem_opening (h : Head type) : '<' ∉ h.opening := by
  simp [opening, Gap.not_mem _ (x := '<') rfl, show '<' ∉ keyword by decide,
    show '<' ∉ template by decide]

theorem Head.angle_not_mem_closing (ht : IsPlain type) (h : Head type) : '<' ∉ h.closing := by
  have hname : '<' ∉ h.name := fun hmem =>
    absurd (List.all_eq_true.1 (h.all_name ht) _ hmem) (by decide)
  simp [closing, argument, Gap.not_mem _ (x := '<') rfl, hname]

/-- An angle bracket is that of one head only. -/
theorem Head.eq_of_append_opening {h h' : Head type} {a b : List Char}
    (heq : a ++ h.opening = b ++ h'.opening) : a = b := by
  have htemplate : ∀ (a : List Char) (h : Head type), ∀ d ∈
      (a ++ (keyword ++ (h.behindKeyword.text ++ template))).getLast?, isBlank d = false := by
    intro a h d hd
    have hlast : template.getLast? = some 'a' := by decide
    simp only [List.getLast?_append, hlast, Option.some_or, Option.mem_some] at hd
    rw [← hd]
    rfl
  have hkeyword : ∀ a : List Char, ∀ d ∈ (a ++ keyword).getLast?, isBlank d = false := by
    intro a d hd
    have hlast : keyword.getLast? = some 't' := by decide
    simp only [List.getLast?_append, hlast, Option.some_or, Option.mem_some] at hd
    rw [← hd]
    rfl
  have hfront := Gap.append_inj
    (show (a ++ (keyword ++ (h.behindKeyword.text ++ template))) ++ h.behindTemplate.text =
      (b ++ (keyword ++ (h'.behindKeyword.text ++ template))) ++ h'.behindTemplate.text by
        simpa [opening] using heq)
    (htemplate a h) (htemplate b h')
  have hgap : (a ++ keyword) ++ h.behindKeyword.text = (b ++ keyword) ++ h'.behindKeyword.text :=
    List.append_cancel_right (show (a ++ keyword ++ h.behindKeyword.text) ++ template =
      (b ++ keyword ++ h'.behindKeyword.text) ++ template by simpa using hfront)
  exact List.append_cancel_right (Gap.append_inj hgap (hkeyword a) (hkeyword b))

/-- A word that is no end of the template opens nothing. -/
theorem not_opens_append {w : List Char} (front : List Char) (hne : w ≠ [])
    (hblank : ∀ d ∈ w, isBlank d = false) (hend : ¬w <:+ template) : ¬Opens (front ++ w) := by
  rintro ⟨a, g, g', hg, heq⟩
  -- read backwards, the word goes up to a blank
  have hword : w.reverse <+: (front ++ w).reverse.takeWhile fun d => !isBlank d := by
    rw [List.reverse_append, List.takeWhile_append_of_pos (by simpa using hblank)]
    exact List.prefix_append _ _
  have hback : (front ++ w).reverse = g'.text.reverse ++ (template.reverse ++
      (g.text.reverse ++ (a ++ keyword).reverse)) := by
    rw [heq]
    simp
  rw [hback] at hword
  cases hgap : g'.text.reverse with
  | nil =>
    have hstop : ∀ d ∈ (g.text.reverse ++ (a ++ keyword).reverse).head?, (!isBlank d) = false := by
      intro d hd
      rw [List.head?_append_of_ne_nil _ (by simpa using hg)] at hd
      rw [List.all_eq_true.1 g.blank d (by simpa using List.mem_of_head? hd)]
      rfl
    rw [hgap, List.nil_append, takeWhile_append_of_stop rfl hstop, List.reverse_prefix] at hword
    exact hend hword
  | cons d ds =>
    have hd : isBlank d = true := List.all_eq_true.1 g'.blank d (by
      rw [← List.mem_reverse, hgap]
      exact List.mem_cons_self)
    rw [hgap, List.cons_append, List.takeWhile_cons_of_neg (by simp [hd])] at hword
    exact hne (by simpa using hword)

/-- In whatever text it stands, the heads that are opened in this part are closed behind one of the
names. -/
def Opened (names : List (List Char)) (cs : List Char) : Prop :=
  ∀ front p q, cs = p ++ '<' :: q → Opens (front ++ p) → ∃ n ∈ names, ∃ t, q = n ++ '>' :: t

namespace Opened

variable {names names' : List (List Char)} {a b w : List Char}

theorem mono (h : Opened names cs) (hsub : names ⊆ names') : Opened names' cs :=
  fun front p q hcs hopen =>
    let ⟨n, hn, ht⟩ := h front p q hcs hopen
    ⟨n, hsub hn, ht⟩

theorem append (ha : Opened names a) (hb : Opened names b) : Opened names (a ++ b) := by
  intro front p q hcs hopen
  rcases List.append_eq_append_iff.1 hcs with ⟨w, rfl, hb'⟩ | ⟨w, ha', hq⟩
  · exact hb (front ++ a) w q hb' (by rwa [List.append_assoc])
  · cases w with
    | nil =>
      rw [List.append_nil] at ha'
      rw [← ha'] at hopen
      exact hb (front ++ a) [] q hq.symm (by rwa [List.append_nil])
    | cons y w =>
      obtain ⟨rfl, rfl⟩ := List.cons.inj hq
      obtain ⟨n, hn, t, rfl⟩ := ha front p w ha' hopen
      exact ⟨n, hn, t ++ b, by simp⟩

theorem flatMap {α : Type} {f : α → List Char} {l : List α} (h : ∀ c ∈ l, Opened names (f c)) :
    Opened names (l.flatMap f) := by
  induction l with
  | nil => exact fun _ p _ hcs _ => by cases p <;> cases hcs
  | cons c l ih =>
    obtain ⟨hc, hl⟩ := List.forall_mem_cons.1 h
    exact hc.append (ih hl)

end Opened

theorem opened_of_not_mem {names : List (List Char)} (h : '<' ∉ cs) : Opened names cs :=
  fun _ _ _ hcs _ => absurd (hcs ▸ List.mem_append_right _ List.mem_cons_self) h

/-- Nothing is opened in a word that starts with a character of no template. -/
theorem opened_word {names : List (List Char)} {w : List Char} (hx : x ∉ '<' :: template)
    (hblank : ∀ d ∈ x :: w, isBlank d = false) : Opened names (x :: w) := by
  rintro front (_ | ⟨y, p⟩) q hcs hopen
  · exact absurd ((List.cons.inj hcs).1 ▸ List.mem_cons_self) hx
  · obtain ⟨rfl, rfl⟩ := List.cons.inj (hcs.trans List.cons_append)
    refine absurd hopen (not_opens_append front (List.cons_ne_nil _ _) (fun d hd => ?_) ?_)
    · exact hblank d (List.mem_append_left ('<' :: q) hd)
    · exact fun hend => hx (List.mem_cons_of_mem _ (hend.subset List.mem_cons_self))

/-- A head opens what its name closes. -/
theorem opened_head {n t : List Char} (hp : '<' ∉ p) (hn : '<' ∉ n) (ht : '<' ∉ t) :
    Opened [n] (p ++ '<' :: (n ++ '>' :: t)) := by
  intro front p' q hcs _
  rcases append_cons_cases hcs with ⟨-, rfl⟩ | ⟨w, -, hq⟩ | ⟨w, hw⟩
  · exact ⟨n, List.mem_cons_self, t, rfl⟩
  · have hmem : '<' ∈ n ++ '>' :: t := hq ▸ List.mem_append_right _ List.mem_cons_self
    simp [hn, ht] at hmem
  · exact absurd (hw ▸ List.mem_append_right _ List.mem_cons_self) hp

/-! ### Specializations behind a text -/

/-- The first angle bracket of a text is an opening one. -/
def StartsOpen (cs : List Char) : Prop := ∃ u v, cs = u ++ '<' :: v ∧ '>' ∉ u

/-- A head in a longer text is opened in the part that is new. -/
theorem exists_opens_of_occursFor (ht : IsPlain type) (hsource : occursFor type source = false)
    (hext : StartsOpen ext) {a : List Char} {h : Head type}
    (heq : source ++ ext = a ++ (h.text ++ r)) :
    ∃ p, a ++ h.opening = source ++ p ∧ ext = p ++ '<' :: (h.closing ++ r) := by
  obtain ⟨u, v, rfl, hu⟩ := hext
  have hplace : source ++ (u ++ '<' :: v) = (a ++ h.opening) ++ '<' :: (h.closing ++ r) := by
    rw [heq, h.text_eq]
    simp
  rcases List.append_eq_append_iff.1 hplace with ⟨p, hp, hext⟩ | ⟨w, hw, hrest⟩
  · exact ⟨p, hp, hext⟩
  cases w with
  | nil => exact ⟨[], by rw [hw, List.append_nil, List.append_nil], hrest.symm⟩
  | cons y w =>
    obtain ⟨rfl, hinner⟩ := List.cons.inj (hrest.trans List.cons_append)
    -- the closing part of the head cannot reach the first angle bracket of the new part
    obtain ⟨back, hback, -⟩ := exists_of_append_eq_append_cons (h.angle_not_mem_closing ht)
      (hinner.trans (List.append_assoc w u _).symm)
    have hend : h.closing = (h.beforePath.text ++ (h.name ++ h.behindType.text)) ++ ['>'] := by
      simp [Head.closing, Head.argument]
    rw [hend, List.append_assoc] at hback
    obtain ⟨w', rfl, -⟩ := exists_of_append_cons_eq_append hu hback.symm
    have hhead : source = a ++ (h.text ++ w') := by
      rw [hw, h.text_eq, hend]
      simp
    rw [occursFor_iff.2 ⟨a, h, w', hhead⟩] at hsource
    cases hsource

/-- The name is that of the type, with or without a path in front. -/
def IsNameOf (type n : List Char) : Prop := ∃ path, IsPath path ∧ n = path ++ type

/-- The name that closes a head is a name of its type. -/
theorem isNameOf_of_closing (ht : IsPlain type) {h : Head type} {n t : List Char}
    (hn : n.all isPathChar = true) (heq : h.closing ++ r = n ++ '>' :: t) : IsNameOf type n := by
  have hne : h.name ≠ [] := List.append_ne_nil_of_right_ne_nil _ ht.1
  have hclosing : trimStart (h.closing ++ r) = h.name ++ (h.behindType.text ++ '>' :: r) := by
    rw [Head.closing, Head.argument, List.append_assoc, List.append_assoc,
      List.append_assoc, trimStart_gap_name hne (h.all_name ht), List.singleton_append]
  have hname : trimStart (n ++ '>' :: t) = n ++ '>' :: t := by
    cases n with
    | nil => rfl
    | cons d n => exact trimStart_gap_name (List.cons_ne_nil d n) hn ⟨[], rfl⟩ _
  have hstop : ∀ d ∈ (h.behindType.text ++ '>' :: r).head?, isPathChar d = false := by
    obtain ⟨cs, hcs⟩ := h.behindType
    cases cs with
    | nil => rintro _ ⟨⟩; rfl
    | cons c cs =>
      rintro _ ⟨⟩
      exact isPathChar_of_isBlank (List.all_eq_true.1 hcs c List.mem_cons_self)
  have hsame := congrArg (fun cs => (trimStart cs).takeWhile isPathChar) heq
  simp only [hclosing, hname] at hsame
  rw [takeWhile_append_of_stop (h.all_name ht) hstop,
    takeWhile_append_of_stop hn (by rintro _ ⟨⟩; rfl)] at hsame
  exact ⟨h.path, h.isPath, hsame.symm⟩

/-- **A specialization behind a text without one for its type is found**, when what stands between
opens heads with names of other types only. -/
theorem firstBody?_behind (ht : IsPlain type) (hsource : occursFor type source = false)
    {names : List (List Char)} {between after : List Char} (hbetween : Opened names between)
    (hnames : ∀ n ∈ names, n.all isPathChar = true ∧ ¬IsNameOf type n) (f : Form type)
    (hstart : StartsOpen (between ++ (f.text ++ after))) :
    firstBody? type (source ++ (between ++ (f.text ++ after))) = some f.body := by
  rw [← List.append_assoc]
  refine firstBody?_append_form ht f after fun n hn ⟨f', back, hreads⟩ => ?_
  rw [List.append_assoc] at hreads
  obtain ⟨tail, htail⟩ : ∃ tail, f.text ++ after = f.head.text ++ tail := ⟨_, f.text_append after⟩
  obtain ⟨r, hr⟩ : ∃ r, f'.text ++ back = f'.head.text ++ r := ⟨_, f'.text_append back⟩
  rw [htail] at hreads hstart
  -- a head that starts in front of the specialization
  obtain ⟨a, ha, hhead⟩ : ∃ a : List Char, a.length < (source ++ between).length ∧
      source ++ (between ++ (f.head.text ++ tail)) = a ++ (f'.head.text ++ r) := by
    refine ⟨_, ?_, (List.take_append_drop n _).symm.trans (by rw [← hreads, hr])⟩
    rw [List.length_take]
    omega
  obtain ⟨p, hp, hext⟩ := exists_opens_of_occursFor ht hsource hstart hhead
  have hplace : p ++ '<' :: (f'.head.closing ++ r) =
      (between ++ f.head.opening) ++ '<' :: (f.head.closing ++ tail) := by
    rw [← hext, f.head.text_eq]
    simp
  rcases append_cons_cases hplace with ⟨rfl, -⟩ | ⟨w, hw, hclosing⟩ | ⟨w, rfl⟩
  · obtain rfl := Head.eq_of_append_opening (hp.trans (List.append_assoc _ _ _).symm)
    exact absurd ha (Nat.lt_irrefl _)
  · -- the angle bracket stands between
    obtain ⟨w, rfl, rfl⟩ :=
      exists_of_append_cons_eq_append f.head.angle_not_mem_opening hw.symm
    obtain ⟨name, hname, t, rfl⟩ := hbetween source p w rfl (hp ▸ f'.head.opens a)
    obtain ⟨hpath, hother⟩ := hnames name hname
    simp only [List.append_assoc, List.cons_append] at hclosing
    exact hother (isNameOf_of_closing ht hpath hclosing)
  · -- the angle bracket stands behind the one of the specialization, so that the head does
    have hfar : (source ++ (between ++ f.head.opening)) ++ '<' :: w = a ++ f'.head.opening := by
      rw [hp]
      simp
    obtain ⟨v, rfl, -⟩ := exists_of_append_cons_eq_append f'.head.angle_not_mem_opening hfar
    simp only [List.length_append] at ha
    omega

end RowMapping.Specialization
