import RowMapping.Text.Bytes
/-!
# Loops over positions

A reader that keeps positions can go wrong where one that keeps what lies ahead cannot: it may read
out of range, count below zero, or stay where it is.

* `Fault`: what stops such a reader;
* `elementAt`, `segment`, `Text.checkedSlice`, `decrement`: reads and counts that are checked;
* `Turn`, `Loop`: a loop whose turns go forward, and no further than a bound;
* `Advances`: going forward, said of turns;
* `Loop.run`: the result of a loop.

Main statements: `Loop.run_ok`, what every turn keeps holds of a result, and there is one when no turn
has a fault; `Loop.of_run_eq_ok`, the same for a loop that is known to have a result.
-/

namespace RowMapping

/-- What stops a reader: a read out of range, or a count below zero. -/
inductive Fault
  | outOfRange
  | belowZero
  deriving DecidableEq, Repr

/-! ### Checked reads -/

section

variable {α β : Type}

@[simp] theorem ok_bind (a : α) (f : α → Except Fault β) : (Except.ok a >>= f) = f a := rfl

theorem bind_eq_ok_iff {x : Except Fault α} {f : α → Except Fault β} {b : β} :
    (x >>= f) = .ok b ↔ ∃ a, x = .ok a ∧ f a = .ok b := by
  cases x with
  | error fault => simp [bind, Except.bind]
  | ok a => simp

/-- The element at a position. -/
def elementAt (xs : List α) (i : Nat) : Except Fault α :=
  match xs[i]? with
  | some x => .ok x
  | none => .error .outOfRange

/-- The elements between two positions. -/
def segment (start stop : Nat) (xs : List α) : Except Fault (List α) :=
  if start ≤ stop ∧ stop ≤ xs.length then .ok ((xs.drop start).take (stop - start))
  else .error .outOfRange

/-- One less. -/
def decrement : Nat → Except Fault Nat
  | 0 => .error .belowZero
  | n + 1 => .ok n

theorem elementAt_eq_ok {xs : List α} {i : Nat} {x : α} (h : xs[i]? = some x) :
    elementAt xs i = .ok x := by
  rw [elementAt, h]

theorem segment_eq_ok {xs : List α} {start stop : Nat} (horder : start ≤ stop)
    (hstop : stop ≤ xs.length) :
    segment start stop xs = .ok ((xs.drop start).take (stop - start)) :=
  if_pos ⟨horder, hstop⟩

/-- All elements from a position on. -/
theorem segment_length {xs : List α} {start : Nat} (h : start ≤ xs.length) :
    segment start xs.length xs = .ok (xs.drop start) := by
  rw [segment_eq_ok h (Nat.le_refl _), List.take_of_length_le (Nat.le_of_eq List.length_drop)]

/-- All elements up to a position. -/
theorem segment_zero {xs : List α} {stop : Nat} (h : stop ≤ xs.length) :
    segment 0 stop xs = .ok (xs.take stop) := by
  rw [segment_eq_ok (Nat.zero_le stop) h, List.drop_zero, Nat.sub_zero]

end

namespace Text

/-- A position lies between two characters of a text, or at an end of it. -/
def isBoundary : Nat → List Char → Bool
  | 0, _ => true
  | _ + 1, [] => false
  | n + 1, c :: cs => c.utf8Size ≤ n + 1 && isBoundary (n + 1 - c.utf8Size) cs

/-- The text between two positions. -/
def checkedSlice (start stop : Nat) (cs : List Char) : Except Fault (List Char) :=
  if start ≤ stop ∧ isBoundary start cs = true ∧ isBoundary stop cs = true then
    .ok (slice start stop cs)
  else .error .outOfRange

theorem isBoundary_append (a b : List Char) : isBoundary (byteLength a) (a ++ b) = true := by
  induction a with
  | nil => simp [isBoundary]
  | cons c a ih =>
    have hc := c.utf8Size_pos
    obtain ⟨n, hn⟩ := Nat.exists_eq_succ_of_ne_zero (show c.utf8Size + byteLength a ≠ 0 by omega)
    rw [byteLength_cons, List.cons_append, hn, isBoundary,
      show n + 1 = c.utf8Size + byteLength a from hn.symm, Nat.add_sub_cancel_left, ih]
    simp

/-- The text from a position in front of another one is read without a fault. -/
theorem checkedSlice_append (a b c : List Char) :
    checkedSlice (byteLength a) (byteLength (a ++ b)) (a ++ b ++ c) = .ok b := by
  have hslice : slice (byteLength a) (byteLength (a ++ b)) (a ++ b ++ c) = b := by
    rw [byteLength_append, slice_append]
  have hstart : isBoundary (byteLength a) (a ++ b ++ c) = true := by
    rw [List.append_assoc]
    exact isBoundary_append a (b ++ c)
  rw [checkedSlice, if_pos ⟨by simp, hstart, isBoundary_append (a ++ b) c⟩, hslice]

end Text

/-! ### Loops -/

/-- What a turn of a loop comes to: the result, or another turn, whose result is still to be
finished. -/
inductive Turn (σ α : Type)
  | done (result : α)
  | again (state : σ) (finish : α → α)

/-- A loop over positions.  Every turn after which there is another one moves the position forward,
and starts in front of a bound. -/
structure Loop (σ α : Type) where
  turn : σ → Except Fault (Turn σ α)
  index : σ → Nat
  bound : Nat
  forward {s s' : σ} {finish : α → α} :
    turn s = .ok (.again s' finish) → index s < index s' ∧ index s < bound

/-- Every turn after which there is another one moves the position forward. -/
def Advances {σ α : Type} (turn : σ → Except Fault (Turn σ α)) (index : σ → Nat) : Prop :=
  ∀ s s' finish, turn s = .ok (.again s' finish) → index s < index s'

namespace Loop

variable {σ α : Type} {l : Loop σ α} {s s' : σ} {a : α} {finish : α → α}

theorem advances (l : Loop σ α) : Advances l.turn l.index := fun _ _ _ h => (l.forward h).1

/-- The result of a loop: its turns follow each other, and end because the position cannot go
forward for ever. -/
def run (l : Loop σ α) (s : σ) : Except Fault α :=
  match _h : l.turn s with
  | .error fault => .error fault
  | .ok (.done a) => .ok a
  | .ok (.again s' finish) => (run l s').map finish
termination_by l.bound - l.index s
decreasing_by
  have := l.forward _h
  omega

/-- The turn from `s` has no fault.  It ends in a result as `P` wants it, or leads to a state with
`I` from which such a result, when it is finished, is one for `s`. -/
def Keeps (l : Loop σ α) (I : σ → Prop) (P : σ → α → Prop) (s : σ) : Prop :=
  (∃ a, l.turn s = .ok (.done a) ∧ P s a) ∨
    ∃ s' finish, l.turn s = .ok (.again s' finish) ∧ I s' ∧ ∀ a, P s' a → P s (finish a)

theorem Keeps.done {I : σ → Prop} {P : σ → α → Prop} (h : l.turn s = .ok (.done a)) (ha : P s a) :
    l.Keeps I P s := .inl ⟨a, h, ha⟩

theorem Keeps.again {I : σ → Prop} {P : σ → α → Prop} (h : l.turn s = .ok (.again s' finish))
    (hs' : I s') (hfinish : ∀ a, P s' a → P s (finish a)) : l.Keeps I P s :=
  .inr ⟨s', finish, h, hs', hfinish⟩

/-- **A loop does what each of its turns does.**  When every turn from a state with `I` keeps the
condition, a loop that starts in such a state is over without a fault, and its result is as `P`
wants it. -/
theorem run_ok {I : σ → Prop} {P : σ → α → Prop} (h : ∀ s, I s → l.Keeps I P s)
    (s : σ) (hs : I s) : ∃ a, l.run s = .ok a ∧ P s a := by
  fun_induction run l s with
  | case1 s fault hturn => rcases h s hs with ⟨a, h, -⟩ | ⟨s', finish, h, -⟩ <;> simp [hturn] at h
  | case2 s a hturn =>
    rcases h s hs with ⟨b, h, hb⟩ | ⟨s', finish, h, -⟩
    · rw [hturn] at h
      cases h
      exact ⟨a, rfl, hb⟩
    · simp [hturn] at h
  | case3 s s' finish hturn ih =>
    rcases h s hs with ⟨a, h, -⟩ | ⟨s'', finish', h, hs', hfinish⟩
    · simp [hturn] at h
    · rw [hturn] at h
      cases h
      obtain ⟨a, hrun, ha⟩ := ih hs'
      exact ⟨finish a, by rw [hrun]; rfl, hfinish a ha⟩

/-- A loop whose turns keep the equation with `f` computes `f`. -/
theorem run_eq {f : σ → α} (h : ∀ s, l.Keeps (fun _ => True) (fun s a => a = f s) s) (s : σ) :
    l.run s = .ok (f s) := by
  obtain ⟨a, hrun, rfl⟩ := run_ok (fun s _ => h s) s trivial
  exact hrun

/-- A condition that every turn keeps holds of the result of a loop that is over without a fault. -/
theorem of_run_eq_ok {P : σ → α → Prop}
    (hdone : ∀ s a, l.turn s = .ok (.done a) → P s a)
    (hagain : ∀ s s' finish a, l.turn s = .ok (.again s' finish) → P s' a → P s (finish a))
    (h : l.run s = .ok a) : P s a := by
  fun_induction run l s generalizing a with
  | case1 => cases h
  | case2 s b hturn =>
    cases h
    exact hdone s b hturn
  | case3 s s' finish hturn ih =>
    cases hrun : l.run s' with
    | error fault => simp [hrun, Except.map] at h
    | ok b =>
      rw [hrun] at h
      cases h
      exact hagain s s' finish b hturn (ih hrun)

end Loop

end RowMapping
