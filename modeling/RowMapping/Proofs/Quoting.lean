import RowMapping.Text.Quoted
/-!
# Reading quoted texts

The generated code holds the texts of the annotations as literals.  A literal stands for the text
that it was written for, so no two texts have the same literal.

* `unescape?`, `unquote?`: reading a literal;
* `unescape?_quotedChar`: reading one written character;
* `unquote?_quote`: reading what was written.
-/

namespace RowMapping.Text

/-- The digit that a hexadecimal digit stands for. -/
def hexDigit? (c : Char) : Option Nat :=
  (List.range 16).find? fun n => Nat.digitChar n == c

/-- The character that a backslash with one letter stands for. -/
def shortEscape? : Char → Option Char
  | '"' => some '"'
  | '\\' => some '\\'
  | 'b' => some '\x08'
  | 't' => some '\t'
  | 'n' => some '\n'
  | 'f' => some '\x0c'
  | 'r' => some '\r'
  | _ => none

/-- The text that stands before the closing quote of a literal. -/
def unescape? : List Char → Option (List Char)
  | ['"'] => some []
  | '\\' :: 'u' :: '0' :: '0' :: high :: low :: rest => do
    let text ← unescape? rest
    return Char.ofNat ((← hexDigit? high) * 16 + (← hexDigit? low)) :: text
  | '\\' :: c :: rest => do
    let text ← unescape? rest
    return (← shortEscape? c) :: text
  | c :: rest => if c = '"' then none else (unescape? rest).map (c :: ·)
  | [] => none

/-- The text that a literal stands for. -/
def unquote? (literal : String) : Option String :=
  match literal.toList with
  | '"' :: rest => (unescape? rest).map String.ofList
  | _ => none

theorem unescape?_controlEscape {c : Char} (hc : c.toNat < 32) (rest : List Char) :
    unescape? (controlEscape c ++ rest) = (unescape? rest).map (c :: ·) := by
  have hdigits : ∀ n < 32, hexDigit? (Nat.digitChar (n / 16)) = some (n / 16) ∧
      hexDigit? (Nat.digitChar (n % 16)) = some (n % 16) := by decide
  obtain ⟨hhigh, hlow⟩ := hdigits c.toNat hc
  have hcode : c.toNat / 16 * 16 + c.toNat % 16 = c.toNat := by omega
  have hread : unescape? (controlEscape c ++ rest) = do
      let text ← unescape? rest
      return Char.ofNat ((← hexDigit? (Nat.digitChar (c.toNat / 16))) * 16 +
        (← hexDigit? (Nat.digitChar (c.toNat % 16)))) :: text := rfl
  rw [hread, hhigh, hlow]
  cases unescape? rest with
  | none => rfl
  | some text =>
    change some (Char.ofNat (c.toNat / 16 * 16 + c.toNat % 16) :: text) = some (c :: text)
    rw [hcode, Char.ofNat_toNat]

theorem unescape?_of_plain {c : Char} (hquote : c ≠ '"') (hslash : c ≠ '\\') (rest : List Char) :
    unescape? (c :: rest) = (unescape? rest).map (c :: ·) := by
  cases rest with
  | nil => simp [unescape?, hquote]
  | cons d rest => simp [unescape?, hquote, hslash]

theorem unescape?_shortEscape {d c : Char} (h : shortEscape? d = some c) (rest : List Char) :
    unescape? ('\\' :: d :: rest) = (unescape? rest).map (c :: ·) := by
  rw [unescape?, h]
  · cases unescape? rest <;> rfl
  · -- the general escape begins with a letter that is no short escape
    rintro high low rest' rfl
    simp [shortEscape?] at h

/-- A character is read back, and the rest is read on. -/
theorem unescape?_quotedChar (c : Char) (rest : List Char) :
    unescape? (quotedChar c ++ rest) = (unescape? rest).map (c :: ·) := by
  unfold quotedChar
  split
  case h_8 c hquote hslash _ _ _ _ _ =>
    split
    · next hc => exact unescape?_controlEscape hc rest
    · exact unescape?_of_plain hquote hslash rest
  all_goals exact unescape?_shortEscape rfl rest

theorem unescape?_quoted (text rest : List Char) :
    unescape? (text.flatMap quotedChar ++ rest) = (unescape? rest).map (text ++ ·) := by
  induction text with
  | nil => simp
  | cons c text ih =>
    rw [List.flatMap_cons, List.append_assoc, unescape?_quotedChar, ih, Option.map_map]
    rfl

/-- **A literal stands for the text that it was written for.** -/
theorem unquote?_quote (text : String) : unquote? (quote text) = some text := by
  have hread : unescape? (text.toList.flatMap quotedChar ++ ['"']) = some text.toList := by
    rw [unescape?_quoted]
    simp [unescape?]
  rw [unquote?, quote, String.toList_ofList, List.cons_append]
  simp [hread]

theorem quote_injective : Function.Injective quote := by
  intro a b h
  exact Option.some.inj (by rw [← unquote?_quote a, ← unquote?_quote b, h])

end RowMapping.Text
