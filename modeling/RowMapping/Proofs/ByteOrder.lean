import Mathlib.Data.List.Lex
import Mathlib.Data.String.Basic
import RowMapping.Text.Encoded
/-!
# The order of bytes

Texts are compared character by character.  The UTF-8 form of a greater character is greater from
its first byte that differs, so that comparing the bytes of two texts comes to the same.

* `encode_eq_flatMap`: the bytes of a text are those of its characters;
* `utf8EncodeChar_append_lt`: characters and their bytes;
* `encode_lt_encode_iff`: texts and their bytes.
-/

namespace RowMapping.Text

/-- The bytes of a text are those of its characters, one after the other. -/
theorem encode_eq_flatMap (text : String) :
    encode text = text.toList.flatMap String.utf8EncodeChar := by
  have hbytes : text.toUTF8 = (text.toList.flatMap String.utf8EncodeChar).toByteArray := by
    conv_lhs => rw [← String.ofList_toList (s := text)]
    rfl
  rw [encode, hbytes]
  simp

theorem uint8_ofNat_lt_iff (m n : Nat) : UInt8.ofNat m < UInt8.ofNat n ↔ m % 256 < n % 256 := by
  rw [UInt8.lt_iff_toNat_lt, UInt8.toNat_ofNat', UInt8.toNat_ofNat']

theorem uint8_ofNat_eq_iff (m n : Nat) : UInt8.ofNat m = UInt8.ofNat n ↔ m % 256 = n % 256 := by
  rw [← UInt8.toNat_inj, UInt8.toNat_ofNat', UInt8.toNat_ofNat']

/-- The first of four digits that differs decides which of two numbers is greater. -/
theorem digits_lt {a b c d a' b' c' d' : Nat} (hb : b < 64) (hc : c < 64) (hd : d < 64)
    (hb' : b' < 64) (hc' : c' < 64) (hd' : d' < 64)
    (h : 64 * (64 * (64 * a + b) + c) + d < 64 * (64 * (64 * a' + b') + c') + d') :
    a < a' ∨ a = a' ∧ (b < b' ∨ b = b' ∧ (c < c' ∨ c = c' ∧ d < d')) := by
  have h₃ : 64 * (64 * a + b) + c ≤ 64 * (64 * a' + b') + c' := by omega
  have h₂ : 64 * a + b ≤ 64 * a' + b' := by omega
  have h₁ : a ≤ a' := by omega
  omega

/-- The bytes of a greater character are greater, whatever follows. -/
theorem utf8EncodeChar_append_lt {a b : Char} (h : a < b) (r s : List UInt8) :
    String.utf8EncodeChar a ++ r < String.utf8EncodeChar b ++ s := by
  have hval : a.val.toNat < b.val.toNat := UInt32.lt_iff_toNat_lt.1 (Char.lt_def.1 h)
  have hmax : b.val.toNat < 1114112 := by
    have := b.valid
    unfold UInt32.isValidChar Nat.isValidChar at this
    omega
  unfold String.utf8EncodeChar
  generalize a.val.toNat = m at hval
  generalize b.val.toNat = n at hval hmax
  have hdigits : ∀ k,
      k = 64 * (64 * (64 * (k / 262144) + k / 4096 % 64) + k / 64 % 64) + k % 64 := by
    omega
  have hlex : m / 262144 < n / 262144 ∨ m / 262144 = n / 262144 ∧
      (m / 4096 % 64 < n / 4096 % 64 ∨ m / 4096 % 64 = n / 4096 % 64 ∧
        (m / 64 % 64 < n / 64 % 64 ∨ m / 64 % 64 = n / 64 % 64 ∧ m % 64 < n % 64)) := by
    have hless : ∀ k, k % 64 < 64 := fun k => Nat.mod_lt k (by decide)
    refine digits_lt (hless _) (hless _) (hless _) (hless _) (hless _) (hless _) ?_
    rwa [← hdigits, ← hdigits]
  dsimp only
  split_ifs <;>
    simp (disch := omega) only [List.cons_append, List.nil_append, List.cons_lt_cons_iff,
      uint8_ofNat_lt_iff, uint8_ofNat_eq_iff, Nat.mod_eq_of_lt]
  all_goals omega

theorem flatMap_utf8EncodeChar_lt {cs ds : List Char} (h : cs < ds) :
    cs.flatMap String.utf8EncodeChar < ds.flatMap String.utf8EncodeChar := by
  induction cs generalizing ds with
  | nil =>
    cases ds with
    | nil => exact absurd h (lt_irrefl _)
    | cons d ds =>
      have hne : String.utf8EncodeChar d ≠ [] := by
        intro hnil
        have hlength := congrArg List.length hnil
        rw [String.length_utf8EncodeChar] at hlength
        exact absurd hlength d.utf8Size_pos.ne'
      obtain ⟨first, rest, hd⟩ := List.exists_cons_of_ne_nil hne
      rw [List.flatMap_nil, List.flatMap_cons, hd]
      exact List.nil_lt_cons first _
  | cons c cs ih =>
    cases ds with
    | nil => exact absurd h (List.not_lt_nil _)
    | cons d ds =>
      rw [List.flatMap_cons, List.flatMap_cons]
      rcases List.cons_lt_cons_iff.1 h with hlt | ⟨rfl, hlt⟩
      · exact utf8EncodeChar_append_lt hlt _ _
      · exact List.append_left_lt (ih hlt)

/-- **Texts are in the order of their bytes.** -/
theorem encode_lt_encode_iff {a b : String} : encode a < encode b ↔ a < b := by
  have hlt : ∀ {a b : String}, a < b → encode a < encode b := by
    intro a b h
    rw [encode_eq_flatMap, encode_eq_flatMap]
    exact flatMap_utf8EncodeChar_lt (String.lt_iff_toList_lt.1 h)
  constructor
  · intro h
    rcases lt_trichotomy a b with hab | rfl | hba
    · exact hab
    · exact absurd h (List.lt_irrefl _)
    · exact absurd (hlt hba) (List.lt_asymm h)
  · exact hlt

end RowMapping.Text
