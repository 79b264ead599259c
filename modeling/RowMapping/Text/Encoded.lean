/-!
# Texts as bytes

A file holds a text in its UTF-8 form.  Not all bytes are the form of a text.

* `encode`: the bytes of a text;
* `decode?`: the text of some bytes.

Main statement: `decode?_eq_some_iff`, the bytes of a text are read back, and no others are.
-/

namespace RowMapping.Text

/-- The bytes of a text. -/
def encode (text : String) : List UInt8 := text.toUTF8.data.toList

/-- The text whose bytes these are, if there is one. -/
def decode? (bytes : List UInt8) : Option String := String.fromUTF8? ⟨bytes.toArray⟩

@[simp] theorem decode?_encode (text : String) : decode? (encode text) = some text := by
  unfold decode? encode String.fromUTF8?
  split
  · rfl
  · rename_i h
    exact absurd text.isValidUTF8 h

/-- The bytes of a text are read back, and no others are. -/
theorem decode?_eq_some_iff {bytes : List UInt8} {text : String} :
    decode? bytes = some text ↔ bytes = encode text := by
  constructor
  · intro h
    unfold decode? String.fromUTF8? at h
    split at h
    · cases h
      rfl
    · simp at h
  · rintro rfl
    exact decode?_encode text

end RowMapping.Text
