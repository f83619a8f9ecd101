import LevelLink.Bytes

/-!
# Text as bytes

`Utf8.encode` gives the UTF-8 form of a text and `Utf8.decode?` reads it back.  Main statements:
`decode?_encode`, and `encode_of_decode?`: a byte string is the form of at most one text.
-/

namespace LevelLink.Utf8

/-- The UTF-8 form of a text. -/
def encode (s : String) : Bytes := s.toByteArray.data.toList

/-- The text that `bs` is the UTF-8 form of, if there is one. -/
def decode? (bs : Bytes) : Option String := String.fromUTF8? ⟨bs.toArray⟩

@[simp] theorem decode?_encode (s : String) : decode? (encode s) = some s := by
  simp only [decode?, encode, Array.toArray_toList]
  exact dif_pos s.isValidUTF8

theorem encode_of_decode? {bs : Bytes} {s : String} (h : decode? bs = some s) : encode s = bs := by
  unfold decode? String.fromUTF8? at h
  split at h
  · obtain rfl := Option.some.inj h
    rfl
  · simp at h

end LevelLink.Utf8
