/-!
# Text as bytes

Positions in a line and the room of an output are counted in bytes of the UTF-8 encoding.
-/

namespace LineAsm.Text

/-- The number of bytes in the encoding of a run of characters. -/
def byteCount : List Char → Nat
  | [] => 0
  | c :: cs => c.utf8Size + byteCount cs

/-- The encoding of a text. -/
def encode (text : String) : List UInt8 := text.toList.flatMap String.utf8EncodeChar

/-- The text that some bytes encode, if they encode one. -/
def decode? (bytes : List UInt8) : Option String := String.fromUTF8? ⟨bytes.toArray⟩

/-- The bytes of two runs of characters add up. -/
theorem byteCount_append (left right : List Char) :
    byteCount (left ++ right) = byteCount left + byteCount right := by
  induction left with
  | nil => simp [byteCount]
  | cons c left ih =>
    simp only [List.cons_append, byteCount, ih]
    omega

/-- The encoding of a text has as many bytes as are counted for its characters. -/
theorem length_encode (text : String) : (encode text).length = byteCount text.toList := by
  unfold encode
  induction text.toList with
  | nil => rfl
  | cons c cs ih => simp [byteCount, ih, String.length_utf8EncodeChar]

end LineAsm.Text
