/-!
# UTF-8

Texts as bytes.  Offsets and writers count bytes, and what is read from outside
arrives as bytes that need not be a text at all.

Main results:

- Theorem `length_encode`: a text has as many bytes as its characters are wide.
- Theorem `encode_append`: encoding goes character by character.
- Theorem `decode?_eq_some_iff`: bytes are a text exactly when they are its encoding.
-/

namespace MonkeyTokens.Utf8

/-- The number of bytes that some characters take. -/
def width : List Char → Nat
  | [] => 0
  | c :: chars => c.utf8Size + width chars

/-- The bytes of a text. -/
def encode (text : String) : List UInt8 :=
  text.toList.flatMap String.utf8EncodeChar

/-- The text with the given bytes, if they are well-formed. -/
def decode? (bytes : List UInt8) : Option String :=
  String.fromUTF8? bytes.toByteArray

/-! ## Widths -/

@[simp]
theorem width_nil : width [] = 0 :=
  rfl

@[simp]
theorem width_cons (c : Char) (chars : List Char) :
    width (c :: chars) = c.utf8Size + width chars :=
  rfl

@[simp]
theorem width_append (a b : List Char) : width (a ++ b) = width a + width b := by
  induction a with
  | nil => simp
  | cons c a ih => simp [ih, Nat.add_assoc]

/-- A text has as many bytes as its characters are wide. -/
theorem length_encode (text : String) : (encode text).length = width text.toList := by
  unfold encode
  induction text.toList with
  | nil => rfl
  | cons c chars ih => simp [ih]

/-- Encoding goes character by character. -/
theorem encode_append (a b : String) : encode (a ++ b) = encode a ++ encode b := by
  simp [encode]

/-- Encoding a list of texts encodes each of them. -/
theorem encode_join (texts : List String) :
    encode (String.join texts) = texts.flatMap encode := by
  induction texts with
  | nil => rfl
  | cons text texts ih => simp [encode_append, ih]

/-! ## Reading bytes -/

/-- The bytes of a text are those that its string is stored as. -/
theorem toByteArray_encode (text : String) : (encode text).toByteArray = text.toByteArray := by
  conv => rhs; rw [← String.ofList_toList (s := text), String.toByteArray_ofList]
  rfl

/-- Byte arrays are equal only if they are made of the same bytes. -/
theorem toByteArray_injective {a b : List UInt8} (h : a.toByteArray = b.toByteArray) :
    a = b := by
  rw [← List.toList_data_toByteArray (l := a), h, List.toList_data_toByteArray]

/-- Bytes are a text exactly when they are its encoding. -/
theorem decode?_eq_some_iff {bytes : List UInt8} {text : String} :
    decode? bytes = some text ↔ bytes = encode text := by
  have hmk (h : bytes.toByteArray.IsValidUTF8) :
      String.fromUTF8 bytes.toByteArray h = text ↔ bytes.toByteArray = text.toByteArray := by
    rw [← String.toByteArray_inj]
    rfl
  constructor
  · intro h
    unfold decode? String.fromUTF8? at h
    split at h
    · rename_i hvalid
      have hbytes := (hmk hvalid).mp (Option.some.inj h)
      exact toByteArray_injective (hbytes.trans (toByteArray_encode text).symm)
    · cases h
  · intro h
    subst h
    have hvalid : (encode text).toByteArray.IsValidUTF8 := by
      rw [toByteArray_encode]
      exact text.isValidUTF8
    unfold decode? String.fromUTF8?
    rw [dif_pos hvalid, (hmk hvalid).mpr (toByteArray_encode text)]

end MonkeyTokens.Utf8
