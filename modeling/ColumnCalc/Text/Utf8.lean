/-!
# Bytes of texts

Files hold bytes; a text is the bytes of its characters in UTF-8, and `decode?` gives back exactly
the texts that were encoded (`decode?_eq_some_iff`). An offset in bytes may lie within a character;
`slice?` cuts a text only where none does (`slice?_eq_some_iff`).
-/

namespace ColumnCalc

abbrev Bytes := List UInt8

namespace Text

def encode (text : String) : Bytes :=
  text.toByteArray.data.toList

/-- The text of bytes in UTF-8. -/
def decode? (bytes : Bytes) : Option String :=
  String.fromUTF8? bytes.toByteArray

/-- The end of the longest run of whole characters from `i` on. -/
def validEnd (bytes : ByteArray) (i : Nat) : Nat :=
  if i < bytes.size then
    match bytes.utf8DecodeChar? i with
    | some c => validEnd bytes (i + c.utf8Size)
    | none => i
  else i
termination_by bytes.size - i
decreasing_by
  have := c.utf8Size_pos
  omega

/-- How many bytes at the front are whole characters. -/
def validLength (bytes : Bytes) : Nat :=
  validEnd bytes.toByteArray 0

/-- Whether an offset lies between two characters of a text, or at one of its ends. -/
def isBoundary (text : String) (offset : Nat) : Bool :=
  String.Pos.Raw.isValid text ⟨offset⟩

/--
The part of a text between two offsets. There is none if they are out of order or if one of them is
no boundary.
-/
def slice? (text : String) (start stop : Nat) : Option String :=
  if start ≤ stop && isBoundary text start && isBoundary text stop then
    decode? (((encode text).take stop).drop start)
  else none

@[simp]
theorem toByteArray_encode (text : String) : (encode text).toByteArray = text.toByteArray := by
  apply ByteArray.ext
  simp [encode, List.data_toByteArray]

@[simp]
theorem encode_append (s t : String) : encode (s ++ t) = encode s ++ encode t := by
  simp [encode, String.toByteArray_append]

theorem decode?_eq_some_iff {bytes : Bytes} {text : String} :
    decode? bytes = some text ↔ bytes = encode text := by
  constructor
  · intro h
    simp only [decode?, String.fromUTF8?] at h
    split at h
    · rw [← Option.some.inj h, encode, String.fromUTF8]
      simp [List.data_toByteArray]
    · cases h
  · rintro rfl
    simp only [decode?, String.fromUTF8?, toByteArray_encode]
    rw [dif_pos text.isValidUTF8]
    rfl

theorem encode_inj {s t : String} : encode s = encode t ↔ s = t := by
  constructor
  · intro h
    have hs := decode?_eq_some_iff.mpr (rfl : encode s = encode s)
    rw [decode?_eq_some_iff.mpr h] at hs
    exact (Option.some.inj hs).symm
  · exact congrArg encode

@[simp]
theorem length_encode (text : String) : (encode text).length = text.utf8ByteSize := by
  simp [encode, ← String.size_toByteArray, ← ByteArray.size_data]

theorem isBoundary_iff {text : String} {offset : Nat} :
    isBoundary text offset = true ↔
      ∃ front rest, text = front ++ rest ∧ offset = front.utf8ByteSize := by
  rw [isBoundary, String.Pos.Raw.isValid_eq_true_iff, String.Pos.Raw.isValid_iff_exists_append]
  simp [String.Pos.Raw.ext_iff]

theorem slice?_eq_some_iff {text part : String} {start stop : Nat} :
    slice? text start stop = some part ↔ ∃ front rest, text = front ++ part ++ rest ∧
      start = front.utf8ByteSize ∧ stop = front.utf8ByteSize + part.utf8ByteSize := by
  constructor
  · intro h
    unfold slice? at h
    split at h
    · rename_i hbounds
      simp only [Bool.and_eq_true, decide_eq_true_eq, isBoundary_iff] at hbounds
      obtain ⟨⟨hle, front, _, hstart, rfl⟩, front', rest, hstop, rfl⟩ := hbounds
      have htake : (encode text).take front'.utf8ByteSize = encode front' := by
        rw [hstop, encode_append, ← length_encode, List.take_left]
      have hfront : (encode front').take front.utf8ByteSize = encode front := by
        rw [← htake, List.take_take, Nat.min_eq_left hle, hstart, encode_append, ← length_encode,
          List.take_left]
      obtain rfl : front' = front ++ part := by
        rw [← encode_inj, encode_append, ← decode?_eq_some_iff.mp h, htake, ← hfront,
          List.take_append_drop]
      exact ⟨front, rest, hstop, rfl, String.utf8ByteSize_append⟩
    · cases h
  · rintro ⟨front, rest, rfl, rfl, rfl⟩
    have hstart : isBoundary (front ++ part ++ rest) front.utf8ByteSize = true :=
      isBoundary_iff.mpr ⟨front, part ++ rest, String.append_assoc, rfl⟩
    have hstop : isBoundary (front ++ part ++ rest)
        (front.utf8ByteSize + part.utf8ByteSize) = true :=
      isBoundary_iff.mpr ⟨front ++ part, rest, rfl, String.utf8ByteSize_append.symm⟩
    simp only [slice?, hstart, hstop, Nat.le_add_right, decide_true, Bool.and_self, if_true]
    rw [decode?_eq_some_iff, encode_append, encode_append, ← length_encode, ← length_encode,
      ← List.length_append, List.take_left, List.drop_left]

/-- The first character takes two bytes. -/
example : slice? "µs" 1 3 = none := by decide

end Text

end ColumnCalc
