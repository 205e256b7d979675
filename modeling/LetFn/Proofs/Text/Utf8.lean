import LetFn.Command.FileTree

namespace LetFn

/-- The bytes that `chars` are written in. -/
def utf8Bytes (chars : List Char) : List UInt8 :=
  chars.flatMap String.utf8EncodeChar

theorem utf8Bytes_cons (c : Char) (chars : List Char) :
    utf8Bytes (c :: chars) = String.utf8EncodeChar c ++ utf8Bytes chars :=
  List.flatMap_cons

theorem decodeUtf8_utf8Bytes (chars : List Char) : decodeUtf8 (utf8Bytes chars) = .ok (String.ofList chars) := by
  have valid : (utf8Bytes chars).toByteArray.IsValidUTF8 := .intro chars rfl
  have decoded : String.fromUTF8? (utf8Bytes chars).toByteArray = some (String.ofList chars) := dif_pos valid
  rw [decodeUtf8, decoded]

/-- Bytes that are a text at all are the bytes of that text. -/
theorem eq_utf8Bytes_of_decodeUtf8 {bytes : List UInt8} {text : String} (decoded : decodeUtf8 bytes = .ok text) :
    bytes = utf8Bytes text.toList := by
  by_cases valid : bytes.toByteArray.IsValidUTF8
  · have found : String.fromUTF8? bytes.toByteArray = some (.fromUTF8 _ valid) := dif_pos valid
    rw [decodeUtf8, found] at decoded
    cases decoded
    have same : (String.fromUTF8 _ valid).toByteArray = bytes.toByteArray := rfl
    exact List.toByteArray_inj.mp (same.symm.trans String.utf8Encode_toList.symm)
  · have none : String.fromUTF8? bytes.toByteArray = none := dif_neg valid
    rw [decodeUtf8, none] at decoded
    cases decoded

/-- Among the bytes of a character there is that of a newline only if it is one. -/
theorem eq_newline_of_mem {c : Char} (member : 10 ∈ String.utf8EncodeChar c) : c = '\n' := by
  have value {n : Nat} (bound : n < 256) (same : (10 : UInt8) = UInt8.ofNat n) : n = 10 := by
    have values := congrArg UInt8.toNat same
    rw [UInt8.toNat_ofNat_of_lt' bound] at values
    exact values.symm
  have high {n : Nat} (low : 128 ≤ n) (bound : n < 256) : (10 : UInt8) ≠ UInt8.ofNat n := fun same => by
    have ten := value bound same
    omega
  rw [String.utf8EncodeChar.eq_1] at member
  split at member
  · have ten := value (by omega) (List.mem_singleton.mp member)
    exact Char.ext (UInt32.toNat_inj.mp ten)
  · exfalso
    revert member
    -- A character of several bytes has none that could stand alone.
    split
    · simp only [List.mem_cons, List.not_mem_nil, or_false, not_or, imp_false]
      exact ⟨high (by omega) (by omega), high (by omega) (by omega)⟩
    · split <;> simp only [List.mem_cons, List.not_mem_nil, or_false, not_or, imp_false]
      · exact ⟨high (by omega) (by omega), high (by omega) (by omega), high (by omega) (by omega)⟩
      · exact ⟨high (by omega) (by omega), high (by omega) (by omega), high (by omega) (by omega),
          high (by omega) (by omega)⟩

end LetFn
