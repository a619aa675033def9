import AuditTrail.Json.Bytes
import AuditTrail.Proofs.Text.Bytes
/-! # Bytes of a text

The bytes of a text have no stray ones among them, so they are read as the text. -/

namespace AuditTrail.Json
set_option autoImplicit false

/-- The character that some bytes begin with is found in the first four of them. -/
theorem utf8DecodeChar?_take (c : Char) (rest : List UInt8) :
    ((String.utf8EncodeChar c ++ rest).take 4).toByteArray.utf8DecodeChar? 0 = some c := by
  have hsize : (String.utf8EncodeChar c).length ≤ 4 := by
    rw [String.length_utf8EncodeChar]
    exact c.utf8Size_le_four
  rw [List.take_append, List.take_of_length_le hsize, List.toByteArray_append]
  exact ByteArray.utf8DecodeChar?_utf8EncodeChar_append

theorem charsOf_encodeChar (c : Char) (rest : List UInt8) :
    charsOf (String.utf8EncodeChar c ++ rest) = c :: charsOf rest := by
  have hfound := utf8DecodeChar?_take c rest
  have hlength := String.length_utf8EncodeChar c
  cases hbytes : String.utf8EncodeChar c with
  | nil =>
    rw [hbytes] at hlength
    exact absurd hlength.symm (Nat.ne_of_gt c.utf8Size_pos)
  | cons b others =>
    rw [hbytes, List.cons_append] at hfound
    rw [hbytes, List.length_cons] at hlength
    rw [List.cons_append, charsOf, hfound]
    simp only
    rw [← hlength, Nat.add_sub_cancel, List.drop_left]

theorem charsOf_toUTF8 (s : String) : charsOf s.toUTF8.data.toList = s.toList := by
  have hchars : ∀ cs : List Char, charsOf (cs.flatMap String.utf8EncodeChar) = cs := by
    intro cs
    induction cs with
    | nil => rw [List.flatMap_nil, charsOf]
    | cons c cs ih => rw [List.flatMap_cons, charsOf_encodeChar, ih]
  rw [← String.ofList_toList (s := s), Text.utf8_ofList, hchars, String.ofList_toList]

theorem readBytes_toUTF8 (s : String) : readBytes s.toUTF8 = (readFront s.toList).1 := by
  rw [readBytes, charsOf_toUTF8]

end AuditTrail.Json
