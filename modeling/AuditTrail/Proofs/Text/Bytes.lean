/-! # Texts as bytes

The bytes of a text in UTF-8 determine the text, and stay as they are when they are taken from an
array to a list. A text without control characters has no bytes that look like one. A carriage return
at the end of the bytes is one at the end of the text (`fromUTF8?_append_return`). -/

namespace AuditTrail.Text
set_option autoImplicit false

theorem utf8_ofList (cs : List Char) :
    (String.ofList cs).toUTF8.data.toList = cs.flatMap String.utf8EncodeChar := by
  change cs.utf8Encode.data.toList = _
  rw [List.utf8Encode, List.toList_data_toByteArray]

theorem fromUTF8?_toUTF8 (s : String) : String.fromUTF8? s.toUTF8 = some s := by
  have hvalid : s.toUTF8.IsValidUTF8 := s.isValidUTF8
  rw [String.fromUTF8?, dif_pos hvalid]
  rfl

theorem fromUTF8?_eq_some_iff {bytes : ByteArray} {s : String} :
    String.fromUTF8? bytes = some s ↔ s.toUTF8 = bytes := by
  constructor
  · intro h
    rw [String.fromUTF8?] at h
    split at h
    · cases h
      rfl
    · cases h
  · rintro rfl
    exact fromUTF8?_toUTF8 s

/-- Texts without the control characters that have a code below the blank. -/
def NoControls (cs : List Char) : Prop := ∀ c ∈ cs, 32 ≤ c.toNat

instance (cs : List Char) : Decidable (NoControls cs) :=
  decidable_of_iff (cs.all (fun c => Nat.ble 32 c.toNat) = true) (by simp [NoControls])

theorem le_toNat_ofNat {n : Nat} (h : 32 ≤ n) (hn : n < 256) : 32 ≤ (UInt8.ofNat n).toNat := by
  rw [UInt8.toNat_ofNat', Nat.mod_eq_of_lt hn]
  exact h

theorem le_of_mem_utf8EncodeChar {c : Char} (hc : 32 ≤ c.toNat) {b : UInt8}
    (hb : b ∈ String.utf8EncodeChar c) : 32 ≤ b.toNat := by
  have hv : 32 ≤ c.val.toNat := hc
  rw [String.utf8EncodeChar] at hb
  split at hb
  · rw [List.mem_singleton] at hb
    rw [hb]
    exact le_toNat_ofNat hv (by omega)
  · have hhigh : ∀ n < 256, 128 ≤ n → b = UInt8.ofNat n → 32 ≤ b.toNat := by
      intro n hn hle h
      rw [h]
      exact le_toNat_ofNat (by omega) hn
    split at hb
    · simp only [List.mem_cons, List.not_mem_nil, or_false] at hb
      rcases hb with h | h <;> exact hhigh _ (by omega) (by omega) h
    · split at hb
      · simp only [List.mem_cons, List.not_mem_nil, or_false] at hb
        rcases hb with h | h | h <;> exact hhigh _ (by omega) (by omega) h
      · simp only [List.mem_cons, List.not_mem_nil, or_false] at hb
        rcases hb with h | h | h | h <;> exact hhigh _ (by omega) (by omega) h

/-- A text without control characters has no bytes below the blank. -/
theorem NoControls.le_of_mem {cs : List Char} (h : NoControls cs) {b : UInt8}
    (hb : b ∈ cs.flatMap String.utf8EncodeChar) : 32 ≤ b.toNat := by
  obtain ⟨c, hc, hbc⟩ := List.mem_flatMap.mp hb
  exact le_of_mem_utf8EncodeChar (h c hc) hbc

theorem NoControls.cons {c : Char} {cs : List Char} (hc : 32 ≤ c.toNat) (hcs : NoControls cs) :
    NoControls (c :: cs) := by
  intro d hd
  rcases List.mem_cons.mp hd with h | h
  · rw [h]
    exact hc
  · exact hcs d h

theorem NoControls.append {cs ds : List Char} (hc : NoControls cs) (hd : NoControls ds) :
    NoControls (cs ++ ds) := by
  intro c h
  rcases List.mem_append.mp h with h | h
  · exact hc c h
  · exact hd c h

/-! ## A carriage return at the end -/

/-- No character but the carriage return has the byte of the carriage return. -/
theorem eq_return_of_mem {c : Char} (h : (13 : UInt8) ∈ String.utf8EncodeChar c) : c = '\r' := by
  have hlow : c.val.toNat < 32 := by
    refine Nat.lt_of_not_le fun hle => ?_
    exact absurd (le_of_mem_utf8EncodeChar hle h) (by decide)
  rw [String.utf8EncodeChar, if_pos (by omega), List.mem_singleton] at h
  have hcode := congrArg UInt8.toNat h
  rw [UInt8.toNat_ofNat', Nat.mod_eq_of_lt (by omega)] at hcode
  exact Char.toNat_inj.mp (hcode.symm.trans rfl)

/-- The text of some bytes and a carriage return is the text of the bytes and the character. -/
theorem fromUTF8?_append_return (bytes : List UInt8) :
    String.fromUTF8? ⟨(bytes ++ [13]).toArray⟩ =
      (String.fromUTF8? ⟨bytes.toArray⟩).map (· ++ String.singleton '\r') := by
  refine Option.ext fun text => ?_
  rw [Option.map_eq_some_iff]
  simp only [fromUTF8?_eq_some_iff]
  constructor
  · intro h
    have hbytes : text.toList.flatMap String.utf8EncodeChar = bytes ++ [13] := by
      rw [← utf8_ofList, String.ofList_toList, h]
    rcases List.eq_nil_or_concat text.toList with hnil | ⟨cs, c, hcs⟩
    · rw [hnil] at hbytes
      exact absurd hbytes.symm (List.append_ne_nil_of_right_ne_nil _ (List.cons_ne_nil _ _))
    · rw [List.concat_eq_append] at hcs
      rw [hcs, List.flatMap_append, List.flatMap_singleton] at hbytes
      have hlast : (String.utf8EncodeChar c).getLast? = some 13 := by
        have h := congrArg List.getLast? hbytes
        rwa [List.getLast?_append, List.getLast?_eq_some_getLast String.utf8EncodeChar_ne_nil,
          Option.some_or, ← List.getLast?_eq_some_getLast, List.getLast?_concat] at h
      obtain rfl := eq_return_of_mem (List.mem_of_getLast? hlast)
      refine ⟨String.ofList cs, ByteArray.ext (Array.toList_inj.mp ?_), String.toList_inj.mp ?_⟩
      · rw [utf8_ofList]
        exact List.append_cancel_right hbytes
      · rw [String.toList_append, String.toList_ofList, String.toList_singleton, hcs]
  · rintro ⟨s, hs, rfl⟩
    refine ByteArray.ext (Array.toList_inj.mp ?_)
    have htext : s ++ String.singleton '\r' = String.ofList (s.toList ++ ['\r']) := by
      rw [String.ofList_append, String.ofList_toList]
      rfl
    rw [htext, utf8_ofList, List.flatMap_append, ← utf8_ofList, String.ofList_toList, hs]
    rfl

end AuditTrail.Text
