import AuditTrail.Json.Printer
import AuditTrail.Json.Reader
/-! # Strings inside JSON read back

Each character is written so that the scanner takes up exactly what was written for it and puts the
character back, whatever stands behind it. -/

namespace AuditTrail.Json
set_option autoImplicit false

theorem settle_none (s : Scan) : s.settle none = s := rfl

theorem scanString_quote (rest : List Char) :
    scanString none ('"' :: rest) = some ⟨[], true, rest⟩ := by
  rw [scanString]
  rfl

theorem scanString_short {letter c : Char} (h : shortEscape? letter = some c) (hu : letter ≠ 'u')
    (rest : List Char) :
    scanString none ('\\' :: letter :: rest) = (scanString none rest).map (Scan.push c) := by
  rw [scanString]
  · simp only [h, settle_none]
  · intro a b c d rest' he
    exact absurd he hu

theorem scanString_plain {c : Char} (hquote : c ≠ '"') (hslash : c ≠ '\\') (hlow : ¬c.toNat < 32)
    (rest : List Char) :
    scanString none (c :: rest) = (scanString none rest).map (Scan.push c) := by
  have hguard : ¬(c = '\\' ∨ c.toNat < 32) := by
    rintro (h | h)
    · exact hslash h
    · exact hlow h
  rw [scanString]
  · simp only [if_neg hguard, settle_none]
  · exact hquote
  · intro a b c' d rest' he
    exact absurd he hslash
  · intro c' rest' he
    exact absurd he hslash

theorem hexValue?_hexDigit : ∀ n < 16, hexValue? (hexDigit n) = some n := by decide

theorem codeUnit?_control {n : Nat} (hn : n < 32) :
    codeUnit? '0' '0' (hexDigit (n / 16)) (hexDigit (n % 16)) = some n := by
  have hzero : hexValue? '0' = some 0 := by decide
  have hhigh := hexValue?_hexDigit (n / 16) (by omega)
  have hlow := hexValue?_hexDigit (n % 16) (by omega)
  rw [codeUnit?, hzero, hhigh, hlow]
  simp only [Option.bind_eq_bind, Option.bind_some, Option.pure_def, Nat.zero_mul, Nat.zero_add]
  congr 1
  omega

theorem scanString_control {c : Char} (hc : c.toNat < 32) (rest : List Char) :
    scanString none ('\\' :: 'u' :: '0' :: '0' :: hexDigit (c.toNat / 16) ::
      hexDigit (c.toNat % 16) :: rest) = (scanString none rest).map (Scan.push c) := by
  have hhigh : ¬isHighHalf c.toNat = true := by
    rw [isHighHalf, decide_eq_true_eq]
    omega
  have hlow : ¬isLowHalf c.toNat = true := by
    rw [isLowHalf, decide_eq_true_eq]
    omega
  rw [scanString, codeUnit?_control hc]
  simp only [if_neg hhigh, if_neg hlow, settle_none, Char.ofNat_toNat]

/-- The scanner takes up what is written for a character and puts the character back. -/
theorem scanString_escape (c : Char) (rest : List Char) :
    scanString none (escape c ++ rest) = (scanString none rest).map (Scan.push c) := by
  unfold escape
  split
  · rename_i h
    exact scanString_short (by rw [h]; rfl) (by decide) rest
  split
  · rename_i h
    exact scanString_short (by rw [h]; rfl) (by decide) rest
  split
  · rename_i h
    exact scanString_short (by rw [h]; rfl) (by decide) rest
  split
  · rename_i h
    exact scanString_short (by rw [h]; rfl) (by decide) rest
  split
  · rename_i h
    exact scanString_short (by rw [h]; rfl) (by decide) rest
  split
  · rename_i h
    have hc : c = Char.ofNat 8 := by rw [← h, Char.ofNat_toNat]
    exact scanString_short (by rw [hc]; rfl) (by decide) rest
  split
  · rename_i h
    have hc : c = Char.ofNat 12 := by rw [← h, Char.ofNat_toNat]
    exact scanString_short (by rw [hc]; rfl) (by decide) rest
  split
  · rename_i h
    exact scanString_control h rest
  · rename_i hquote hslash _ _ _ _ _ hlow
    exact scanString_plain hquote hslash hlow rest

theorem scanString_write (cs rest : List Char) :
    scanString none (cs.flatMap escape ++ '"' :: rest) = some ⟨cs, true, rest⟩ := by
  induction cs with
  | nil => exact scanString_quote rest
  | cons c cs ih =>
    rw [List.flatMap_cons, List.append_assoc, scanString_escape, ih]
    rfl

theorem writeString_append (s : String) (rest : List Char) :
    writeString s ++ rest = '"' :: (s.toList.flatMap escape ++ '"' :: rest) := by
  rw [writeString, List.append_assoc, List.cons_append]
  rfl

end AuditTrail.Json
