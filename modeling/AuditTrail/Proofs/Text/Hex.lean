import AuditTrail.CoreInstances
import AuditTrail.Text.Hex
import AuditTrail.Text.Split
/-! # Hexadecimal text reads back

The digits of some bytes stand for these bytes, so different bytes have different digits. A number
below a power of 256 is the one that its bytes write. Digits are read in either case, and nothing but
digits is read: what stands for some bytes is what spells their digits (`Hex.bytes?_eq_some_iff`). -/

namespace AuditTrail.Text
set_option autoImplicit false

open scoped CoreInstances

namespace Hex

/-! ## Digits -/

theorem digitValue?_digit : ∀ n < 16, digitValue? (digit n).toNat = some n := by decide

theorem digit_ne_dash : ∀ n < 16, digit n ≠ '-' := by decide

theorem bytes?_encodeChars (bytes : List UInt8) : bytes? (encodeChars bytes) = some bytes := by
  induction bytes with
  | nil => rfl
  | cons b rest ih =>
    have hb := b.toNat_lt
    have hhigh := digitValue?_digit (b.toNat / 16) (by omega)
    have hlow := digitValue?_digit (b.toNat % 16) (by omega)
    change bytes? (digit (b.toNat / 16) :: digit (b.toNat % 16) :: encodeChars rest) = _
    rw [bytes?, hhigh, hlow, ih]
    have hn : 16 * (b.toNat / 16) + b.toNat % 16 = b.toNat := by omega
    simp only [hn, UInt8.ofNat_toNat]

theorem length_encodeChars (bytes : List UInt8) :
    (encodeChars bytes).length = 2 * bytes.length := by
  induction bytes with
  | nil => rfl
  | cons b rest ih =>
    change (encodeChars rest).length + 1 + 1 = 2 * (rest.length + 1)
    omega

theorem dash_notMem_encodeChars (bytes : List UInt8) : '-' ∉ encodeChars bytes := by
  intro h
  obtain ⟨b, -, hb⟩ := List.mem_flatMap.mp h
  have hlt := b.toNat_lt
  rcases List.mem_cons.mp hb with he | hb
  · exact digit_ne_dash (b.toNat / 16) (by omega) he.symm
  · exact digit_ne_dash (b.toNat % 16) (by omega) (List.mem_singleton.mp hb).symm

theorem encode_ne_empty {bytes : List UInt8} (h : bytes ≠ []) : encode bytes ≠ "" := by
  intro he
  have hl := congrArg String.toList he
  rw [encode, String.toList_ofList] at hl
  have hn := length_encodeChars bytes
  rw [hl] at hn
  change 0 = 2 * bytes.length at hn
  exact h (List.length_eq_zero_iff.mp (by omega))

/-! ## Numbers -/

theorem toNat_concat (bytes : List UInt8) (b : UInt8) :
    toNat (bytes ++ [b]) = 256 * toNat bytes + b.toNat := by
  rw [toNat, List.foldl_append]
  rfl

theorem length_ofNat (count n : Nat) : (ofNat count n).length = count := by
  induction count generalizing n with
  | zero => rfl
  | succ count ih => rw [ofNat, List.length_append, ih, List.length_singleton]

theorem toNat_ofNat (count n : Nat) : toNat (ofNat count n) = n % 256 ^ count := by
  induction count generalizing n with
  | zero => rw [Nat.pow_zero, Nat.mod_one]; rfl
  | succ count ih =>
    rw [ofNat, toNat_concat, ih, Nat.pow_succ', Nat.mod_mul, UInt8.toNat_ofNat']
    omega

/-! ## Digits in either case -/

/-- The digits of base sixteen, in the order of their values. -/
def digits : List Char := "0123456789abcdef".toList

/-- The character is a digit of base sixteen, in either case. -/
def IsDigit (c : Char) : Prop := c.toLower ∈ digits

/-- The number that a row of digits writes, the most significant first. -/
def number (cs : List Char) : Nat := cs.foldl (fun n c => 16 * n + digits.idxOf c.toLower) 0

theorem digits_getElem? : ∀ n < 16, digits[n]? = some (digit n) := by decide

theorem idxOf?_digit : ∀ n < 16, digits.idxOf? (digit n) = some n := by decide

theorem idxOf_digit : ∀ n < 16, digits.idxOf (digit n) = n := by decide

/-- The value of a digit is its place among the digits. -/
theorem digitValue?_toNat (c : Char) : digitValue? c.toNat = digits.idxOf? c.toLower := by
  by_cases hc : c.toNat < 128
  · have table : ∀ n < 128, digitValue? n = digits.idxOf? (Char.ofNat n).toLower := by decide
    rw [table c.toNat hc, Char.ofNat_toNat]
  · have hlow : c.toLower = c := by
      unfold Char.toLower
      rw [dif_neg]
      rintro ⟨-, hle⟩
      have : c.toNat ≤ 90 := hle
      omega
    have hmem : c ∉ digits := by
      have hall : (digits.all fun d => decide (d.toNat < 128)) = true := by decide
      exact fun h => hc (of_decide_eq_true (List.all_eq_true.mp hall c h))
    rw [hlow, List.idxOf?_eq_none_iff.mpr hmem, digitValue?, if_neg (by omega), if_neg (by omega),
      if_neg (by omega)]

theorem digitValue?_eq_some_iff {c : Char} {n : Nat} :
    digitValue? c.toNat = some n ↔ n < 16 ∧ digit n = c.toLower := by
  rw [digitValue?_toNat]
  constructor
  · intro h
    obtain ⟨hn, hget, -⟩ := List.idxOf?_eq_some_iff.mp h
    have hplace := digits_getElem? n hn
    rw [List.getElem?_eq_getElem hn, hget, Option.some.injEq] at hplace
    exact ⟨hn, hplace.symm⟩
  · rintro ⟨hn, heq⟩
    rw [← heq, idxOf?_digit n hn]

theorem isDigit_iff {c : Char} : IsDigit c ↔ ∃ n, digitValue? c.toNat = some n := by
  rw [IsDigit, digitValue?_toNat, ← List.isSome_idxOf?, Option.isSome_iff_exists]

theorem digitValue?_lt {n v : Nat} (h : digitValue? n = some v) : v < 16 := by
  unfold digitValue? at h
  split at h
  · cases h
    omega
  · split at h
    · cases h
      omega
    · split at h <;> cases h
      omega

theorem ofNat_eq_iff {high low : Nat} (hhigh : high < 16) (hlow : low < 16) (b : UInt8) :
    UInt8.ofNat (16 * high + low) = b ↔ high = b.toNat / 16 ∧ low = b.toNat % 16 := by
  have hb := b.toNat_lt
  rw [← UInt8.toNat_inj, UInt8.toNat_ofNat_of_lt' (by change _ < 256; omega)]
  omega

theorem bytes?_cons_eq_some_iff {high low : Char} {cs : List Char} {b : UInt8} {rest : List UInt8} :
    bytes? (high :: low :: cs) = some (b :: rest) ↔
      digitValue? high.toNat = some (b.toNat / 16) ∧ digitValue? low.toNat = some (b.toNat % 16) ∧
      bytes? cs = some rest := by
  rw [bytes?]
  split
  case h_1 h l bytes hh hl hbytes =>
    rw [hh, hl, hbytes]
    simp only [Option.some.injEq, List.cons.injEq, and_assoc,
      ofNat_eq_iff (digitValue?_lt hh) (digitValue?_lt hl)]
  case h_2 hnone =>
    refine iff_of_false (by simp) ?_
    rintro ⟨hh, hl, hbytes⟩
    exact hnone _ _ _ hh hl hbytes

theorem mem_digits_of_mem_encodeChars {bytes : List UInt8} {c : Char} (h : c ∈ encodeChars bytes) :
    c ∈ digits := by
  obtain ⟨b, -, hb⟩ := List.mem_flatMap.mp h
  have hlt := b.toNat_lt
  have hdigit : ∀ n < 16, digit n ∈ digits := by decide
  rcases List.mem_cons.mp hb with rfl | hb
  · exact hdigit (b.toNat / 16) (by omega)
  · rw [List.mem_singleton.mp hb]
    exact hdigit (b.toNat % 16) (by omega)

theorem encodeChars_cons (b : UInt8) (bytes : List UInt8) :
    encodeChars (b :: bytes) = digit (b.toNat / 16) :: digit (b.toNat % 16) :: encodeChars bytes :=
  rfl

/-- The bytes that a text stands for are those whose digits it spells, in either case. -/
theorem bytes?_eq_some_iff {cs : List Char} {bytes : List UInt8} :
    bytes? cs = some bytes ↔ encodeChars bytes = cs.map Char.toLower := by
  induction bytes generalizing cs with
  | nil =>
    fun_cases bytes? cs <;> simp_all [encodeChars]
  | cons b rest ih =>
    have hb := b.toNat_lt
    match cs with
    | [] => simp [bytes?, encodeChars_cons]
    | [_] => simp [bytes?, encodeChars_cons]
    | high :: low :: cs =>
      rw [bytes?_cons_eq_some_iff, digitValue?_eq_some_iff, digitValue?_eq_some_iff, ih,
        encodeChars_cons]
      simp only [List.map_cons, List.cons.injEq]
      constructor
      · rintro ⟨⟨-, hhigh⟩, ⟨-, hlow⟩, hrest⟩
        exact ⟨hhigh, hlow, hrest⟩
      · rintro ⟨hhigh, hlow, hrest⟩
        exact ⟨⟨by omega, hhigh⟩, ⟨by omega, hlow⟩, hrest⟩

/-- A row of digits stands for some bytes when it has two digits for each of them. -/
theorem exists_bytes?_iff {cs : List Char} {count : Nat} :
    (∃ bytes, bytes? cs = some bytes ∧ bytes.length = count) ↔
      cs.length = 2 * count ∧ ∀ c ∈ cs, IsDigit c := by
  constructor
  · rintro ⟨bytes, hread, rfl⟩
    have hspelled := bytes?_eq_some_iff.mp hread
    refine ⟨?_, ?_⟩
    · rw [← length_encodeChars, hspelled, List.length_map]
    · intro c hc
      have hmem : c.toLower ∈ encodeChars bytes := hspelled ▸ List.mem_map_of_mem hc
      exact mem_digits_of_mem_encodeChars hmem
  · rintro ⟨hlength, hdigits⟩
    induction count generalizing cs with
    | zero =>
      have hnil : cs = [] := List.length_eq_zero_iff.mp hlength
      exact ⟨[], by rw [hnil]; rfl, rfl⟩
    | succ count ih =>
      obtain ⟨high, low, cs, rfl⟩ : ∃ high low rest, cs = high :: low :: rest := by
        match cs, hlength with
        | [], h => simp at h
        | [_], h => simp at h; omega
        | high :: low :: rest, _ => exact ⟨high, low, rest, rfl⟩
      obtain ⟨h, hh⟩ := isDigit_iff.mp (hdigits high (by simp))
      obtain ⟨l, hl⟩ := isDigit_iff.mp (hdigits low (by simp))
      obtain ⟨bytes, hbytes, hcount⟩ := @ih cs (by simp at hlength; omega)
        fun c hc => hdigits c (by simp [hc])
      refine ⟨UInt8.ofNat (16 * h + l) :: bytes, ?_, by rw [List.length_cons, hcount]⟩
      rw [bytes?, hh, hl, hbytes]

theorem foldl_encodeChars (bytes : List UInt8) (n : Nat) :
    (encodeChars bytes).foldl (fun n c => 16 * n + digits.idxOf c) n =
      bytes.foldl (fun n b => 256 * n + b.toNat) n := by
  induction bytes generalizing n with
  | nil => rfl
  | cons b rest ih =>
    have hb := b.toNat_lt
    rw [encodeChars_cons, List.foldl_cons, List.foldl_cons, ih, List.foldl_cons,
      idxOf_digit _ (by omega), idxOf_digit _ (by omega)]
    congr 1
    omega

/-- The number that digits write is the one that their bytes write. -/
theorem number_eq {cs : List Char} {bytes : List UInt8} (h : bytes? cs = some bytes) :
    number cs = toNat bytes := by
  rw [toNat, ← foldl_encodeChars, bytes?_eq_some_iff.mp h, List.foldl_map, number]

theorem ofNat_toNat {bytes : List UInt8} {count : Nat} (h : bytes.length = count) :
    ofNat count (toNat bytes) = bytes := by
  induction count generalizing bytes with
  | zero => rw [List.length_eq_zero_iff.mp h]; rfl
  | succ count ih =>
    obtain ⟨front, b, rfl⟩ := (List.eq_nil_or_concat bytes).resolve_left (by rintro rfl; cases h)
    have hb := b.toNat_lt
    have hfront : front.length = count := by simpa using h
    have hquotient : (256 * toNat front + b.toNat) / 256 = toNat front := by omega
    have hrest : (256 * toNat front + b.toNat) % 256 = b.toNat := by omega
    rw [List.concat_eq_append, toNat_concat, ofNat, hquotient, hrest, ih hfront, UInt8.ofNat_toNat]

end Hex

/-! ## Cutting at a separator -/

theorem takeWhile_append_of_notMem {separator : Char} {cs : List Char} (h : separator ∉ cs)
    (rest : List Char) : (cs ++ separator :: rest).takeWhile (· != separator) = cs := by
  rw [List.takeWhile_append_of_pos]
  · simp
  · intro c hc
    have hne : c ≠ separator := fun he => h (he ▸ hc)
    simpa using hne

theorem cutAt_append {separator : Char} {cs : List Char} (h : separator ∉ cs) (rest : List Char) :
    cutAt separator (cs ++ separator :: rest) = some (cs, rest) := by
  have hd : (cs ++ separator :: rest).dropWhile (· != separator) = separator :: rest := by
    rw [List.dropWhile_append_of_pos]
    · simp
    · intro c hc
      have hne : c ≠ separator := fun he => h (he ▸ hc)
      simpa using hne
  rw [cutAt, hd, takeWhile_append_of_notMem h]

theorem cutAt_eq_some_iff {separator : Char} {cs front rest : List Char} :
    cutAt separator cs = some (front, rest) ↔
      separator ∉ front ∧ cs = front ++ separator :: rest := by
  constructor
  · intro h
    unfold cutAt at h
    split at h
    case h_1 => cases h
    case h_2 first tail hdrop =>
      have hparts := List.takeWhile_append_dropWhile (p := (· != separator)) (l := cs)
      have hfirst : first = separator := by
        have hhead := List.head_dropWhile_not (· != separator) (l := cs) (by rw [hdrop]; simp)
        simpa [hdrop] using hhead
      cases h
      rw [hdrop, hfirst] at hparts
      refine ⟨?_, hparts.symm⟩
      intro hmem
      simpa using List.all_eq_true.mp List.all_takeWhile separator hmem
  · rintro ⟨hfront, rfl⟩
    exact cutAt_append hfront rest

end AuditTrail.Text
