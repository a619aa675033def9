import AuditTrail.Proofs.Signature.Text
/-! # Which texts are signatures

`EntrySignature.IsWritten` is the grammar of the texts of signatures, told apart from the reader: a tag,
a dash, and digits in either case, thirty-two for a mark and twice sixty-four for the two numbers of a
signature on the curve. The reader accepts exactly these texts, and what it reads is printed as the
text with small digits (`EntrySignature.text_grammar`). -/

namespace AuditTrail
set_option autoImplicit false

open Text

namespace EntrySignature

/-! ## The grammar -/

/-- The digits of a mark. -/
structure IsMark (cs : List Char) : Prop where
  length : cs.length = 32
  digits : ∀ c ∈ cs, Hex.IsDigit c

/-- The digits of a number of a signature on the curve: any number below the order, zero too. -/
structure IsComponent (cs : List Char) : Prop where
  length : cs.length = 64
  digits : ∀ c ∈ cs, Hex.IsDigit c
  below : Hex.number cs < Secp256k1.order

/-- The texts of signatures. -/
inductive IsWritten : List Char → Prop where
  | weak {digits : List Char} (mark : IsMark digits) :
    IsWritten ('H' :: 'A' :: 'S' :: 'H' :: '-' :: digits)
  | cryptographic {first second : List Char} (r : IsComponent first) (s : IsComponent second) :
    IsWritten ('E' :: 'C' :: 'D' :: 'S' :: 'A' :: '-' :: (first ++ '-' :: second))

/-- The text with all that stands behind its tag in small letters. -/
def smallDigits (cs : List Char) : List Char :=
  cs.takeWhile (· != '-') ++ (cs.dropWhile (· != '-')).map Char.toLower

/-! ## What the digits stand for -/

theorem isMark_iff {cs : List Char} :
    IsMark cs ↔ ∃ mark : WeakMark, Hex.encodeChars mark.bytes = cs.map Char.toLower := by
  constructor
  · rintro ⟨hlength, hdigits⟩
    obtain ⟨bytes, hread, hcount⟩ := (@Hex.exists_bytes?_iff cs 16).mpr ⟨hlength, hdigits⟩
    exact ⟨⟨bytes, hcount⟩, Hex.bytes?_eq_some_iff.mp hread⟩
  · rintro ⟨mark, hspelled⟩
    obtain ⟨hlength, hdigits⟩ :=
      Hex.exists_bytes?_iff.mp ⟨mark.bytes, Hex.bytes?_eq_some_iff.mpr hspelled, mark.length_eq⟩
    exact ⟨hlength, hdigits⟩

theorem isComponent_iff {cs : List Char} : IsComponent cs ↔
    ∃ n : Fin Secp256k1.order, Hex.encodeChars (Hex.ofNat 32 n.val) = cs.map Char.toLower := by
  constructor
  · rintro ⟨hlength, hdigits, hbelow⟩
    obtain ⟨bytes, hread, hcount⟩ := (@Hex.exists_bytes?_iff cs 32).mpr ⟨hlength, hdigits⟩
    rw [Hex.number_eq hread] at hbelow
    refine ⟨⟨Hex.toNat bytes, hbelow⟩, ?_⟩
    rw [Hex.ofNat_toNat hcount]
    exact Hex.bytes?_eq_some_iff.mp hread
  · rintro ⟨n, hspelled⟩
    have hread := Hex.bytes?_eq_some_iff.mpr hspelled
    obtain ⟨hlength, hdigits⟩ := Hex.exists_bytes?_iff.mp ⟨_, hread, Hex.length_ofNat 32 n.val⟩
    refine ⟨hlength, hdigits, ?_⟩
    rw [Hex.number_eq hread, component_eq]
    exact n.isLt

theorem ofMark_eq_ok_iff {digits : List Char} {signature : EntrySignature} :
    ofMark digits = .ok signature ↔
      ∃ mark, signature = .weak mark ∧ Hex.encodeChars mark.bytes = digits.map Char.toLower := by
  constructor
  · intro h
    unfold ofMark at h
    split at h
    case h_1 => cases h
    case h_2 bytes hread =>
      split at h
      case isTrue hlength =>
        cases h
        exact ⟨⟨bytes, hlength⟩, rfl, Hex.bytes?_eq_some_iff.mp hread⟩
      case isFalse => cases h
  · rintro ⟨mark, rfl, hspelled⟩
    rw [ofMark, Hex.bytes?_eq_some_iff.mpr hspelled]
    simp only [mark.length_eq, dite_true]

theorem ofComponents_eq_ok_iff {first second : List Char} {signature : EntrySignature} :
    ofComponents first second = .ok signature ↔
      ∃ s : EcdsaSignature, signature = .cryptographic s ∧
        Hex.encodeChars (Hex.ofNat 32 s.r.val) = first.map Char.toLower ∧
        Hex.encodeChars (Hex.ofNat 32 s.s.val) = second.map Char.toLower := by
  constructor
  · intro h
    unfold ofComponents at h
    split at h
    case h_1 => cases h
    case h_2 => cases h
    case h_3 r s hr hs =>
      split at h
      case isTrue hlength =>
        split at h
        case isTrue hbelow =>
          cases h
          rw [Hex.bytes?_eq_some_iff] at hr hs
          refine ⟨_, rfl, ?_, ?_⟩
          · rw [Hex.ofNat_toNat hlength.1, hr]
          · rw [Hex.ofNat_toNat hlength.2, hs]
        case isFalse => cases h
      case isFalse => cases h
  · rintro ⟨s, rfl, hfirst, hsecond⟩
    have hsmall := ofComponents_encode s
    -- The reader sees only the bytes, and these are the same for small digits.
    unfold ofComponents at hsmall ⊢
    rw [Hex.bytes?_eq_some_iff.mpr hfirst, Hex.bytes?_eq_some_iff.mpr hsecond]
    rwa [Hex.bytes?_encodeChars, Hex.bytes?_encodeChars] at hsmall

/-! ## The reader -/

theorem ofChars_eq_ok_iff {cs : List Char} {signature : EntrySignature} :
    ofChars cs = .ok signature ↔
      (∃ digits, cs = weakTag ++ '-' :: digits ∧ ofMark digits = .ok signature) ∨
      ∃ first second, '-' ∉ first ∧ cs = curveTag ++ '-' :: (first ++ '-' :: second) ∧
        ofComponents first second = .ok signature := by
  constructor
  · intro h
    unfold ofChars at h
    split at h
    case h_1 => cases h
    case h_2 tag body hcut =>
      obtain ⟨-, rfl⟩ := cutAt_eq_some_iff.mp hcut
      split at h
      case isTrue hcurve =>
        split at h
        case h_1 => cases h
        case h_2 first second hbody =>
          obtain ⟨hfirst, rfl⟩ := cutAt_eq_some_iff.mp hbody
          exact Or.inr ⟨first, second, hfirst, by rw [hcurve], h⟩
      case isFalse =>
        split at h
        case isTrue hweak => exact Or.inl ⟨body, by rw [hweak], h⟩
        case isFalse => cases h
  · rintro (⟨digits, rfl, h⟩ | ⟨first, second, hfirst, rfl, h⟩)
    · have hne : weakTag ≠ curveTag := by decide
      rw [ofChars, cutAt_append dash_notMem_weakTag]
      simpa only [if_neg hne, if_true] using h
    · rw [ofChars, cutAt_append dash_notMem_curveTag]
      simp only [if_true]
      rw [cutAt_append hfirst]
      exact h

theorem smallDigits_append {tag : List Char} (h : '-' ∉ tag) (body : List Char) :
    smallDigits (tag ++ '-' :: body) = tag ++ '-' :: body.map Char.toLower := by
  have hcut := cutAt_append h body
  unfold cutAt at hcut
  have hfront := takeWhile_append_of_notMem h body
  have hall := List.takeWhile_append_dropWhile (p := (· != '-')) (l := tag ++ '-' :: body)
  rw [hfront, List.append_cancel_left_eq] at hall
  rw [smallDigits, hfront, hall]
  rfl

theorem dash_notMem_of_digits {cs : List Char} (h : ∀ c ∈ cs, Hex.IsDigit c) : '-' ∉ cs := by
  intro hmem
  have hnot : ¬ Hex.IsDigit '-' := by
    unfold Hex.IsDigit
    decide
  exact hnot (h '-' hmem)

theorem write_injective {a b : EntrySignature} (h : a.write = b.write) : a = b := by
  have ha := ofChars_write a
  rw [h, ofChars_write] at ha
  exact (Except.ok.inj ha).symm

theorem isWritten_of_ofChars {cs : List Char} {signature : EntrySignature}
    (h : ofChars cs = .ok signature) : IsWritten cs ∧ signature.write = smallDigits cs := by
  rcases ofChars_eq_ok_iff.mp h with ⟨digits, rfl, hmark⟩ | ⟨first, second, -, rfl, hpair⟩
  · obtain ⟨mark, rfl, hspelled⟩ := ofMark_eq_ok_iff.mp hmark
    refine ⟨.weak (isMark_iff.mpr ⟨mark, hspelled⟩), ?_⟩
    rw [smallDigits_append dash_notMem_weakTag, write, hspelled]
  · obtain ⟨s, rfl, hfirst, hsecond⟩ := ofComponents_eq_ok_iff.mp hpair
    have hr := isComponent_iff.mpr ⟨s.r, hfirst⟩
    have hs := isComponent_iff.mpr ⟨s.s, hsecond⟩
    refine ⟨.cryptographic hr hs, ?_⟩
    rw [smallDigits_append dash_notMem_curveTag, write, hfirst, hsecond, List.map_append,
      List.map_cons, List.append_assoc]
    rfl

theorem exists_ofChars_of_isWritten {cs : List Char} (h : IsWritten cs) :
    ∃ signature, ofChars cs = .ok signature := by
  cases h with
  | weak hmark =>
    obtain ⟨mark, hspelled⟩ := isMark_iff.mp hmark
    exact ⟨_, ofChars_eq_ok_iff.mpr (Or.inl ⟨_, rfl, ofMark_eq_ok_iff.mpr ⟨mark, rfl, hspelled⟩⟩)⟩
  | cryptographic hr hs =>
    obtain ⟨r, hfirst⟩ := isComponent_iff.mp hr
    obtain ⟨s, hsecond⟩ := isComponent_iff.mp hs
    have hpair := ofComponents_eq_ok_iff.mpr ⟨⟨r, s⟩, rfl, hfirst, hsecond⟩
    exact ⟨_, ofChars_eq_ok_iff.mpr
      (Or.inr ⟨_, _, dash_notMem_of_digits hr.digits, rfl, hpair⟩)⟩

theorem ofText_eq_ok_iff {text : String} {signature : EntrySignature} :
    ofText text = .ok signature ↔
      IsWritten text.toList ∧ signature.write = smallDigits text.toList := by
  refine ⟨isWritten_of_ofChars, ?_⟩
  rintro ⟨hwritten, hsmall⟩
  obtain ⟨other, hread⟩ := exists_ofChars_of_isWritten hwritten
  have heq : signature = other :=
    write_injective (hsmall.trans (isWritten_of_ofChars hread).2.symm)
  rw [heq]
  exact hread

/-- **The reader accepts exactly the grammar.** The text of a signature is read as that signature. A
text is read just when it is written by the grammar, and what is read from it is printed as the text
with small digits. Any other text is a fault, and no signer accepts it for any hash and time. -/
theorem text_grammar :
    (∀ signature : EntrySignature, ofText signature.text = .ok signature) ∧
    (∀ text, (∃ signature, ofText text = .ok signature) ↔ IsWritten text.toList) ∧
    (∀ text signature, ofText text = .ok signature →
      signature.text = String.ofList (smallDigits text.toList)) ∧
    ∀ text, ¬ IsWritten text.toList → (∃ fault, ofText text = .error fault) ∧
      ∀ (signer : Signer) (hash : String) (time : Instant),
        signer.verifyText text hash time = false := by
  refine ⟨ofText_text, fun text => ⟨?_, exists_ofChars_of_isWritten⟩, ?_, ?_⟩
  · rintro ⟨signature, hread⟩
    exact (ofText_eq_ok_iff.mp hread).1
  · intro text signature hread
    rw [EntrySignature.text, (ofText_eq_ok_iff.mp hread).2]
  · intro text hnot
    cases hread : ofText text with
    | ok signature => exact absurd (ofText_eq_ok_iff.mp hread).1 hnot
    | error fault =>
      refine ⟨⟨fault, rfl⟩, ?_⟩
      intro signer hash time
      rw [Signer.verifyText, hread]

/-- A mark in mixed case is printed in small digits, and two numbers of one byte each are refused. -/
theorem text_grammar_mixed_case :
    let mixed := "HASH-00112233445566778899AaBbCcDdEeFf"
    let short := "ECDSA-00-00"
    (∃ signature, ofText mixed = .ok signature ∧
      signature.text = "HASH-00112233445566778899aabbccddeeff") ∧
    ¬ IsWritten short.toList ∧ ∀ (signer : Signer) (hash : String) (time : Instant),
      signer.verifyText short hash time = false := by
  intro mixed short
  obtain ⟨-, hreads, hprinted, hrefused⟩ := text_grammar
  have hmixed : IsWritten mixed.toList := by
    have hdigits : ("00112233445566778899AaBbCcDdEeFf".toList.all fun c =>
        decide (c.toLower ∈ Hex.digits)) = true := by decide
    have hmark : IsMark "00112233445566778899AaBbCcDdEeFf".toList := by
      refine ⟨by decide, ?_⟩
      intro c hc
      show c.toLower ∈ Hex.digits
      exact of_decide_eq_true (List.all_eq_true.mp hdigits c hc)
    have hchars : mixed.toList =
        'H' :: 'A' :: 'S' :: 'H' :: '-' :: "00112233445566778899AaBbCcDdEeFf".toList := by decide
    rw [hchars]
    exact .weak hmark
  have hsmall : String.ofList (smallDigits mixed.toList) =
      "HASH-00112233445566778899aabbccddeeff" := by decide
  have hshort : ¬ IsWritten short.toList := by
    intro hwritten
    obtain ⟨signature, hread⟩ := (hreads short).mpr hwritten
    have hchars : short.toList = ['E', 'C', 'D', 'S', 'A', '-', '0', '0', '-', '0', '0'] := by decide
    have hfault : ofText short = .error .componentLength := by
      rw [ofText, hchars]
      rfl
    rw [hfault] at hread
    cases hread
  obtain ⟨signature, hread⟩ := (hreads mixed).mpr hmixed
  exact ⟨⟨signature, hread, (hprinted mixed signature hread).trans hsmall⟩, hshort,
    (hrefused short hshort).2⟩

end EntrySignature

end AuditTrail
