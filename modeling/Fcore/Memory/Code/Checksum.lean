import Fcore.Memory.Code

/-!
# Mistyped key codes

The checksum is the sum of the bytes before it. The difference of the two is a sum over the bits
of the code, with the value of each bit in its byte as its weight, and a digit of the code has at
most one bit of every value. So one wrong digit changes the difference, unless it changes only
bits behind the last byte.
-/

namespace Fcore

namespace Code

/-- The comparison that a reader makes with the last byte. -/
def ChecksumAgrees (bytes : List UInt8) : Prop :=
  some (checksum (bytes.take (bytes.length - 1))) = (bytes.drop (bytes.length - 1)).head?

variable {b : CodeBackend} {bytes data secret : List UInt8}

theorem checksum_eq_sum (data : List UInt8) : checksum data = data.sum :=
  List.sum_eq_foldl.symm

theorem checksumAgrees_iff {n : ℕ} (h : bytes.length = n + 1) :
    ChecksumAgrees bytes ↔
      Base32.weigh (Base32.weight (n + 1)) 0 (bytes.flatMap Base32.byteBits) = 0 := by
  obtain rfl | ⟨data, check, rfl⟩ := List.eq_nil_or_concat' bytes
  · cases h
  · have hlen : data.length = n := by simpa using h
    rw [ChecksumAgrees, h, Nat.add_sub_cancel, List.take_left' hlen, List.drop_left' hlen, ← hlen,
      Base32.weigh_weight, checksum_eq_sum, List.head?_cons, Option.some_inj, sub_eq_zero]

theorem checksumAgrees_signed : ChecksumAgrees (signed b data secret) := by
  obtain ⟨h, -⟩ := signed_parts (b := b) (rfl : data.length = data.length) rfl secret
  rw [ChecksumAgrees, length_signed]
  exact h

/-- A reader of either format makes the comparison first. -/
theorem parsePayload_eq_none {s : String} (h : readBytes b s = some bytes)
    (hcheck : ¬ ChecksumAgrees bytes) (secret : List UInt8) : parsePayload b s secret = none := by
  rw [parsePayload_eq h]
  split
  case isTrue hlen =>
    rw [ChecksumAgrees, hlen] at hcheck
    exact if_pos hcheck
  case isFalse =>
    split
    case isTrue hlen =>
      rw [ChecksumAgrees, hlen] at hcheck
      exact if_pos hcheck
    case isFalse => rfl

/-- The digits of a code in which one is mistyped. -/
theorem exists_digits {pre post : List Char} {c d : Char} {e : Base32.Digit}
    (htext : (ofBytes b bytes).text.toList = pre ++ c :: post) (hc : c ≠ '-')
    (hd : d.toUpper = rfc4648.char e) :
    ∃ left right digit, Base32.encodeDigits bytes = left ++ digit :: right ∧
      toUppercase b ((pre ++ d :: post).filter fun c => c ≠ '-') =
        (left ++ e :: right).map rfc4648.char := by
  have hd' : d ≠ '-' := by
    rintro rfl
    exact (toUpper_char e).2.2 hd.symm
  have hencode := filter_ofBytes (b := b) bytes
  rw [htext, List.filter_append, List.filter_cons_of_pos (by simpa)] at hencode
  obtain ⟨left, rest, hdigits, hleft, hrest⟩ := List.map_eq_append_iff.mp hencode.symm
  obtain ⟨digit, right, rfl, -, hright⟩ := List.map_eq_cons_iff.mp hrest
  have hupper : ((pre ++ d :: post).filter fun c => c ≠ '-').map Char.toUpper =
      (left ++ e :: right).map rfc4648.char := by
    rw [List.filter_append, List.filter_cons_of_pos (by simpa), ← hleft, ← hright, List.map_append,
      List.map_cons, map_toUpper_char, map_toUpper_char, hd, List.map_append, List.map_cons]
  refine ⟨left, right, digit, hdigits, ?_⟩
  rw [toUppercase_of_ascii (toUpper_lt_of_digits hupper), hupper]

theorem detects_days : ∀ j < 26, Base32.Detects 16 j := by
  intro j hj
  by_cases h : 5 * j + 5 ≤ 8 * (16 - 1)
  · exact Base32.detects_of_le h
  · have hlast : ∀ j < 26, 24 ≤ j → Base32.Detects 16 j := by decide +kernel
    exact hlast j hj (by omega)

theorem detects_lite : ∀ j < 31, Base32.Detects 19 j := by
  intro j hj
  by_cases h : 5 * j + 5 ≤ 8 * (19 - 1)
  · exact Base32.detects_of_le h
  · have hlast : ∀ j < 31, 28 ≤ j → Base32.Detects 19 j := by decide +kernel
    exact hlast j hj (by omega)

/-- Two readings of a code that differ in one digit and agree with their checksum are one. -/
theorem decodeDigits_eq_of_checksumAgrees {left right : List Base32.Digit}
    {digit e : Base32.Digit} (hlen : bytes.length = codeV1Len ∨ bytes.length = codeV2Len)
    (hdigits : Base32.encodeDigits bytes = left ++ digit :: right) (hagrees : ChecksumAgrees bytes)
    (hagrees' : ChecksumAgrees (Base32.decodeDigits (left ++ e :: right))) :
    Base32.decodeDigits (left ++ e :: right) = bytes := by
  have hread : ∀ n m, bytes.length = n + 1 → m = (8 * (n + 1) + 4) / 5 →
      (∀ j < m, Base32.Detects (n + 1) j) →
      Base32.decodeDigits (left ++ e :: right) = Base32.decodeDigits (left ++ digit :: right) := by
    intro n m hn hm hdetects
    have hcount : (left ++ digit :: right).length = m := by
      rw [← hdigits, Base32.length_encodeDigits, hn, hm]
    have hcount' : (left ++ e :: right).length = m := by simpa using hcount
    have hlen' : (Base32.decodeDigits (left ++ e :: right)).length = n + 1 := by
      rw [Base32.length_decodeDigits, hcount']
      omega
    refine Base32.decodeDigits_eq_of_weigh hdetects hcount' (by omega) ?_
    rw [(checksumAgrees_iff hlen').mp hagrees', ← hdigits, Base32.decodeDigits_encodeDigits,
      (checksumAgrees_iff hn).mp hagrees]
  rw [← Base32.decodeDigits_encodeDigits bytes, hdigits]
  obtain hlen | hlen := hlen
  · exact hread 15 26 hlen rfl detects_days
  · exact hread 18 31 hlen rfl detects_lite

/-- One mistyped digit that changes the bytes of a code is found by the checksum, whatever the
secret. -/
theorem parsePayload_of_typo (b : CodeBackend) {random : Vector UInt8 6}
    {distributor : Vector UInt8 4} {secret : List UInt8} {code : Code}
    (hcode : (∃ days, code = new b random days distributor secret) ∨
      ∃ trafficGib, code = newLite b random trafficGib distributor secret)
    {pre post : List Char} {c d : Char} {e : Base32.Digit}
    (htext : code.text.toList = pre ++ c :: post) (hc : c ≠ '-') (hd : d.toUpper = rfc4648.char e)
    (hne : readBytes b (String.ofList (pre ++ d :: post)) ≠ readBytes b code.text) :
    (∀ bytes, readBytes b (String.ofList (pre ++ d :: post)) = some bytes →
      ¬ ChecksumAgrees bytes) ∧
      ∀ secret', parsePayload b (String.ofList (pre ++ d :: post)) secret' = none := by
  have hsigned : ∃ data, code = ofBytes b (signed b data secret) ∧
      ((signed b data secret).length = codeV1Len ∨ (signed b data secret).length = codeV2Len) := by
    obtain ⟨days, rfl⟩ | ⟨trafficGib, rfl⟩ := hcode
    · exact ⟨_, rfl, .inl (by simp [length_signed, daysData, codeV1Len])⟩
    · exact ⟨_, rfl, .inr (by simp [length_signed, liteData, codeV2Len])⟩
  obtain ⟨data, rfl, hlen⟩ := hsigned
  have hcheck : ∀ bytes, readBytes b (String.ofList (pre ++ d :: post)) = some bytes →
      ¬ ChecksumAgrees bytes := by
    intro bytes hread hagrees
    obtain ⟨left, right, digit, hdigits, hupper⟩ := exists_digits htext hc hd
    have hbytes := hread
    rw [readBytes, String.toList_ofList, hupper] at hbytes
    have hbytes := b.eq_of_decode _ _ hbytes
    rw [hbytes] at hagrees
    have heq := decodeDigits_eq_of_checksumAgrees hlen hdigits checksumAgrees_signed hagrees
    have hcode : Respelled (ofBytes b (signed b data secret)).text
        (ofBytes b (signed b data secret)).text := rfl
    exact hne (by rw [hread, hbytes, heq, hcode.readBytes])
  refine ⟨hcheck, fun secret' => ?_⟩
  cases hread : readBytes b (String.ofList (pre ++ d :: post)) with
  | none => rw [parsePayload, hread]
  | some bytes => exact parsePayload_eq_none hread (hcheck bytes hread) secret'

theorem parsePayload_of_typo_sample :
    (new .sample (Vector.replicate 6 7) 10 #v[84, 69, 83, 84] [1, 2]).text =
        "A4DQO-BYHA4-AAUVC-FKNKH-O53X3-E" ∧
      parsePayload .sample "b4DQO-BYHA4-AAUVC-FKNKH-O53X3-E" [1, 2] = none := by
  have htext : (new .sample (Vector.replicate 6 7) 10 #v[84, 69, 83, 84] [1, 2]).text =
      "A4DQO-BYHA4-AAUVC-FKNKH-O53X3-E" := by decide +kernel
  have htypo := @parsePayload_of_typo .sample _ _ _ _ (.inl ⟨10, rfl⟩) [] _ 'A' 'b' 1
    (congrArg String.toList htext) (by decide) (by decide) (by decide +kernel)
  exact ⟨htext, htypo.2 _⟩

end Code

end Fcore
