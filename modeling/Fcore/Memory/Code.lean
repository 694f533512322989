import Fcore.Lib.Base32
import Mathlib.Data.UInt

/-!
# Key codes

A key code packs a nonce, what the key is worth, and the distributor into bytes, with the
first bytes of a signature and a checksum at the end. It is shown in base 32, in groups of
five.

Reading a code removes the hyphens, maps it to upper case and decodes it. The length of the
bytes tells the format; then the checksum and the signature are compared.
-/

namespace Fcore

/-- Big-endian bytes. -/
def toBeBytes : ℕ → ℕ → List UInt8
  | 0, _ => []
  | width + 1, n => toBeBytes width (n / 256) ++ [UInt8.ofNat n]

def fromBeBytes (bytes : List UInt8) : ℕ := bytes.foldl (fun n byte => n * 256 + byte.toNat) 0

@[simp] theorem length_toBeBytes (width n : ℕ) : (toBeBytes width n).length = width := by
  induction width generalizing n with
  | zero => rfl
  | succ width ih => simp [toBeBytes, ih]

theorem fromBeBytes_toBeBytes (width n : ℕ) :
    fromBeBytes (toBeBytes width n) = n % 256 ^ width := by
  induction width generalizing n with
  | zero => simp [toBeBytes, fromBeBytes, Nat.mod_one]
  | succ width ih =>
    have hbyte : (UInt8.ofNat n).toNat = n % 256 := UInt8.toNat_ofNat'
    rw [toBeBytes, fromBeBytes, List.foldl_append, ← fromBeBytes, ih, pow_succ', Nat.mod_mul,
      List.foldl_cons, List.foldl_nil, hbyte]
    omega

def rfc4648 : Base32.Alphabet where
  char d := "ABCDEFGHIJKLMNOPQRSTUVWXYZ234567".toList.getD d.toNat ' '
  injective := by
    intro d d'
    revert d d'
    decide

/-- What a code is made and read with: the decoder, which need not accept a text whose last
digit has other bits than an encoded text has; the upper case of a character, which may be
several; and the signature. -/
structure CodeBackend where
  decode : List Char → Option (List UInt8)
  decode_encode : ∀ bytes, decode (rfc4648.encode bytes) = some bytes
  eq_of_decode : ∀ digits bytes, decode (digits.map rfc4648.char) = some bytes →
    bytes = Base32.decodeDigits digits
  upper : Char → List Char
  upper_ascii : ∀ c, c.toNat < 128 → upper c = [c.toUpper]
  sign : List UInt8 → List UInt8 → Vector UInt8 32

/-- A backend for ASCII texts, with a toy signature. -/
def CodeBackend.sample : CodeBackend where
  decode := rfc4648.decode
  decode_encode bytes := by
    rw [Base32.Alphabet.encode, Base32.Alphabet.decode_map_char, Base32.decodeDigits_encodeDigits]
  eq_of_decode digits bytes h := by
    rw [Base32.Alphabet.decode_map_char, Option.some_inj] at h
    exact h.symm
  upper c := [c.toUpper]
  upper_ascii _ _ := rfl
  sign data secret := Vector.replicate 32 (data.sum + secret.sum)

structure Code where
  text : String
  deriving DecidableEq, Repr

inductive CodeError where
  | invalidFormat
  | invalidChecksum
  deriving DecidableEq, Repr

def codeV1Len : ℕ := 16

def codeV2Len : ℕ := 19

def codeVersionLite : UInt8 := 0x02

inductive CodePayload where
  | days (days : Int16) (distributor : Vector UInt8 4)
  | lite (trafficGib : UInt32) (distributor : Vector UInt8 4)
  deriving DecidableEq

/-- A slice as an array of a fixed length. -/
def tryInto (n : ℕ) (slice : List UInt8) : Option (Vector UInt8 n) :=
  if h : slice.length = n then some ⟨slice.toArray, h⟩ else none

namespace Code

def checksum (data : List UInt8) : UInt8 := data.foldl (fun acc b => acc + b) 0

def format (s : List Char) : String := "-".intercalate ((s.toChunks 5).map String.ofList)

section Backend

variable (b : CodeBackend)

def toUppercase (s : List Char) : List Char := s.flatMap b.upper

/-- The signature and the checksum are put behind the data. -/
def signed (data secret : List UInt8) : List UInt8 :=
  let payload := data ++ (b.sign data secret).toList.take 3
  payload ++ [checksum payload]

def ofBytes (bytes : List UInt8) : Code := ⟨format (toUppercase b (rfc4648.encode bytes))⟩

def daysData (random : Vector UInt8 6) (days : Int16) (distributor : Vector UInt8 4) :
    List UInt8 :=
  random.toList ++ toBeBytes 2 days.toBitVec.toNat ++ distributor.toList

def new (random : Vector UInt8 6) (days : Int16) (distributor : Vector UInt8 4)
    (secret : List UInt8) : Code :=
  ofBytes b (signed b (daysData random days distributor) secret)

def liteData (random : Vector UInt8 6) (trafficGib : UInt32) (distributor : Vector UInt8 4) :
    List UInt8 :=
  codeVersionLite :: random.toList ++ distributor.toList ++ toBeBytes 4 trafficGib.toNat

def newLite (random : Vector UInt8 6) (trafficGib : UInt32) (distributor : Vector UInt8 4)
    (secret : List UInt8) : Code :=
  ofBytes b (signed b (liteData random trafficGib distributor) secret)

/-- The bytes of a text without its hyphens, in upper case. -/
def readBytes (s : String) : Option (List UInt8) :=
  b.decode (toUppercase b (s.toList.filter fun c => c ≠ '-'))

def parseV1 (bytes secret : List UInt8) : Option CodePayload :=
  let dataWithSig := bytes.take 15
  if some (checksum dataWithSig) ≠ (bytes.drop 15).head? then none
  else
    let data := dataWithSig.take 12
    let sig := dataWithSig.drop 12
    if (b.sign data secret).toList.take 3 ≠ sig.take 3 then none
    else do
      let days ← tryInto 2 ((data.take 8).drop 6)
      let distributor ← tryInto 4 ((data.take 12).drop 8)
      some (.days (.ofBitVec (.ofNat 16 (fromBeBytes days.toList))) distributor)

def parseV2 (bytes secret : List UInt8) : Option CodePayload :=
  let dataWithSig := bytes.take 18
  if some (checksum dataWithSig) ≠ (bytes.drop 18).head? then none
  else
    let data := dataWithSig.take 15
    let sig := dataWithSig.drop 15
    if data.head? ≠ some codeVersionLite then none
    else if (b.sign data secret).toList.take 3 ≠ sig.take 3 then none
    else do
      let distributor ← tryInto 4 ((data.take 11).drop 7)
      let trafficGib ← tryInto 4 ((data.take 15).drop 11)
      some (.lite (.ofNat (fromBeBytes trafficGib.toList)) distributor)

def parsePayload (s : String) (secret : List UInt8) : Option CodePayload :=
  match readBytes b s with
  | none => none
  | some bytes =>
    if bytes.length = codeV1Len then parseV1 b bytes secret
    else if bytes.length = codeV2Len then parseV2 b bytes secret
    else none

def fromStr (s : String) : Except CodeError Code :=
  match readBytes b s with
  | none => .error .invalidFormat
  | some bytes =>
    if bytes.length ≠ codeV1Len ∧ bytes.length ≠ codeV2Len then .error .invalidFormat
    else .ok ⟨String.ofList (toUppercase b s.toList)⟩

def validatePayload (secret : List UInt8) (code : Code) : Except CodeError CodePayload :=
  match parsePayload b code.text secret with
  | some payload => .ok payload
  | none => .error .invalidChecksum

end Backend

/-- The second text is the first one with letters in another case and with other hyphens. -/
def Respelled (s typed : String) : Prop :=
  (typed.toList.filter fun c => c ≠ '-').map Char.toUpper =
    (s.toList.filter fun c => c ≠ '-').map Char.toUpper

/-- A text is read as a payload, by the parser and by the validation of the text as it is typed
and of the code that it is parsed to. -/
structure Reads (b : CodeBackend) (secret : List UInt8) (s : String) (payload : CodePayload) :
    Prop where
  parsed : parsePayload b s secret = some payload
  typed : validatePayload b secret ⟨s⟩ = .ok payload
  valid : ∃ code, fromStr b s = .ok code ∧ validatePayload b secret code = .ok payload

instance (s typed : String) : Decidable (Respelled s typed) :=
  inferInstanceAs (Decidable (_ = _))

theorem toUpper_char (d : Base32.Digit) :
    (rfc4648.char d).toUpper = rfc4648.char d ∧ (rfc4648.char d).toNat < 128 ∧
      rfc4648.char d ≠ '-' := by
  revert d
  decide

theorem toNat_toUpper (c : Char) :
    c.toUpper.toNat = if 97 ≤ c.toNat ∧ c.toNat ≤ 122 then c.toNat - 32 else c.toNat := by
  unfold Char.toUpper
  by_cases h : c.val ≥ 'a'.val ∧ c.val ≤ 'z'.val
  · have hrange : 97 ≤ c.toNat ∧ c.toNat ≤ 122 := h
    rw [dif_pos h, if_pos hrange]
    change (c.val + ('A'.val - 'a'.val)).toNat = c.val.toNat - 32
    have hshift : ('A'.val - 'a'.val).toNat = 2 ^ 32 - 32 := by decide
    have hrange : 97 ≤ c.val.toNat ∧ c.val.toNat ≤ 122 := h
    rw [UInt32.toNat_add, hshift]
    omega
  · have hrange : ¬ (97 ≤ c.toNat ∧ c.toNat ≤ 122) := h
    rw [dif_neg h, if_neg hrange]

theorem toUpper_eq_hyphen {c : Char} : c.toUpper = '-' ↔ c = '-' := by
  rw [← Char.toNat_inj, ← Char.toNat_inj, toNat_toUpper]
  change _ = 45 ↔ _ = 45
  split <;> omega

theorem toUpper_toUpper (c : Char) : c.toUpper.toUpper = c.toUpper := by
  rw [← Char.toNat_inj, toNat_toUpper, toNat_toUpper]
  split
  · rw [if_neg (by omega)]
  · rfl

section Reading

variable {b : CodeBackend} {bytes data secret : List UInt8} {s : String}

theorem toUppercase_of_ascii {l : List Char} (h : ∀ c ∈ l, c.toUpper.toNat < 128) :
    toUppercase b l = l.map Char.toUpper := by
  induction l with
  | nil => rfl
  | cons c l ih =>
    obtain ⟨hc, hl⟩ := List.forall_mem_cons.mp h
    have hascii : c.toNat < 128 := by
      rw [toNat_toUpper] at hc
      split at hc <;> omega
    rw [toUppercase, List.flatMap_cons, b.upper_ascii c hascii, ← toUppercase, ih hl]
    rfl

theorem toUpper_lt_of_digits {l : List Char} {digits : List Base32.Digit}
    (h : l.map Char.toUpper = digits.map rfc4648.char) : ∀ c ∈ l, c.toUpper.toNat < 128 := by
  intro c hc
  obtain ⟨d, -, hd⟩ := List.mem_map.mp (h ▸ List.mem_map_of_mem hc)
  exact hd ▸ (toUpper_char d).2.1

theorem map_toUpper_char (digits : List Base32.Digit) :
    (digits.map rfc4648.char).map Char.toUpper = digits.map rfc4648.char := by
  rw [List.map_map]
  exact List.map_congr_left fun d _ => (toUpper_char d).1

theorem filter_ofBytes (bytes : List UInt8) :
    ((ofBytes b bytes).text.toList.filter fun c => c ≠ '-') = rfc4648.encode bytes := by
  have hupper := map_toUpper_char (Base32.encodeDigits bytes)
  rw [ofBytes, format, Base32.filter_intercalate _ (by simp), Base32.flatten_toChunks,
    Base32.Alphabet.encode, toUppercase_of_ascii (toUpper_lt_of_digits hupper), hupper,
    List.filter_eq_self]
  intro c hc
  obtain ⟨d, -, rfl⟩ := List.mem_map.mp hc
  simpa using (toUpper_char d).2.2

/-- The upper case of the characters that a spelling has besides its hyphens. -/
theorem Respelled.map_toUpper (h : Respelled (ofBytes b bytes).text s) :
    (s.toList.filter fun c => c ≠ '-').map Char.toUpper = rfc4648.encode bytes := by
  rw [Respelled, filter_ofBytes] at h
  exact h.trans (map_toUpper_char _)

theorem Respelled.readBytes (h : Respelled (ofBytes b bytes).text s) :
    readBytes b s = some bytes := by
  have htext := h.map_toUpper
  rw [Code.readBytes, toUppercase_of_ascii (toUpper_lt_of_digits htext), htext, b.decode_encode]

theorem Respelled.toUppercase (h : Respelled (ofBytes b bytes).text s) :
    Respelled (ofBytes b bytes).text (String.ofList (toUppercase b s.toList)) := by
  have hascii : ∀ c ∈ s.toList, c.toUpper.toNat < 128 := by
    intro c hc
    by_cases hhyphen : c = '-'
    · rw [hhyphen]
      decide
    · exact toUpper_lt_of_digits h.map_toUpper c (List.mem_filter.mpr ⟨hc, by simpa⟩)
  rw [toUppercase_of_ascii hascii, Respelled, String.toList_ofList, List.filter_map, List.map_map]
  simp only [Function.comp_def, ne_eq, toUpper_eq_hyphen, toUpper_toUpper]
  exact h

theorem length_signed (data secret : List UInt8) :
    (signed b data secret).length = data.length + 4 := by
  simp [signed]

/-- The parts into which a reader cuts signed data. -/
theorem signed_parts {n m : ℕ} (hn : data.length = n) (hm : m = n + 3) (secret : List UInt8) :
    some (checksum ((signed b data secret).take m)) = ((signed b data secret).drop m).head? ∧
      ((signed b data secret).take m).take n = data ∧
      (((signed b data secret).take m).drop n).take 3 = (b.sign data secret).toList.take 3 := by
  have hlen : (data ++ (b.sign data secret).toList.take 3).length = m := by simp [hn, hm]
  have htake : (signed b data secret).take m = data ++ (b.sign data secret).toList.take 3 :=
    List.take_left' hlen
  have hdrop : (signed b data secret).drop m =
      [checksum (data ++ (b.sign data secret).toList.take 3)] := List.drop_left' hlen
  rw [htake, hdrop, List.drop_left' hn, List.take_take]
  exact ⟨rfl, List.take_left' hn, rfl⟩

theorem tryInto_of_length {n : ℕ} {slice : List UInt8} (h : slice.length = n) :
    ∃ v : Vector UInt8 n, tryInto n slice = some v ∧ v.toList = slice :=
  ⟨⟨slice.toArray, h⟩, dif_pos h, rfl⟩

theorem tryInto_toList {n : ℕ} (v : Vector UInt8 n) : tryInto n v.toList = some v := by
  obtain ⟨l, rfl⟩ := v
  simp [tryInto]

theorem slice_append {x y : List UInt8} {i j : ℕ} (hi : x.length = i) (hj : (x ++ y).length = j)
    (z : List UInt8) : ((x ++ y ++ z).take j).drop i = y := by
  rw [List.take_left' hj, List.drop_left' hi]

theorem parseV1_signed (random : Vector UInt8 6) (days : Int16) (distributor : Vector UInt8 4) :
    parseV1 b (signed b (daysData random days distributor) secret) secret =
      some (.days days distributor) := by
  have hparts := signed_parts (b := b) (show (daysData random days distributor).length = 12 by
    simp [daysData]) rfl secret
  have hdays : ((daysData random days distributor).take 8).drop 6 =
      toBeBytes 2 days.toBitVec.toNat := slice_append (by simp) (by simp) _
  have hdist : ((daysData random days distributor).take 12).drop 8 = distributor.toList := by
    rw [← List.append_nil (daysData random days distributor)]
    exact slice_append (by simp) (by simp) _
  obtain ⟨v, hv, hbytes⟩ := tryInto_of_length (length_toBeBytes 2 days.toBitVec.toNat)
  have hmod : days.toBitVec.toNat % 256 ^ 2 = days.toBitVec.toNat :=
    Nat.mod_eq_of_lt days.toBitVec.isLt
  rw [parseV1]
  simp only [hparts, ne_eq, not_true, if_false, hdays, hdist, hv, tryInto_toList,
    Option.bind_eq_bind, Option.bind_some, hbytes, fromBeBytes_toBeBytes, hmod,
    BitVec.ofNat_toNat, BitVec.setWidth_eq, Int16.ofBitVec_toBitVec]

theorem parseV2_signed (random : Vector UInt8 6) (trafficGib : UInt32)
    (distributor : Vector UInt8 4) :
    parseV2 b (signed b (liteData random trafficGib distributor) secret) secret =
      some (.lite trafficGib distributor) := by
  have hparts := signed_parts (b := b) (show (liteData random trafficGib distributor).length = 15 by
    simp [liteData]) rfl secret
  have hdist : ((liteData random trafficGib distributor).take 11).drop 7 = distributor.toList :=
    slice_append (by simp) (by simp) _
  have htraffic : ((liteData random trafficGib distributor).take 15).drop 11 =
      toBeBytes 4 trafficGib.toNat := by
    rw [← List.append_nil (liteData random trafficGib distributor)]
    exact slice_append (by simp) (by simp) _
  have hversion : (liteData random trafficGib distributor).head? = some codeVersionLite := rfl
  obtain ⟨v, hv, hbytes⟩ := tryInto_of_length (length_toBeBytes 4 trafficGib.toNat)
  have hmod : trafficGib.toNat % 256 ^ 4 = trafficGib.toNat :=
    Nat.mod_eq_of_lt trafficGib.toBitVec.isLt
  rw [parseV2]
  simp only [hparts, ne_eq, not_true, if_false, hdist, htraffic, hversion, hv, tryInto_toList,
    Option.bind_eq_bind, Option.bind_some, hbytes, fromBeBytes_toBeBytes, hmod,
    UInt32.ofNat_toNat]

theorem parsePayload_eq (h : readBytes b s = some bytes) :
    parsePayload b s secret =
      if bytes.length = codeV1Len then parseV1 b bytes secret
      else if bytes.length = codeV2Len then parseV2 b bytes secret else none := by
  rw [parsePayload, h]

/-- A code whose bytes are read as a payload is read so in every spelling. -/
theorem reads_of_respelled {payload : CodePayload}
    (hlen : bytes.length = codeV1Len ∨ bytes.length = codeV2Len)
    (h : Respelled (ofBytes b bytes).text s)
    (hparse : (if bytes.length = codeV1Len then parseV1 b bytes secret
      else if bytes.length = codeV2Len then parseV2 b bytes secret else none) = some payload) :
    Reads b secret s payload := by
  have hread := (parsePayload_eq h.readBytes).trans hparse
  have hupper := (parsePayload_eq h.toUppercase.readBytes).trans hparse
  refine ⟨hread, ?_, ⟨String.ofList (Code.toUppercase b s.toList)⟩, ?_, ?_⟩
  · rw [validatePayload, hread]
  · rw [fromStr, h.readBytes]
    exact if_neg (by tauto)
  · rw [validatePayload, hupper]

variable {random : Vector UInt8 6} {distributor : Vector UInt8 4}

theorem reads_new {days : Int16} (h : Respelled (new b random days distributor secret).text s) :
    Reads b secret s (.days days distributor) := by
  have hlen : (signed b (daysData random days distributor) secret).length = codeV1Len := by
    simp [length_signed, daysData, codeV1Len]
  refine reads_of_respelled (.inl hlen) h ?_
  rw [if_pos hlen, parseV1_signed]

theorem reads_newLite {trafficGib : UInt32}
    (h : Respelled (newLite b random trafficGib distributor secret).text s) :
    Reads b secret s (.lite trafficGib distributor) := by
  have hlen : (signed b (liteData random trafficGib distributor) secret).length = codeV2Len := by
    simp [length_signed, liteData, codeV2Len]
  refine reads_of_respelled (.inr hlen) h ?_
  rw [if_neg (by rw [hlen]; decide), if_pos hlen, parseV2_signed]

end Reading

/-- Every spelling of a code is read as what the code was made from. -/
theorem code_roundTrip (b : CodeBackend) (random : Vector UInt8 6) (distributor : Vector UInt8 4)
    (secret : List UInt8) (s : String) :
    (∀ days, Respelled (new b random days distributor secret).text s →
      Reads b secret s (.days days distributor)) ∧
      ∀ trafficGib, Respelled (newLite b random trafficGib distributor secret).text s →
        Reads b secret s (.lite trafficGib distributor) :=
  ⟨fun _ => reads_new, fun _ => reads_newLite⟩

theorem code_roundTrip_sample :
    parsePayload .sample "a4dqobyha4-aauvcfknkho53x3e" [1, 2] =
        some (.days 10 #v[84, 69, 83, 84]) ∧
      parsePayload .sample "aidqo-byha4DVIRKTKQAAAAAKPF4XTYI-" [1, 2] =
        some (.lite 10 #v[84, 69, 83, 84]) := by
  have h := fun s => code_roundTrip .sample (Vector.replicate 6 7) #v[84, 69, 83, 84] [1, 2] s
  exact ⟨((h _).1 10 (by decide +kernel)).parsed, ((h _).2 10 (by decide +kernel)).parsed⟩

end Code

end Fcore
