import Mathlib.Data.List.Basic
import Mathlib.Data.UInt

/-!
# Base 32

Bytes and digits of five bits stand for the same string of bits, with the most significant
bit of each first. Encoding cuts the bits of the bytes into digits and fills the last one up
with zeros; decoding cuts the bits of the digits into bytes and drops what is left. An
alphabet gives every digit a character of its own.
-/

namespace Fcore

namespace Base32

abbrev Digit := BitVec 5

def byteBits (b : UInt8) : List Bool :=
  [b.toBitVec[7], b.toBitVec[6], b.toBitVec[5], b.toBitVec[4], b.toBitVec[3], b.toBitVec[2],
    b.toBitVec[1], b.toBitVec[0]]

def digitBits (d : Digit) : List Bool := [d[4], d[3], d[2], d[1], d[0]]

def byteOf (bits : List Bool) : UInt8 :=
  bits.foldl (fun n bit => 2 * n + if bit then 1 else 0) 0

def digitOf (b₄ b₃ b₂ b₁ b₀ : Bool) : Digit := BitVec.ofBoolListBE [b₄, b₃, b₂, b₁, b₀]

def digitsOf : List Bool → List Digit
  | b₄ :: b₃ :: b₂ :: b₁ :: b₀ :: rest => digitOf b₄ b₃ b₂ b₁ b₀ :: digitsOf rest
  | [b₄, b₃, b₂, b₁] => [digitOf b₄ b₃ b₂ b₁ false]
  | [b₄, b₃, b₂] => [digitOf b₄ b₃ b₂ false false]
  | [b₄, b₃] => [digitOf b₄ b₃ false false false]
  | [b₄] => [digitOf b₄ false false false false]
  | [] => []

def bytesOf : List Bool → List UInt8
  | b₇ :: b₆ :: b₅ :: b₄ :: b₃ :: b₂ :: b₁ :: b₀ :: rest =>
    byteOf [b₇, b₆, b₅, b₄, b₃, b₂, b₁, b₀] :: bytesOf rest
  | _ => []

theorem digitBits_digitOf (b₄ b₃ b₂ b₁ b₀ : Bool) :
    digitBits (digitOf b₄ b₃ b₂ b₁ b₀) = [b₄, b₃, b₂, b₁, b₀] := by
  revert b₄ b₃ b₂ b₁ b₀
  decide

theorem byteOf_byteBits (b : UInt8) : byteOf (byteBits b) = b := by
  obtain ⟨⟨b⟩⟩ := b
  revert b
  decide +kernel

/-- The bits of the digits are the given ones and less than a digit of zeros. -/
theorem digitBits_digitsOf (bits : List Bool) :
    ∃ k < 5, (digitsOf bits).flatMap digitBits = bits ++ List.replicate k false := by
  fun_induction digitsOf bits with
  | case1 b₄ b₃ b₂ b₁ b₀ rest ih =>
    obtain ⟨k, hk, h⟩ := ih
    exact ⟨k, hk, by simp [digitBits_digitOf, h]⟩
  | case2 b₄ b₃ b₂ b₁ => exact ⟨1, by omega, by simp [digitBits_digitOf]⟩
  | case3 b₄ b₃ b₂ => exact ⟨2, by omega, by simp [digitBits_digitOf]⟩
  | case4 b₄ b₃ => exact ⟨3, by omega, by simp [digitBits_digitOf]⟩
  | case5 b₄ => exact ⟨4, by omega, by simp [digitBits_digitOf]⟩
  | case6 => exact ⟨0, by omega, rfl⟩

theorem byteBits_byteOf (b₇ b₆ b₅ b₄ b₃ b₂ b₁ b₀ : Bool) :
    byteBits (byteOf [b₇, b₆, b₅, b₄, b₃, b₂, b₁, b₀]) = [b₇, b₆, b₅, b₄, b₃, b₂, b₁, b₀] := by
  revert b₇ b₆ b₅ b₄ b₃ b₂ b₁ b₀
  decide +kernel

theorem byteBits_bytesOf (bits : List Bool) :
    (bytesOf bits).flatMap byteBits = bits.take (8 * (bits.length / 8)) := by
  fun_induction bytesOf bits with
  | case1 b₇ b₆ b₅ b₄ b₃ b₂ b₁ b₀ rest ih =>
    have hlen : (b₇ :: b₆ :: b₅ :: b₄ :: b₃ :: b₂ :: b₁ :: b₀ :: rest).length / 8 =
        rest.length / 8 + 1 := by
      simp only [List.length_cons]
      omega
    rw [List.flatMap_cons, byteBits_byteOf, ih, hlen]
    rfl
  | case2 bits h =>
    rcases bits with _ | ⟨b₇, _ | ⟨b₆, _ | ⟨b₅, _ | ⟨b₄, _ | ⟨b₃, _ | ⟨b₂, _ | ⟨b₁, _ |
      ⟨b₀, rest⟩⟩⟩⟩⟩⟩⟩⟩
    case cons.cons.cons.cons.cons.cons.cons.cons => exact (h _ _ _ _ _ _ _ _ _ rfl).elim
    all_goals simp

theorem bytesOf_byteBits_append (bytes : List UInt8) (rest : List Bool) :
    bytesOf (bytes.flatMap byteBits ++ rest) = bytes ++ bytesOf rest := by
  induction bytes with
  | nil => rfl
  | cons b bytes ih =>
    change byteOf (byteBits b) :: bytesOf (bytes.flatMap byteBits ++ rest) = _
    rw [byteOf_byteBits, ih]
    rfl

theorem bytesOf_byteBits (bytes : List UInt8) : bytesOf (bytes.flatMap byteBits) = bytes := by
  have := bytesOf_byteBits_append bytes []
  rwa [List.append_nil, show bytesOf [] = [] from rfl, List.append_nil] at this

theorem bytesOf_of_length_lt {bits : List Bool} (h : bits.length < 8) : bytesOf bits = [] := by
  fun_cases bytesOf bits with
  | case1 =>
    simp only [List.length_cons] at h
    omega
  | case2 => rfl

theorem length_digitsOf (bits : List Bool) :
    (digitsOf bits).length = (bits.length + 4) / 5 := by
  fun_induction digitsOf bits with
  | case1 b₄ b₃ b₂ b₁ b₀ rest ih =>
    simp only [List.length_cons, ih]
    omega
  | case2 | case3 | case4 | case5 | case6 => simp

theorem length_byteBits_flatMap (bytes : List UInt8) :
    (bytes.flatMap byteBits).length = 8 * bytes.length := by
  simp [List.length_flatMap, byteBits, mul_comm]

def encodeDigits (bytes : List UInt8) : List Digit := digitsOf (bytes.flatMap byteBits)

def decodeDigits (digits : List Digit) : List UInt8 := bytesOf (digits.flatMap digitBits)

theorem decodeDigits_encodeDigits (bytes : List UInt8) :
    decodeDigits (encodeDigits bytes) = bytes := by
  obtain ⟨k, hk, h⟩ := digitBits_digitsOf (bytes.flatMap byteBits)
  have hrest : (List.replicate k false).length < 8 := by
    rw [List.length_replicate]
    omega
  rw [decodeDigits, encodeDigits, h, bytesOf_byteBits_append, bytesOf_of_length_lt hrest,
    List.append_nil]

theorem length_encodeDigits (bytes : List UInt8) :
    (encodeDigits bytes).length = (8 * bytes.length + 4) / 5 := by
  rw [encodeDigits, length_digitsOf, length_byteBits_flatMap]

/-- The characters that stand for the digits. -/
structure Alphabet where
  char : Digit → Char
  injective : Function.Injective char

namespace Alphabet

variable (alphabet : Alphabet)

def encode (bytes : List UInt8) : List Char := (encodeDigits bytes).map alphabet.char

theorem length_encode (bytes : List UInt8) :
    (alphabet.encode bytes).length = (8 * bytes.length + 4) / 5 := by
  rw [encode, List.length_map, length_encodeDigits]

/-- The digit of a character. -/
def digit? (c : Char) : Option Digit :=
  ((List.finRange 32).map BitVec.ofFin).find? fun d => alphabet.char d = c

theorem digit?_char (d : Digit) : alphabet.digit? (alphabet.char d) = some d := by
  have hmem : d ∈ (List.finRange 32).map (BitVec.ofFin : Fin (2 ^ 5) → Digit) :=
    List.mem_map.mpr ⟨d.toFin, List.mem_finRange _, rfl⟩
  cases h : alphabet.digit? (alphabet.char d) with
  | none => exact absurd (decide_eq_true rfl) (List.find?_eq_none.mp h d hmem)
  | some d' => exact congrArg some (alphabet.injective (by simpa using List.find?_some h))

def decode (text : List Char) : Option (List UInt8) := (text.mapM alphabet.digit?).map decodeDigits

theorem decode_map_char (digits : List Digit) :
    alphabet.decode (digits.map alphabet.char) = some (decodeDigits digits) := by
  have hdigits : (digits.map alphabet.char).mapM alphabet.digit? = some digits := by
    induction digits with
    | nil => rfl
    | cons d digits ih => simp [digit?_char, ih]
  rw [decode, hdigits]
  rfl

end Alphabet

/-! ### Weights -/

section Weights

variable {c : ℕ → UInt8} {p : ℕ}

/-- The sum of the weights of the bits that are set, from position `p` on. -/
def weigh (c : ℕ → UInt8) : ℕ → List Bool → UInt8
  | _, [] => 0
  | p, bit :: bits => (if bit then c p else 0) + weigh c (p + 1) bits

theorem weigh_append (p : ℕ) (bits bits' : List Bool) :
    weigh c p (bits ++ bits') = weigh c p bits + weigh c (p + bits.length) bits' := by
  induction bits generalizing p with
  | nil => simp [weigh]
  | cons bit bits ih =>
    have hpos : p + 1 + bits.length = p + (bits.length + 1) := by omega
    rw [List.cons_append, weigh, weigh, ih, List.length_cons, hpos, add_assoc]

theorem weigh_eq_zero (h : ∀ q ≥ p, c q = 0) (bits : List Bool) : weigh c p bits = 0 := by
  induction bits generalizing p with
  | nil => rfl
  | cons bit bits ih =>
    rw [weigh, h p le_rfl, ite_self, zero_add]
    exact ih fun q hq => h q (by omega)

theorem weigh_map {c' : ℕ → UInt8} {p' : ℕ} (f : UInt8 →+ UInt8) {bits : List Bool}
    (h : ∀ k < bits.length, c (p + k) = f (c' (p' + k))) :
    weigh c p bits = f (weigh c' p' bits) := by
  induction bits generalizing p p' with
  | nil => exact f.map_zero.symm
  | cons bit bits ih =>
    have hbits : ∀ k < bits.length, c (p + 1 + k) = f (c' (p' + 1 + k)) := by
      intro k hk
      rw [add_assoc, add_assoc, add_comm 1]
      exact h (k + 1) (Nat.succ_lt_succ hk)
    have hbit : c p = f (c' p') := h 0 (Nat.succ_pos _)
    rw [weigh, weigh, f.map_add, ih hbits, apply_ite f, f.map_zero, hbit]

/-- The value of a bit in its byte. -/
def place (p : ℕ) : UInt8 := UInt8.ofNat (2 ^ (7 - p % 8))

theorem weigh_place_byteBits (i : ℕ) (b : UInt8) : weigh place (8 * i) (byteBits b) = b := by
  have hzero : weigh place 0 (byteBits b) = b := by
    obtain ⟨⟨b⟩⟩ := b
    revert b
    decide +kernel
  refine (weigh_map (.id _) fun k _ => ?_).trans hzero
  simp [place]

theorem weigh_place (i : ℕ) (bytes : List UInt8) :
    weigh place (8 * i) (bytes.flatMap byteBits) = bytes.sum := by
  induction bytes generalizing i with
  | nil => rfl
  | cons b bytes ih =>
    rw [List.flatMap_cons, weigh_append, weigh_place_byteBits]
    exact congrArg (b + ·) (ih (i + 1))

/-- The weights of `n` bytes of which the last is subtracted from the sum of the others. -/
def weight (n p : ℕ) : UInt8 :=
  if p < 8 * (n - 1) then place p else if p < 8 * n then -place p else 0

theorem weigh_weight (bytes : List UInt8) (b : UInt8) :
    weigh (weight (bytes.length + 1)) 0 ((bytes ++ [b]).flatMap byteBits) = bytes.sum - b := by
  have hlen := length_byteBits_flatMap bytes
  have hbytes : weigh (weight (bytes.length + 1)) 0 (bytes.flatMap byteBits) = bytes.sum := by
    refine (weigh_map (.id _) fun k hk => ?_).trans (weigh_place 0 bytes)
    rw [weight, if_pos (by omega)]
    simp
  have hlast : weigh (weight (bytes.length + 1)) (8 * bytes.length) (byteBits b) = -b := by
    refine (weigh_map negAddMonoidHom fun k hk => ?_).trans
      (congrArg _ (weigh_place_byteBits bytes.length b))
    have hk : k < 8 := hk
    rw [weight, if_neg (by omega), if_pos (by omega)]
    rfl
  rw [List.flatMap_append, weigh_append, hbytes, zero_add, hlen, List.flatMap_singleton, hlast,
    sub_eq_add_neg]

/-- The bits of a digit at position `p`, read off a sum of their values. -/
def readDigit (p : ℕ) (sum : UInt8) : List Bool :=
  ((byteBits sum ++ byteBits sum).drop (p % 8)).take 5

theorem readDigit_weigh_place :
    ∀ j < 8, ∀ d : Digit, readDigit (5 * j) (weigh place (5 * j) (digitBits d)) = digitBits d := by
  decide +kernel

/-- The weighed sum of the digit `j` determines its bits in the `n` bytes. -/
def Detects (n j : ℕ) : Prop :=
  ∀ d, (readDigit (5 * j) (if 5 * j < 8 * (n - 1) then weigh (weight n) (5 * j) (digitBits d)
    else -weigh (weight n) (5 * j) (digitBits d))).take (8 * n - 5 * j) =
      (digitBits d).take (8 * n - 5 * j)

instance (n j : ℕ) : Decidable (Detects n j) := inferInstanceAs (Decidable (∀ _ : Digit, _))

/-- Before the last byte, the values of the bits repeat every eight digits. -/
theorem detects_of_le {n j : ℕ} (h : 5 * j + 5 ≤ 8 * (n - 1)) : Detects n j := by
  intro d
  have hweigh : weigh (weight n) (5 * j) (digitBits d) =
      weigh place (5 * (j % 8)) (digitBits d) := by
    refine weigh_map (.id _) fun k hk => ?_
    have hk : k < 5 := hk
    have hmod : (5 * j + k) % 8 = (5 * (j % 8) + k) % 8 := by omega
    rw [weight, if_pos (by omega), place, hmod]
    rfl
  have hpos : 5 * j % 8 = 5 * (j % 8) % 8 := by omega
  rw [if_pos (by omega), hweigh, readDigit, hpos, ← readDigit,
    readDigit_weigh_place _ (Nat.mod_lt _ (by decide))]

theorem length_digitBits_flatMap (digits : List Digit) :
    (digits.flatMap digitBits).length = 5 * digits.length := by
  simp [List.length_flatMap, digitBits, mul_comm]

theorem length_decodeDigits (digits : List Digit) :
    (decodeDigits digits).length = 5 * digits.length / 8 := by
  have hbits := congrArg List.length (byteBits_bytesOf (digits.flatMap digitBits))
  rw [length_byteBits_flatMap, List.length_take, length_digitBits_flatMap] at hbits
  rw [decodeDigits]
  omega

theorem weigh_decodeDigits {n : ℕ} {digits : List Digit} (h : 5 * digits.length / 8 = n) :
    weigh (weight n) 0 ((decodeDigits digits).flatMap byteBits) =
      weigh (weight n) 0 (digits.flatMap digitBits) := by
  have hlen := length_digitBits_flatMap digits
  rw [decodeDigits, byteBits_bytesOf, hlen, h]
  generalize digits.flatMap digitBits = bits at hlen ⊢
  have hrest : weigh (weight n) (0 + (bits.take (8 * n)).length) (bits.drop (8 * n)) = 0 := by
    refine weigh_eq_zero (fun q hq => ?_) _
    rw [List.length_take, hlen] at hq
    rw [weight, if_neg (by omega), if_neg (by omega)]
  conv_rhs => rw [← List.take_append_drop (8 * n) bits, weigh_append, hrest, add_zero]

/-- Texts that differ in one digit and have the same weighed sum stand for the same bytes. -/
theorem decodeDigits_eq_of_weigh {n m : ℕ} (h : ∀ j < m, Detects n j)
    {pre post : List Digit} {d e : Digit}
    (hlen : (pre ++ d :: post).length = m) (hn : 5 * m / 8 = n)
    (hweigh : weigh (weight n) 0 ((decodeDigits (pre ++ d :: post)).flatMap byteBits) =
      weigh (weight n) 0 ((decodeDigits (pre ++ e :: post)).flatMap byteBits)) :
    decodeDigits (pre ++ d :: post) = decodeDigits (pre ++ e :: post) := by
  have hlen' : (pre ++ e :: post).length = m := by simpa using hlen
  have hpre := length_digitBits_flatMap pre
  -- the bits of the two texts, up to the last whole byte
  have htake : ((pre ++ d :: post).flatMap digitBits).take (8 * n) =
      ((pre ++ e :: post).flatMap digitBits).take (8 * n) := by
    have hdigit : weigh (weight n) (5 * pre.length) (digitBits d) =
        weigh (weight n) (5 * pre.length) (digitBits e) := by
      rw [weigh_decodeDigits (by rw [hlen, hn]), weigh_decodeDigits (by rw [hlen', hn])] at hweigh
      simp only [List.flatMap_append, List.flatMap_cons, weigh_append, hpre, zero_add] at hweigh
      exact add_right_cancel (add_left_cancel hweigh)
    have hbits := h pre.length (by rw [← hlen]; simp)
    have hbits := (hbits d).symm.trans (hdigit ▸ hbits e)
    simp only [List.flatMap_append, List.flatMap_cons, List.take_append, hpre, hbits]
    rfl
  have hbytes : (decodeDigits (pre ++ d :: post)).flatMap byteBits =
      (decodeDigits (pre ++ e :: post)).flatMap byteBits := by
    rw [decodeDigits, decodeDigits, byteBits_bytesOf, byteBits_bytesOf, length_digitBits_flatMap,
      length_digitBits_flatMap, hlen, hlen', hn, htake]
  rw [← bytesOf_byteBits (decodeDigits (pre ++ d :: post)), hbytes, bytesOf_byteBits]

end Weights

/-! ### Groups -/

section Groups

variable {α : Type*}

theorem flatten_toChunks_go (n : ℕ) (l : List α) (group : Array α) (groups : Array (List α)) :
    (List.toChunks.go n l group groups).flatten =
      groups.toList.flatten ++ group.toList ++ l := by
  induction l generalizing group groups with
  | nil => simp [List.toChunks.go]
  | cons a l ih =>
    rw [List.toChunks.go]
    split <;> simp [ih]

theorem flatten_toChunks (n : ℕ) (l : List α) : (l.toChunks n).flatten = l := by
  fun_cases List.toChunks n l with
  | case1 => rfl
  | case2 => simp
  | case3 x xs => simp [flatten_toChunks_go]

/-- A text written in groups has the characters of the text. -/
theorem filter_intercalate (p : Char → Bool) {sep : String} (hsep : ∀ c ∈ sep.toList, p c = false)
    (groups : List (List Char)) :
    (sep.intercalate (groups.map String.ofList)).toList.filter p = groups.flatten.filter p := by
  have hnil : sep.toList.filter p = [] := by
    simpa using hsep
  have htexts : (groups.map String.ofList).map String.toList = groups := by simp
  rw [String.toList_intercalate, htexts]
  clear htexts
  induction groups with
  | nil => rfl
  | cons group groups ih =>
    cases groups with
    | nil => simp
    | cons next groups =>
      rw [List.intercalate_cons_cons, List.filter_append, List.filter_append, hnil, ih]
      simp

end Groups

end Base32

end Fcore
