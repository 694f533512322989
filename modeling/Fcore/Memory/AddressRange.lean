import Fcore.Lib.Json
import Fcore.Memory.Address
import Fcore.Memory.AddressText

/-!
# Addresses that are read

An address with its mask is read from a text, or from a map with its two fields. A text whose
mask does not fit its address is refused, a map is not checked. The operations shift by the
mask and by what it leaves of the width, so they stay in range exactly if the mask fits, and
then a network contains the addresses that agree with it in the bits of the mask.
-/

namespace Fcore

namespace IpAddrMask

/-! ## Reading -/

def asU8 : Json → Option UInt8
  | .num n => if 0 ≤ n ∧ n < 256 then some (UInt8.ofNat n.toNat) else none
  | _ => none

section Reading

variable (texts : AddrText)

/-- The loop over the fields: of two fields of one name the later counts. -/
def visitMap (address : Option IpAddr) (cidr : Option UInt8) : Json.Fields → Option IpAddrMask
  | .nil => do
      let address ← address
      let cidr ← cidr
      some ⟨address, cidr⟩
  | .cons "address" value rest => do
      let ip ← value.asStr.bind texts.read
      visitMap (some ip) cidr rest
  | .cons "cidr" value rest => do
      let n ← asU8 value
      visitMap address (some n) rest
  | .cons _ _ rest => visitMap address cidr rest

def deserialize : Json → Option IpAddrMask
  | .str s => fromStr texts s
  | .obj fields => visitMap texts none none fields
  | _ => none

end Reading

/-! ## Arithmetic that may go out of range -/

def checkedSub (a b : UInt8) : Option UInt8 := if b ≤ a then some (a - b) else none

def checkedShl {w : ℕ} (x : BitVec w) (n : UInt8) : Option (BitVec w) :=
  if n.toNat < w then some (x <<< n.toNat) else none

def checkedShr {w : ℕ} (x : BitVec w) (n : UInt8) : Option (BitVec w) :=
  if n.toNat < w then some (x >>> n.toNat) else none

def prefixBits (w : ℕ) (cidr : UInt8) : Option (BitVec w) :=
  if cidr = 0 then some 0
  else (checkedSub (UInt8.ofNat w) cidr).bind (checkedShl (BitVec.allOnes w))

def hostBits (w : ℕ) (cidr : UInt8) : Option (BitVec w) :=
  if UInt8.ofNat w ≤ cidr then some 0 else checkedShr (BitVec.allOnes w) cidr

def checkedContainsIpv4 (network : IpAddrMask) (ip : Ipv4Addr) : Option Bool :=
  match network.address with
  | .v4 base => (prefixBits 32 network.cidr).map fun mask => decide (base &&& mask = ip &&& mask)
  | .v6 _ => some false

def checkedMask (network : IpAddrMask) : Option IpAddr :=
  match network.address with
  | .v4 _ => (prefixBits 32 network.cidr).map .v4
  | .v6 _ => (prefixBits 128 network.cidr).map .v6

def checkedBroadcast (network : IpAddrMask) : Option IpAddr :=
  match network.address with
  | .v4 ip => (hostBits 32 network.cidr).map fun bits => .v4 (ip ||| bits)
  | .v6 ip => (hostBits 128 network.cidr).map fun bits => .v6 (ip ||| bits)

/-- No shift and no subtraction of the operations is out of range. -/
def InRange (network : IpAddrMask) : Prop :=
  (∀ ip, (network.checkedContainsIpv4 ip).isSome) ∧ network.checkedMask.isSome ∧
    network.checkedBroadcast.isSome

/-- The addresses contained are those that agree with the network in the bits of the mask. -/
def ContainsAgreeing (network : IpAddrMask) : Prop :=
  ∀ ip, network.checkedContainsIpv4 ip = some true ↔ ∃ base, network.address = .v4 base ∧
    ∀ i < network.cidr.toNat, base.getMsbD i = ip.getMsbD i

variable {w : ℕ} {cidr : UInt8} {network : IpAddrMask}

theorem prefixBits_of_le (hw : (UInt8.ofNat w).toNat = w) (h : cidr ≤ UInt8.ofNat w) :
    prefixBits w cidr =
      some (if cidr = 0 then 0 else BitVec.allOnes w <<< (w - cidr.toNat)) := by
  unfold prefixBits checkedSub
  by_cases hzero : cidr = 0
  · rw [if_pos hzero, if_pos hzero]
  · have hle : cidr.toNat ≤ w := hw ▸ UInt8.le_iff_toNat_le.mp h
    have hpos : 0 < cidr.toNat := Nat.pos_of_ne_zero fun h => hzero (UInt8.toNat_inj.mp h)
    have hsub : (UInt8.ofNat w - cidr).toNat = w - cidr.toNat := by
      rw [UInt8.toNat_sub_of_le _ _ h, hw]
    rw [if_neg hzero, if_neg hzero, if_pos h, Option.bind_some, checkedShl, hsub,
      if_pos (by omega)]

/-- The mask has its ones in front. -/
theorem getMsbD_mask (h : cidr.toNat ≤ w) (i : ℕ) :
    (if cidr = 0 then 0 else BitVec.allOnes w <<< (w - cidr.toNat)).getMsbD i =
      decide (i < cidr.toNat) := by
  split
  · rename_i hzero
    simp [hzero]
  · rw [BitVec.getMsbD_shiftLeft, BitVec.getMsbD_allOnes]
    exact decide_eq_decide.mpr (by omega)

theorem prefixBits_of_lt (h : UInt8.ofNat w < cidr) : prefixBits w cidr = none := by
  have hzero : cidr ≠ 0 := by
    rintro rfl
    exact absurd h (UInt8.not_lt.mpr UInt8.zero_le)
  rw [prefixBits, if_neg hzero, checkedSub, if_neg (UInt8.not_le.mpr h), Option.bind_none]

theorem isSome_hostBits (hw : (UInt8.ofNat w).toNat = w) (cidr : UInt8) :
    (hostBits w cidr).isSome := by
  unfold hostBits checkedShr
  split
  · rfl
  · rename_i hlt
    rw [if_pos (by rw [← hw]; exact UInt8.lt_iff_toNat_lt.mp (UInt8.not_le.mp hlt))]
    rfl

theorem and_eq_and_iff {mask a b : BitVec w} {n : ℕ} (h : ∀ i, mask.getMsbD i = decide (i < n)) :
    a &&& mask = b &&& mask ↔ ∀ i < n, a.getMsbD i = b.getMsbD i := by
  constructor
  · intro heq i hi
    have hbit := congrArg (BitVec.getMsbD · i) heq
    simpa [h, hi] using hbit
  · intro heq
    refine BitVec.eq_of_getMsbD_eq fun i _ => ?_
    by_cases hi : i < n
    · simp [h, hi, heq i hi]
    · simp [h, hi]

theorem inRange_iff (network : IpAddrMask) :
    network.InRange ↔ network.cidr ≤ maxCidr network.address := by
  obtain ⟨address, cidr⟩ := network
  have hhost : (⟨address, cidr⟩ : IpAddrMask).checkedBroadcast.isSome := by
    cases address with
    | v4 ip => exact (Option.isSome_map ..).trans (isSome_hostBits rfl cidr)
    | v6 ip => exact (Option.isSome_map ..).trans (isSome_hostBits rfl cidr)
  constructor
  · rintro ⟨-, hmask, -⟩
    refine UInt8.not_lt.mp fun hlt => ?_
    cases address with
    | v4 ip => simp [checkedMask, prefixBits_of_lt (w := 32) hlt] at hmask
    | v6 ip => simp [checkedMask, prefixBits_of_lt (w := 128) hlt] at hmask
  · intro hle
    cases address with
    | v4 ip =>
      have hmask := prefixBits_of_le (w := 32) rfl hle
      exact ⟨by simp [checkedContainsIpv4, hmask], by simp [checkedMask, hmask], hhost⟩
    | v6 ip =>
      have hmask := prefixBits_of_le (w := 128) rfl hle
      exact ⟨by simp [checkedContainsIpv4], by simp [checkedMask, hmask], hhost⟩

/-- In range the operation is the one that addresses are chosen with. -/
theorem checkedContainsIpv4_of_le (h : network.cidr ≤ maxCidr network.address) (ip : Ipv4Addr) :
    network.checkedContainsIpv4 ip = some (network.containsIpv4 ip) := by
  obtain ⟨address, cidr⟩ := network
  cases address with
  | v4 base =>
    rw [checkedContainsIpv4, prefixBits_of_le (w := 32) rfl h, containsIpv4]
    by_cases hzero : cidr = 0
    · simp only [if_pos hzero, Option.map_some]
    · have hpos : 0 < cidr.toNat := Nat.pos_of_ne_zero fun h => hzero (UInt8.toNat_inj.mp h)
      have hshift : ((32 : UInt8) - cidr).toNat % 32 = 32 - cidr.toNat := by
        rw [UInt8.toNat_sub_of_le 32 cidr h]
        exact Nat.mod_eq_of_lt (Nat.sub_lt (by decide) hpos)
      simp only [if_neg hzero, hshift, Option.map_some]
  | v6 base => rfl

theorem containsAgreeing_of_le (h : network.cidr ≤ maxCidr network.address) :
    network.ContainsAgreeing := by
  intro ip
  obtain ⟨address, cidr⟩ := network
  cases address with
  | v4 base =>
    rw [checkedContainsIpv4, prefixBits_of_le (w := 32) rfl h]
    simp only [IpAddr.v4.injEq, exists_eq_left', Option.map_some, Option.some.injEq,
      decide_eq_true_eq]
    exact and_eq_and_iff (getMsbD_mask (w := 32) (UInt8.le_iff_toNat_le.mp h))
  | v6 base => simp [checkedContainsIpv4]

/-- What is read from a text is in range. What is read from a map is so exactly if its mask fits
its address. -/
theorem operations_total_iff (texts : AddrText) (network : IpAddrMask) :
    ((∃ s, fromStr texts s = some network ∨ deserialize texts (.str s) = some network) →
      network.InRange ∧ network.ContainsAgreeing) ∧
    ((∃ fields, deserialize texts (.obj fields) = some network) →
      (network.InRange ∧ network.ContainsAgreeing ↔
        network.cidr ≤ maxCidr network.address)) := by
  have hfits : network.InRange ∧ network.ContainsAgreeing ↔
      network.cidr ≤ maxCidr network.address := by
    rw [inRange_iff]
    exact and_iff_left_of_imp containsAgreeing_of_le
  refine ⟨?_, fun _ => hfits⟩
  rintro ⟨s, h | h⟩
  · exact hfits.mpr (cidr_le_of_fromStr h)
  · exact hfits.mpr (cidr_le_of_fromStr h)

/-- The fields of an address with its mask. -/
def maskFields (address : String) (cidr : ℤ) : Json.Fields :=
  .cons "address" (.str address) (.cons "cidr" (.num cidr) .nil)

theorem operations_total_of_fields :
    deserialize numberAddrText (.obj (maskFields "4.167772160" 8)) =
        some ⟨.v4 (BitVec.ofNat 32 167772160), 8⟩ ∧
      InRange ⟨.v4 (BitVec.ofNat 32 167772160), 8⟩ ∧
      ContainsAgreeing ⟨.v4 (BitVec.ofNat 32 167772160), 8⟩ := by
  have hread : deserialize numberAddrText (.obj (maskFields "4.167772160" 8)) =
      some ⟨.v4 (BitVec.ofNat 32 167772160), 8⟩ := by
    decide
  exact ⟨hread, ((operations_total_iff numberAddrText _).2 ⟨_, hread⟩).mpr (by decide)⟩

/-- A mask of 33 bits is read from a map, and the subtraction `32 - 33` is out of range. -/
theorem not_inRange_of_fields :
    deserialize numberAddrText (.obj (maskFields "4.167772160" 33)) =
        some ⟨.v4 (BitVec.ofNat 32 167772160), 33⟩ ∧
      checkedSub 32 33 = none ∧ checkedMask ⟨.v4 (BitVec.ofNat 32 167772160), 33⟩ = none ∧
      ∀ ip, checkedContainsIpv4 ⟨.v4 (BitVec.ofNat 32 167772160), 33⟩ ip = none := by
  have hnone : prefixBits 32 33 = none := by decide
  exact ⟨by decide, by decide, by decide, fun ip => by simp [checkedContainsIpv4, hnone]⟩

end IpAddrMask

end Fcore
