import Fcore.Memory.Connection

/-!
# Addresses as text

A tunnel address with its mask is stored as text and read back by `FromStr`. The texts of
plain addresses are those of the standard library, of which only the contract is used:
`AddrText`. A mask is checked when it is read and not when it is written, so what is written
reads back as itself exactly if the mask fits its address, `IpAddrMask.fromStr_toText`.
-/

namespace Fcore

/-- The texts of addresses: what is written reads back, and no text has a slash. -/
structure AddrText where
  write : IpAddr → String
  read : String → Option IpAddr
  read_write : ∀ ip, read (write ip) = some ip
  slash_notMem : ∀ ip, '/' ∉ (write ip).toList

/-- An address is written as its number behind its family. -/
def numberAddrText : AddrText where
  write
    | .v4 bits => "4." ++ toString bits.toNat
    | .v6 bits => "6." ++ toString bits.toNat
  read s :=
    match s.toList with
    | '4' :: '.' :: digits => (Text.parseNat (String.ofList digits)).map fun n => .v4 (.ofNat 32 n)
    | '6' :: '.' :: digits => (Text.parseNat (String.ofList digits)).map fun n => .v6 (.ofNat 128 n)
    | _ => none
  read_write ip := by
    have hdigits : ∀ n : ℕ, Text.parseNat (String.ofList (Nat.toDigits 10 n)) = some n := by
      intro n
      exact Text.parseNat_toString n
    cases ip with
    | v4 bits => simp [hdigits]
    | v6 bits => simp [hdigits]
  slash_notMem ip := by
    have hdigits : ∀ n : ℕ, '/' ∉ (toString n).toList := by
      intro n h
      exact absurd (Text.isDigit_of_mem_toString h) (by decide)
    cases ip with
    | v4 bits => simpa using hdigits bits.toNat
    | v6 bits => simpa using hdigits bits.toNat

namespace IpAddrMask

variable (texts : AddrText)

def toText (mask : IpAddrMask) : String :=
  texts.write mask.address ++ "/" ++ toString mask.cidr.toNat

def maxCidr : IpAddr → UInt8
  | .v4 _ => 32
  | .v6 _ => 128

def fromStr (s : String) : Option IpAddrMask :=
  match Text.splitOnce '/' s with
  | some (left, right) => do
      let ip ← texts.read left
      let cidr ← Text.parseU8 right
      if maxCidr ip < cidr then none else some ⟨ip, cidr⟩
  | none => do
      let ip ← texts.read s
      some ⟨ip, maxCidr ip⟩

def reread (mask : IpAddrMask) : Option IpAddrMask :=
  if maxCidr mask.address < mask.cidr then none else some mask

variable {texts}

theorem fromStr_toText (mask : IpAddrMask) : fromStr texts (mask.toText texts) = mask.reread := by
  have hsplit : Text.splitOnce '/' (mask.toText texts) =
      some (texts.write mask.address, toString mask.cidr.toNat) :=
    Text.splitOnce_append (texts.slash_notMem mask.address) _
  rw [fromStr, hsplit]
  dsimp only
  rw [texts.read_write, Text.parseU8_toString]
  rfl

theorem cidr_le_of_fromStr {s : String} {mask : IpAddrMask} (h : fromStr texts s = some mask) :
    mask.cidr ≤ maxCidr mask.address := by
  unfold fromStr at h
  split at h
  · obtain ⟨ip, -, h⟩ := Option.bind_eq_some_iff.mp h
    obtain ⟨cidr, -, h⟩ := Option.bind_eq_some_iff.mp h
    split at h
    · cases h
    · rename_i hle
      cases h
      exact UInt8.not_lt.mp hle
  · obtain ⟨ip, -, h⟩ := Option.bind_eq_some_iff.mp h
    cases h
    exact UInt8.le_refl _

theorem reread_eq_some_iff {mask mask' : IpAddrMask} :
    mask.reread = some mask' ↔ mask.cidr ≤ maxCidr mask.address ∧ mask = mask' := by
  unfold reread
  split
  · rename_i hlt
    simp [UInt8.not_le.mpr hlt]
  · rename_i hle
    simp [UInt8.not_lt.mp hle]

end IpAddrMask

end Fcore
