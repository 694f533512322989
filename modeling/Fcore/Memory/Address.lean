import Fcore.Memory.Subscription
import Mathlib.Data.List.MinMax

/-!
# Tunnel addresses

Connections of the WireGuard family carry an IPv4 address inside the network of their
tag. A new one gets the address after the largest one in use by its tag, and never one
of the first fifty of the network. The result of this module is that such an address is
in use by no connection of the tag, `Connections.addressFree_of_nextAddr`.

The largest address is the last maximal one of a scan. A connection without an IPv4
address counts as zero there, and zero is never given out.
-/

namespace Fcore

namespace IpAddrMask

def checkedAdd (ip : Ipv4Addr) (n : ℕ) : Option Ipv4Addr :=
  if ip.toNat + n < 2 ^ 32 then some (BitVec.ofNat 32 (ip.toNat + n)) else none

def asIpv4 (mask : IpAddrMask) : Option Ipv4Addr :=
  match mask.address with
  | .v4 ip => some ip
  | .v6 _ => none

def reservedPrefix : ℕ := 50

def incrementIpv4 (ip : Ipv4Addr) : Option Ipv4Addr := checkedAdd ip 1

/-- In the release profile a mask above 32 wraps around in the subtraction, and the shift is
by what is left modulo the width. -/
def containsIpv4 (network : IpAddrMask) (ip : Ipv4Addr) : Bool :=
  match network.address with
  | .v4 base =>
    let mask : BitVec 32 :=
      if network.cidr = 0 then 0 else BitVec.allOnes 32 <<< ((32 - network.cidr).toNat % 32)
    decide (base &&& mask = ip &&& mask)
  | .v6 _ => false

def firstIpv4 (network : IpAddrMask) : Option Ipv4Addr :=
  network.asIpv4.bind incrementIpv4

def firstPeerIp (network : IpAddrMask) : Option Ipv4Addr :=
  (network.firstIpv4.bind incrementIpv4).filter network.containsIpv4

def firstAllocatableIpv4 (network : IpAddrMask) : Option Ipv4Addr :=
  match network.asIpv4.bind fun base => checkedAdd base (reservedPrefix + 1) with
  | none => none
  | some ip => if network.containsIpv4 ip then some ip else network.firstPeerIp

/-- The address after the last one, or the first one of the network. -/
def nextIpv4 (network : IpAddrMask) (lastIp : Option Ipv4Addr) : Option Ipv4Addr :=
  match lastIp with
  | some ip =>
    match incrementIpv4 ip, network.firstAllocatableIpv4 with
    | some candidate, some floor =>
      if candidate.toNat < floor.toNat then some floor else some candidate
    | candidate, _ => candidate
  | none => network.firstAllocatableIpv4.or network.firstPeerIp

variable {ip : Ipv4Addr} {network : IpAddrMask}

theorem toNat_of_checkedAdd {ip' : Ipv4Addr} {n : ℕ} (h : checkedAdd ip n = some ip') :
    ip'.toNat = ip.toNat + n := by
  unfold checkedAdd at h
  split at h
  · obtain rfl := Option.some.inj h
    apply Nat.mod_eq_of_lt
    assumption
  · cases h

theorem pos_of_firstPeerIp (h : network.firstPeerIp = some ip) : 0 < ip.toNat := by
  obtain ⟨hsome, -⟩ := Option.filter_eq_some_iff.mp h
  obtain ⟨first, -, hnext⟩ := Option.bind_eq_some_iff.mp hsome
  rw [toNat_of_checkedAdd hnext]
  exact Nat.succ_pos _

theorem pos_of_firstAllocatableIpv4 (h : network.firstAllocatableIpv4 = some ip) :
    0 < ip.toNat := by
  unfold firstAllocatableIpv4 at h
  split at h
  · cases h
  · rename_i start hstart
    split at h
    · obtain rfl := Option.some.inj h
      obtain ⟨base, -, hadd⟩ := Option.bind_eq_some_iff.mp hstart
      rw [toNat_of_checkedAdd hadd]
      exact Nat.succ_pos _
    · exact pos_of_firstPeerIp h

theorem lt_of_nextIpv4 {last : Ipv4Addr} (h : network.nextIpv4 (some last) = some ip) :
    last.toNat < ip.toNat := by
  have hincrement : ∀ candidate, incrementIpv4 last = some candidate →
      last.toNat < candidate.toNat := by
    intro candidate hcandidate
    rw [toNat_of_checkedAdd hcandidate]
    exact Nat.lt_succ_self _
  unfold nextIpv4 at h
  dsimp only at h
  split at h
  · rename_i candidate floor hcandidate hfloor
    split at h
    · obtain rfl := Option.some.inj h
      exact (hincrement candidate hcandidate).trans ‹_›
    · obtain rfl := Option.some.inj h
      exact hincrement _ hcandidate
  · exact hincrement ip h

theorem pos_of_nextIpv4 (h : network.nextIpv4 none = some ip) : 0 < ip.toNat := by
  rcases Option.or_eq_some_iff.mp h with hfloor | ⟨-, hpeer⟩
  · exact pos_of_firstAllocatableIpv4 hfloor
  · exact pos_of_firstPeerIp hpeer

end IpAddrMask

namespace Conn

def wgAddress (conn : Conn) : Option IpAddrMask :=
  (conn.getWireguard.or conn.getAmneziawg).map fun wg => wg.address

def addrKey (conn : Conn) : ℕ :=
  ((conn.wgAddress.bind IpAddrMask.asIpv4).map BitVec.toNat).getD 0

theorem wgAddress_eq (conn : Conn) : conn.wgAddress = conn.proto.wg.map fun wg => wg.address := by
  unfold wgAddress getWireguard getAmneziawg
  cases conn.proto <;> rfl

end Conn

namespace Connections

/-- Of several maximal elements the last one is taken, so the scan runs backwards. -/
def getLastAddr (connections : Connections) (tag : Tag) : Option IpAddrMask :=
  let conns := (connections.entries.filter fun e => decide (e.2.proto.proto = tag)).map fun e => e.2
  (conns.reverse.argmax Conn.addrKey).bind Conn.wgAddress

/-- The address a new connection of the tag gets, with the texts of the refusals. -/
def nextAddr (connections : Connections) (network : IpAddrMask) (tag : Tag) :
    Except String Ipv4Addr :=
  match network.nextIpv4 ((connections.getLastAddr tag).bind IpAddrMask.asIpv4) with
  | none => .error "Failed to allocate IP"
  | some next => if network.containsIpv4 next then .ok next else .error "IP out of range"

/-- No connection of the tag has the address. -/
def AddressFree (connections : Connections) (tag : Tag) (address : IpAddr) : Prop :=
  ∀ c conn wg, connections.lookup c = some conn → conn.proto.proto = tag →
    conn.proto.wg = some wg → wg.address.address ≠ address

variable {connections : Connections} {tag : Tag}

theorem addrKey_le_of_getLastAddr {c : Uuid} {conn : Conn} (h : connections.lookup c = some conn)
    (htag : conn.proto.proto = tag) :
    conn.addrKey ≤ ((((connections.getLastAddr tag).bind IpAddrMask.asIpv4).map
      BitVec.toNat).getD 0) := by
  have hmem : conn ∈ ((connections.entries.filter fun e =>
      decide (e.2.proto.proto = tag)).map fun e => e.2).reverse := by
    simp only [List.mem_reverse, List.mem_map, List.mem_filter, decide_eq_true_eq]
    exact ⟨⟨c, conn⟩, ⟨AList.mem_entries_iff.mpr h, htag⟩, rfl⟩
  unfold getLastAddr
  dsimp only
  cases hmax : List.argmax Conn.addrKey ((connections.entries.filter fun e =>
      decide (e.2.proto.proto = tag)).map fun e => e.2).reverse with
  | none =>
    rw [List.argmax_eq_none.mp hmax] at hmem
    cases hmem
  | some best => exact List.le_of_mem_argmax hmem hmax

theorem nextIpv4_of_nextAddr {network : IpAddrMask} {ip : Ipv4Addr}
    (h : connections.nextAddr network tag = .ok ip) :
    network.nextIpv4 ((connections.getLastAddr tag).bind IpAddrMask.asIpv4) = some ip := by
  unfold nextAddr at h
  split at h
  · cases h
  · rename_i next hnext
    split at h
    · cases h
      exact hnext
    · cases h

theorem addressFree_of_nextAddr {network : IpAddrMask} {ip : Ipv4Addr}
    (h : connections.nextAddr network tag = .ok ip) : connections.AddressFree tag (.v4 ip) := by
  intro c conn wg hconn htag hwg haddress
  have hkey : conn.addrKey = ip.toNat := by
    simp [Conn.addrKey, Conn.wgAddress_eq, hwg, IpAddrMask.asIpv4, haddress]
  have hle := addrKey_le_of_getLastAddr hconn htag
  rw [hkey] at hle
  have hnext := nextIpv4_of_nextAddr h
  cases hlast : (connections.getLastAddr tag).bind IpAddrMask.asIpv4 with
  | none =>
    rw [hlast] at hle hnext
    exact absurd hle (Nat.not_le.mpr (IpAddrMask.pos_of_nextIpv4 hnext))
  | some last =>
    rw [hlast] at hle hnext
    exact absurd hle (Nat.not_le.mpr (IpAddrMask.lt_of_nextIpv4 hnext))

end Connections

end Fcore
