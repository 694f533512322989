import Fcore.Handlers.Amnezia.Holders

/-!
# Ports and weights of a pool

The port of an entry address is that of the last member with the inbound that has the
address, its weight the one the first member with the address gives it, with or without the
inbound. So where members share an address, the two may come from different nodes.
-/

namespace Fcore

/-- The port under which a node serves a tag at an entry address of its own. -/
def Node.portAt (b : GatewayBackend) (tag : Tag) (ip : String) (node : Node) : Option UInt16 :=
  if ip ∈ node.entryIps b.v4Text then (node.inbounds.lookup tag).map fun i => i.port else none

/-- Every address has port and weight from one member. -/
def PoolCoherent (b : GatewayBackend) (members : List Node) (tag : Tag) : Prop :=
  ∀ ip ∈ nodePortsOfMembers b members tag, ∃ m ∈ members, ∃ inbound,
    m.inbounds.lookup tag = some inbound ∧ ip ∈ m.entryIps b.v4Text ∧
    (nodePortsOfMembers b members tag).lookup ip = some inbound.port ∧
    (nodeWeightsOfIps b members (nodePortsOfMembers b members tag)).lookup ip =
      some (m.weightFor ip)

section Pool

variable {b : GatewayBackend} {members : List Node} {tag : Tag} {ip : String}

theorem lookup_insertNodePorts (out : Table String UInt16) (node : Node) :
    (insertNodePorts b tag out node).lookup ip = (node.portAt b tag ip).or (out.lookup ip) := by
  unfold insertNodePorts Node.portAt
  cases node.inbounds.lookup tag with
  | none => simp
  | some inbound =>
    dsimp only [nodePortsOfNode]
    induction node.entryIps b.v4Text generalizing out with
    | nil => rfl
    | cons ip' ips ih =>
      rw [List.map_cons, List.foldl_cons, ih]
      by_cases hip : ip = ip'
      · subst hip
        by_cases hips : ip ∈ ips <;> simp [hips]
      · simp [hip]

theorem lookup_nodePortsOfMembers : (nodePortsOfMembers b members tag).lookup ip =
    members.reverse.findSome? (Node.portAt b tag ip) := by
  have hfold : ∀ out, (members.foldl (insertNodePorts b tag) out).lookup ip =
      (members.reverse.findSome? (Node.portAt b tag ip)).or (out.lookup ip) := by
    induction members with
    | nil => simp
    | cons node members ih =>
      intro out
      rw [List.foldl_cons, ih, lookup_insertNodePorts, List.reverse_cons, List.findSome?_append,
        Option.or_assoc]
      simp
  simpa [nodePortsOfMembers] using hfold ∅

theorem lookup_nodeWeightsOfIps {ports : Table String UInt16} {first : Node} (hip : ip ∈ ports)
    (hfirst : members.find? (fun n => (n.entryIps b.v4Text).contains ip) = some first) :
    (nodeWeightsOfIps b members ports).lookup ip = some (first.weightFor ip) := by
  have hperm := List.perm_insertionSort (· ≤ ·) ports.keys
  have hkeys : ((sortedKeys ports).map id).Nodup := by
    rw [List.map_id]
    exact hperm.nodup_iff.mpr ports.nodupKeys
  have hfound : (sortedKeys ports).find? (fun k => id k = ip) = some ip := by
    cases h : (sortedKeys ports).find? (fun k => id k = ip) with
    | none =>
      have hnot := List.find?_eq_none.mp h ip (hperm.mem_iff.mpr (AList.mem_keys.mpr hip))
      exact absurd (decide_eq_true rfl) hnot
    | some k =>
      have hk := List.find?_some h
      rw [← of_decide_eq_true hk, id]
  refine (AList.lookup_foldl_insert hkeys ip ∅).trans ?_
  rw [hfound, Option.map_some, hfirst]
  rfl

/-- Port and weight come from one member exactly if, for every address, some member serves
the tag there under the port of the last member that does, and gives the address the weight
that the first member with the address gives it. -/
theorem poolCoherent_iff : PoolCoherent b members tag ↔ ∀ ip first port,
    members.find? (fun n => (n.entryIps b.v4Text).contains ip) = some first →
    members.reverse.findSome? (Node.portAt b tag ip) = some port →
    ∃ m ∈ members, m.portAt b tag ip = some port ∧ m.weightFor ip = first.weightFor ip := by
  constructor
  · intro h ip first port hfirst hport
    rw [← lookup_nodePortsOfMembers] at hport
    have hip : ip ∈ nodePortsOfMembers b members tag := AList.lookup_isSome.mp (by simp [hport])
    obtain ⟨m, hm, inbound, hinbound, hentry, hlookup, hweight⟩ := h ip hip
    rw [lookup_nodeWeightsOfIps hip hfirst] at hweight
    refine ⟨m, hm, ?_, (Option.some.inj hweight).symm⟩
    rw [Node.portAt, if_pos hentry, hinbound, Option.map_some, ← hlookup, hport]
  · intro h ip hip
    obtain ⟨port, hport⟩ := Option.isSome_iff_exists.mp (AList.lookup_isSome.mpr hip)
    obtain ⟨holder, hholder, -, hentry⟩ := mem_nodePortsOfMembers.mp hip
    obtain ⟨first, hfirst⟩ : ∃ first, members.find? (fun n =>
        (n.entryIps b.v4Text).contains ip) = some first :=
      Option.isSome_iff_exists.mp (List.find?_isSome.mpr ⟨holder, hholder, by simpa using hentry⟩)
    rw [lookup_nodePortsOfMembers] at hport
    obtain ⟨m, hm, hserves, hweight⟩ := h ip first port hfirst hport
    have hown : ip ∈ m.entryIps b.v4Text := by
      by_contra hnot
      rw [Node.portAt, if_neg hnot] at hserves
      cases hserves
    rw [Node.portAt, if_pos hown] at hserves
    obtain ⟨inbound, hinbound, rfl⟩ := Option.map_eq_some_iff.mp hserves
    rw [lookup_nodePortsOfMembers, lookup_nodeWeightsOfIps hip hfirst, ← hweight]
    exact ⟨m, hm, inbound, hinbound, hown, hport, rfl⟩

end Pool

/-- A member without the inbound comes first and gives the shared address the weight 10. -/
def sharedAddressPool : List Node :=
  [{ euNode 8 1 with inbounds := ∅, nodeWeights := AList.singleton "203.0.113.1" 10 }, euNode 9 1]

theorem not_poolCoherent_shared :
    ¬ PoolCoherent twoAddressGateway sharedAddressPool .vlessTcpReality := by
  intro h
  obtain ⟨m, hm, inbound, hinbound, -, -, hweight⟩ := h "203.0.113.1" (by decide +kernel)
  have hlone : ∀ m ∈ sharedAddressPool, (m.inbounds.lookup .vlessTcpReality).isSome →
      (nodeWeightsOfIps twoAddressGateway sharedAddressPool (nodePortsOfMembers twoAddressGateway
        sharedAddressPool .vlessTcpReality)).lookup "203.0.113.1" ≠
          some (m.weightFor "203.0.113.1") := by decide +kernel
  exact hlone m hm (by rw [hinbound]; rfl) hweight

end Fcore
