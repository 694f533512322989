import Fcore.Tasks.DeviceLimit

/-!
# Strikes and the age of samples

How often a connection is online is the sum of the newest samples of all its series,
whatever their age. The series of a node that stopped reporting keeps its last value, so it
counts towards a strike as if the node were still there. The number of peers of a node is
counted from fresh samples only.
-/

namespace Fcore

namespace MetricStorage

def onlinePeerFreshMs : ℤ := 180000

def onlineSamples (m : MetricStorage) (connId : Uuid) : List MetricPoint :=
  (m.matching (some onlineMetric) (connTags connId)).filterMap fun series => series.getLast?

def isFresh (t : ℤ) (p : MetricPoint) : Bool := decide (t - onlinePeerFreshMs < p.timestamp)

def freshOnline (m : MetricStorage) (t : ℤ) (connId : Uuid) : ℚ :=
  (((m.onlineSamples connId).filter (isFresh t)).map MetricPoint.value).sum

def staleOnline (m : MetricStorage) (t : ℤ) (connId : Uuid) : ℚ :=
  (((m.onlineSamples connId).filter fun p => !isFresh t p).map MetricPoint.value).sum

theorem latestSum_eq_fresh_add_stale (m : MetricStorage) (t : ℤ) (connId : Uuid) :
    m.latestSum (some onlineMetric) (connTags connId) =
      m.freshOnline t connId + m.staleOnline t connId := by
  have hsum : m.latestSum (some onlineMetric) (connTags connId) =
      ((m.onlineSamples connId).map MetricPoint.value).sum := by
    rw [latestSum, onlineSamples, List.map_filterMap]
  have hperm := List.filter_append_perm (isFresh t) (m.onlineSamples connId)
  rw [hsum, freshOnline, staleOnline, ← List.sum_append, ← List.map_append]
  exact ((hperm.map MetricPoint.value).sum_eq).symm

theorem two_le_onlineCount_iff {m : MetricStorage} {connId : Uuid} :
    2 ≤ m.getConnectionOnlineCount connId ↔
      2 ≤ m.latestSum (some onlineMetric) (connTags connId) := by
  have hfloor : ∀ z : ℤ, 2 ≤ z.toNat ↔ 2 ≤ z := by omega
  rw [getConnectionOnlineCount, asU64, hfloor, Rat.le_floor_iff, le_max_iff]
  exact or_iff_left (by norm_num)

end MetricStorage

namespace DevicePass

variable {networks : WgNetworks} {maxTicks : ℕ} {pass : DevicePass} {s : World × Strikes}
  {c : Uuid}

/-- In a pass a connection gets a strike when its turn comes. -/
def IsStruck (networks : WgNetworks) (maxTicks : ℕ) (pass : DevicePass) (s : World × Strikes)
    (c : Uuid) : Prop :=
  (∃ item ∈ s.1.mem.liteConns, item.1 = c) ∧
    (pass.strike (pass.atTurn networks maxTicks s c).2 c).1.isSome = true

theorem isSome_strike {strikes : Strikes} :
    (pass.strike strikes c).1.isSome = true ↔ 2 ≤ pass.metrics.getConnectionOnlineCount c := by
  unfold strike
  split
  · rename_i honline
    simpa using Nat.lt_succ_of_le honline
  · rename_i honline
    simpa using Nat.succ_le_of_lt (not_le.mp honline)

/-- A strike rests on two fresh units exactly if the connection is none that is visited, if
there are not two units even with those that are stale, or if two are fresh. -/
theorem isStruck_fresh_iff (networks : WgNetworks) (maxTicks : ℕ) (pass : DevicePass)
    (s : World × Strikes) (c : Uuid) :
    (pass.IsStruck networks maxTicks s c →
        2 ≤ pass.metrics.freshOnline (Traffic.timestampMillis pass.now) c) ↔
      (∀ item ∈ s.1.mem.liteConns, item.1 ≠ c) ∨
        pass.metrics.freshOnline (Traffic.timestampMillis pass.now) c +
          pass.metrics.staleOnline (Traffic.timestampMillis pass.now) c < 2 ∨
        2 ≤ pass.metrics.freshOnline (Traffic.timestampMillis pass.now) c := by
  unfold IsStruck
  rw [isSome_strike, MetricStorage.two_le_onlineCount_iff,
    MetricStorage.latestSum_eq_fresh_add_stale _ (Traffic.timestampMillis pass.now)]
  constructor
  · intro h
    by_cases hvisited : ∃ item ∈ s.1.mem.liteConns, item.1 = c
    · rcases lt_or_ge (pass.metrics.freshOnline (Traffic.timestampMillis pass.now) c +
        pass.metrics.staleOnline (Traffic.timestampMillis pass.now) c) 2 with hfew | henough
      · exact .inr (.inl hfew)
      · exact .inr (.inr (h ⟨hvisited, henough⟩))
    · exact .inl fun item hitem heq => hvisited ⟨item, hitem, heq⟩
  · rintro (hnot | hfew | hfresh) ⟨⟨item, hitem, heq⟩, henough⟩
    · exact absurd heq (hnot item hitem)
    · exact absurd hfew (not_lt.mpr henough)
    · exact hfresh

def silentNode : DevicePass :=
  ⟨DeviceTick.onlineStore [(1, 600000, 1), (2, 0, 1)], fun _ => ⟨6, ⟨""⟩, "", 0, ""⟩, 600000000000⟩

/-- The connection is struck all the same, and replaced if one strike is enough. -/
theorem isStruck_by_silentNode :
    silentNode.IsStruck DeviceTick.phonesNetworks 1
        (DeviceTick.phonesWorld DeviceTick.wireguardPhone, ∅) 5 ∧
      ¬ 2 ≤ silentNode.metrics.freshOnline (Traffic.timestampMillis silentNode.now) 5 ∧
      ((silentNode.enforceDeviceLimit DeviceTick.phonesNetworks 1
        (DeviceTick.phonesWorld DeviceTick.wireguardPhone, ∅)).1.db.connections.lookup 5).map
          ConnRow.deletedReason = some (some DeleteReason.deviceKick) := by
  refine ⟨⟨⟨_, List.mem_singleton.mpr rfl, rfl⟩, ?_⟩, by decide +kernel, by decide +kernel⟩
  rw [isSome_strike]
  decide +kernel

end DevicePass

end Fcore
