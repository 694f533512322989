import Fcore.Alerts

/-!
# The protocol of the offline alerts

A node is up, down, or down for long. It is reported offline when it goes down, a second time
when it has been down for long, and recovered when it is up again. That it flaps may be reported
at any time.

What a tick reports, and what it does to the stage of the node, is the relation `Reports`. The
protocol, the grace period of a new node and the distance of two reports follow from it by an
induction over the observations.
-/

namespace Fcore

inductive OfflineStage where
  | up
  | down
  | downLong
  deriving DecidableEq, Repr

/-- What may be reported from a stage on. -/
def OfflineStage.Obeys : OfflineStage → List AlertKind → Prop
  | _, [] => True
  | .up, .nodeOffline :: kinds => Obeys .down kinds
  | .down, .nodeOfflineLong :: kinds => Obeys .downLong kinds
  | .down, .nodeRecovered :: kinds => Obeys .up kinds
  | .downLong, .nodeRecovered :: kinds => Obeys .up kinds
  | stage, .nodeFlapping :: kinds => Obeys stage kinds
  | _, _ :: _ => False

namespace NodeTrack

variable {cfg : AlertsConfig} {o : Observation} {track : NodeTrack}

/-- What the offline alerts depend on. -/
def standing (track : NodeTrack) : ℕ × Bool × Bool × Table AlertKind ℕ :=
  (track.firstSeen, track.alerted, track.longAlerted, track.lastSent)

def stage (track : NodeTrack) : Option OfflineStage :=
  match track.standing with
  | (_, false, false, _) => some .up
  | (_, true, false, _) => some .down
  | (_, true, true, _) => some .downLong
  | (_, false, true, _) => none

inductive Reports (cfg : AlertsConfig) (o : Observation) (track : NodeTrack) :
    NodeTrack × Option (AlertKind × Int64) → Prop
  | quiet {track' : NodeTrack} : track'.standing = track.standing →
    Reports cfg o track (track', none)
  | flapping {track' : NodeTrack} {duration : Int64} : track'.standing = track.standing →
    Reports cfg o track (track', some (.nodeFlapping, duration))
  | offline {track' : NodeTrack} {duration : Int64} : track.alerted = false →
    track.isNew cfg o.now = false → throttled track .nodeOffline o.now cfg.throttleSec = false →
    track'.standing = (track.firstSeen, true, track.longAlerted,
      track.lastSent.insert .nodeOffline o.now) →
    Reports cfg o track (track', some (.nodeOffline, duration))
  | offlineLong {track' : NodeTrack} {duration : Int64} : track.alerted = true →
    track.longAlerted = false → track.isNew cfg o.now = false →
    track'.standing = (track.firstSeen, true, true, track.lastSent) →
    Reports cfg o track (track', some (.nodeOfflineLong, duration))
  | recovered {track' : NodeTrack} {duration : Int64} : track.alerted = true →
    track'.standing = (track.firstSeen, false, false, track.lastSent) →
    Reports cfg o track (track', some (.nodeRecovered, duration))

theorem standing_flapRule (cfg : AlertsConfig) (now : ℕ) (silenceSec : Int64) (newNode : Bool)
    (track : NodeTrack) :
    (track.flapRule cfg now silenceSec newNode).1.standing = track.standing := by
  rw [flapRule]
  dsimp only
  split_ifs <;> rfl

/-- What a tick reports depends on the standing of the track alone. -/
theorem Reports.of_standing {track₁ : NodeTrack} {r : NodeTrack × Option (AlertKind × Int64)}
    (hstanding : track₁.standing = track.standing) (h : Reports cfg o track₁ r) :
    Reports cfg o track r := by
  obtain ⟨firstSeen, _, _, alerted, _, _, _, longAlerted, lastSent⟩ := track
  cases hstanding
  cases h with
  | quiet hkept => exact .quiet hkept
  | flapping hkept => exact .flapping hkept
  | offline halerted hnew hthrottled hafter => exact .offline halerted hnew hthrottled hafter
  | offlineLong halerted hlong hnew hafter => exact .offlineLong halerted hlong hnew hafter
  | recovered halerted hafter => exact .recovered halerted hafter

theorem reports_offlineRule (cfg : AlertsConfig) (o : Observation) (silenceSec : Int64)
    (track : NodeTrack) :
    Reports cfg o track (track.offlineRule cfg o.now silenceSec (track.isNew cfg o.now)) := by
  rw [offlineRule]
  dsimp only
  split_ifs with hlong hnot hthrottled
  · simp only [Bool.and_eq_true, Bool.not_eq_true'] at hlong
    exact .offlineLong hlong.1.1.1 hlong.1.1.2 hlong.1.2 (by rw [← hlong.1.1.1]; rfl)
  · exact .quiet rfl
  · exact .quiet rfl
  · simp only [Bool.or_eq_true, not_or, Bool.not_eq_true] at hnot
    exact .offline hnot.1 hnot.2 (Bool.eq_false_iff.mpr hthrottled) rfl

theorem reports_freshRule (cfg : AlertsConfig) (o : Observation) (track : NodeTrack) :
    Reports cfg o track (track.freshRule cfg o.now) := by
  rw [freshRule]
  dsimp only
  split_ifs with halerted hstable
  · exact .quiet rfl
  · exact .quiet rfl
  · exact .recovered (by simpa using halerted) rfl

theorem reports_observe (cfg : AlertsConfig) (o : Observation) (track : NodeTrack) :
    Reports cfg o track (track.observe cfg o) := by
  cases hlast : o.lastHeartbeatMs with
  | none =>
    rw [observe, hlast]
    exact .quiet rfl
  | some lastMs =>
    rw [observe, hlast]
    dsimp only
    have hstanding := standing_flapRule cfg o.now (silenceOf lastMs o.nowMs)
      (track.isNew cfg o.now) track
    cases hflap : track.flapRule cfg o.now (silenceOf lastMs o.nowMs) (track.isNew cfg o.now) with
    | mk track₁ fired =>
      rw [hflap] at hstanding
      have hnew : track.isNew cfg o.now = track₁.isNew cfg o.now := by
        rw [isNew, isNew, show track₁.firstSeen = track.firstSeen from congrArg Prod.fst hstanding]
      cases fired with
      | some count => exact .flapping hstanding
      | none =>
        split_ifs
        · rw [hnew]
          exact (reports_offlineRule cfg o _ track₁).of_standing hstanding
        · exact (reports_freshRule cfg o track₁).of_standing hstanding

/-- The reports about a node that is observed again and again, with their times. -/
def reports (cfg : AlertsConfig) : NodeTrack → List Observation → List (ℕ × AlertKind)
  | _, [] => []
  | track, o :: obs =>
    ((track.observe cfg o).2.toList.map fun alert => (o.now, alert.1)) ++
      reports cfg (track.observe cfg o).1 obs

theorem obeys_reports {s : OfflineStage} (hs : track.stage = some s) (obs : List Observation) :
    s.Obeys ((track.reports cfg obs).map Prod.snd) := by
  induction obs generalizing track s with
  | nil => simp [reports, OfflineStage.Obeys]
  | cons o obs ih =>
    have hreports := reports_observe cfg o track
    rw [reports]
    generalize track.observe cfg o = r at hreports ⊢
    rw [stage, standing] at hs
    cases hreports with
    | quiet hkept => exact ih (by rw [stage, hkept]; exact hs)
    | flapping hkept =>
      have hrest := ih (by rw [stage, hkept]; exact hs)
      cases s <;> exact hrest
    | offline halerted _ _ hafter =>
      rw [halerted] at hs
      cases hlong : track.longAlerted with
      | true =>
        rw [hlong] at hs
        cases hs
      | false =>
        rw [hlong] at hs hafter
        cases hs
        exact ih (by rw [stage, hafter])
    | offlineLong halerted hlong _ hafter =>
      rw [halerted, hlong] at hs
      cases hs
      exact ih (by rw [stage, hafter])
    | recovered halerted hafter =>
      have hrest := ih (by rw [stage, hafter])
      rw [halerted] at hs
      cases hlong : track.longAlerted <;> rw [hlong] at hs <;> cases hs <;> exact hrest

theorem grace_le_of_mem_reports {obs : List Observation}
    (hfirst : ∀ o ∈ obs, track.firstSeen ≤ o.now) :
    ∀ e ∈ track.reports cfg obs, e.2 = .nodeOffline ∨ e.2 = .nodeOfflineLong →
      track.firstSeen + cfg.newNodeGraceSec.toNat * nanosPerSec ≤ e.1 := by
  induction obs generalizing track with
  | nil => nofun
  | cons o obs ih =>
    obtain ⟨hle, hrest⟩ := List.forall_mem_cons.mp hfirst
    have hreports := reports_observe cfg o track
    have hgrace : track.isNew cfg o.now = false →
        track.firstSeen + cfg.newNodeGraceSec.toNat * nanosPerSec ≤ o.now := by
      intro hnew
      have := of_decide_eq_false hnew
      omega
    have hseen : (track.observe cfg o).1.firstSeen = track.firstSeen := by
      generalize track.observe cfg o = r at hreports
      cases hreports <;> rename_i hafter <;> exact congrArg Prod.fst hafter
    have hlater := ih (by rw [hseen]; exact hrest)
    rw [hseen] at hlater
    intro e he hkind
    rcases List.mem_append.mp he with he | he
    · obtain ⟨alert, halert, rfl⟩ := List.mem_map.mp he
      rw [Option.mem_toList] at halert
      generalize track.observe cfg o = r at hreports halert
      cases hreports with
      | quiet _ => cases halert
      | flapping _ =>
        cases halert
        simp at hkind
      | offline _ hnew _ _ => exact hgrace hnew
      | offlineLong _ _ hnew _ => exact hgrace hnew
      | recovered _ _ =>
        cases halert
        simp at hkind
    · exact hlater e he hkind

def offlineTimes (events : List (ℕ × AlertKind)) : List ℕ :=
  (events.filter fun e => e.2 = .nodeOffline).map Prod.fst

/-- With the time of the last report in front, if there is one. -/
theorem throttle_le_reports {obs : List Observation}
    (hclock : obs.Pairwise fun x y => x.now ≤ y.now)
    (hsent : ∀ t ∈ track.lastSent.lookup .nodeOffline, ∀ o ∈ obs, t ≤ o.now) :
    ((track.lastSent.lookup .nodeOffline).toList ++ offlineTimes (track.reports cfg obs)).Pairwise
      fun t t' => t + cfg.throttleSec.toNat * nanosPerSec ≤ t' := by
  induction obs generalizing track with
  | nil => cases track.lastSent.lookup .nodeOffline <;> simp [reports, offlineTimes]
  | cons o obs ih =>
    obtain ⟨hnow, hclock⟩ := List.pairwise_cons.mp hclock
    have hreports := reports_observe cfg o track
    rw [reports]
    generalize track.observe cfg o = r at hreports ⊢
    have hkeeps : r.1.lastSent = track.lastSent → (∀ alert ∈ r.2, alert.1 ≠ .nodeOffline) →
        ((track.lastSent.lookup .nodeOffline).toList ++ offlineTimes
          ((r.2.toList.map fun alert => (o.now, alert.1)) ++ r.1.reports cfg obs)).Pairwise
          fun t t' => t + cfg.throttleSec.toNat * nanosPerSec ≤ t' := by
      intro hlast hkind
      have hsent' : ∀ t ∈ r.1.lastSent.lookup .nodeOffline, ∀ o' ∈ obs, t ≤ o'.now := by
        rw [hlast]
        exact fun t ht o' ho' => hsent t ht o' (List.mem_cons_of_mem o ho')
      have hrest := ih hclock hsent'
      rw [hlast] at hrest
      cases halert : r.2 with
      | none => exact hrest
      | some alert => simpa [offlineTimes, hkind alert halert] using hrest
    cases hreports with
    | quiet hkept => exact hkeeps (congrArg (fun x => x.2.2.2) hkept) nofun
    | flapping hkept => exact hkeeps (congrArg (fun x => x.2.2.2) hkept) (by simp)
    | offlineLong _ _ _ hafter => exact hkeeps (congrArg (fun x => x.2.2.2) hafter) (by simp)
    | recovered _ hafter => exact hkeeps (congrArg (fun x => x.2.2.2) hafter) (by simp)
    | @offline track' duration _ _ hthrottled hafter =>
      have hlast : track'.lastSent.lookup .nodeOffline = some o.now := by
        rw [show track'.lastSent = _ from congrArg (fun x => x.2.2.2) hafter, AList.lookup_insert]
      have hsent' : ∀ t ∈ track'.lastSent.lookup .nodeOffline, ∀ o' ∈ obs, t ≤ o'.now := by
        rw [hlast]
        rintro t ⟨⟩
        exact hnow
      have hrest := ih hclock hsent'
      rw [hlast] at hrest
      cases hsince : track.lastSent.lookup .nodeOffline with
      | none => exact hrest
      | some t =>
        have hle := hsent t hsince o List.mem_cons_self
        rw [throttled, hsince, Option.map_some, Option.getD_some, decide_eq_false_iff_not,
          not_lt, secsSince, Nat.le_div_iff_mul_le (by decide)] at hthrottled
        refine List.pairwise_cons.mpr ⟨fun t' ht' => ?_, hrest⟩
        rcases List.mem_cons.mp ht' with rfl | ht'
        · exact Nat.add_le_of_le_sub' hle hthrottled
        · have := (List.pairwise_cons.mp hrest).1 t' ht'
          omega

end NodeTrack

namespace AlertsEngine

/-- The alerts of a run of observations of one node, with their times. -/
def alerts (nodeId : Uuid) : AlertsEngine → List Observation → List (ℕ × AlertKind)
  | _, [] => []
  | engine, o :: obs =>
    ((engine.observe nodeId o).2.kind?.toList.map fun kind => (o.now, kind)) ++
      alerts nodeId (engine.step nodeId o) obs

variable {nodeId : Uuid} {engine : AlertsEngine}

theorem alerts_cons (o : Observation) (obs : List Observation) :
    engine.alerts nodeId (o :: obs) =
      (((engine.track nodeId o).observe engine.cfg o).2.toList.map fun alert => (o.now, alert.1)) ++
        (engine.step nodeId o).alerts nodeId obs := by
  have hkind : (engine.observe nodeId o).2.kind? =
      ((engine.track nodeId o).observe engine.cfg o).2.map Prod.fst := by
    simp only [AlertsEngine.observe, track]
    generalize (((engine.nodes.lookup nodeId).getD (.new o.now)).observe engine.cfg o).2 = alert
    cases alert <;> rfl
  rw [alerts, hkind]
  cases ((engine.track nodeId o).observe engine.cfg o).2 <;> rfl

theorem alerts_eq_reports {track : NodeTrack} (h : engine.nodes.lookup nodeId = some track)
    (obs : List Observation) : engine.alerts nodeId obs = track.reports engine.cfg obs := by
  induction obs generalizing engine track with
  | nil => rfl
  | cons o obs ih =>
    have htrack : engine.track nodeId o = track := by rw [AlertsEngine.track, h, Option.getD_some]
    have hnext : (engine.step nodeId o).nodes.lookup nodeId =
        some ((engine.track nodeId o).observe engine.cfg o).1 := AList.lookup_insert _
    rw [alerts_cons, ih hnext, htrack]
    rfl

theorem alerts_new (cfg : AlertsConfig) (o : Observation) (obs : List Observation) :
    alerts nodeId (.new cfg) (o :: obs) = (NodeTrack.new o.now).reports cfg (o :: obs) := by
  have hnext : (step nodeId (.new cfg) o).nodes.lookup nodeId =
      some ((NodeTrack.new o.now).observe cfg o).1 := AList.lookup_insert _
  rw [alerts_cons, alerts_eq_reports hnext]
  rfl

/-- In a run of observations of one node whose clock does not go back, the alerts obey the
protocol, none of the offline ones comes before the grace period of the node is over, and two
reports that it is offline are as far apart as the configuration says. -/
theorem offline_protocol (cfg : AlertsConfig) (nodeId : Uuid) (obs : List Observation)
    (hclock : obs.Pairwise fun x y => x.now ≤ y.now) :
    OfflineStage.up.Obeys ((alerts nodeId (.new cfg) obs).map Prod.snd) ∧
      (∀ first ∈ obs.head?, ∀ e ∈ alerts nodeId (.new cfg) obs,
        e.2 = .nodeOffline ∨ e.2 = .nodeOfflineLong →
          first.now + cfg.newNodeGraceSec.toNat * nanosPerSec ≤ e.1) ∧
      (NodeTrack.offlineTimes (alerts nodeId (.new cfg) obs)).Pairwise fun t t' =>
        t + cfg.throttleSec.toNat * nanosPerSec ≤ t' := by
  cases obs with
  | nil => exact ⟨trivial, nofun, .nil⟩
  | cons o obs =>
    rw [alerts_new]
    refine ⟨NodeTrack.obeys_reports rfl (o :: obs), ?_, ?_⟩
    · rintro first ⟨⟩
      refine NodeTrack.grace_le_of_mem_reports fun x hx => ?_
      rcases List.mem_cons.mp hx with rfl | hx
      · exact le_rfl
      · exact (List.pairwise_cons.mp hclock).1 x hx
    · have hsent : ∀ t ∈ (NodeTrack.new o.now).lastSent.lookup .nodeOffline,
          ∀ x ∈ o :: obs, t ≤ x.now := by
        rintro t ⟨⟩
      exact NodeTrack.throttle_le_reports hclock hsent

def longObserved : List Observation :=
  [observedAt 0 0, observedAt 700 580, observedAt 4400 580, observedAt 4410 4405,
    observedAt 4540 4535]

theorem offline_protocol_observed :
    alerts 0 (.new alertsConfig) longObserved = [(700 * nanosPerSec, .nodeOffline),
        (4400 * nanosPerSec, .nodeOfflineLong), (4540 * nanosPerSec, .nodeRecovered)] ∧
      OfflineStage.up.Obeys ((alerts 0 (.new alertsConfig) longObserved).map Prod.snd) :=
  ⟨by decide +kernel, (offline_protocol alertsConfig 0 longObserved (by decide)).1⟩

end AlertsEngine

end Fcore
