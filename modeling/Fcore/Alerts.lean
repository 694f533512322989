import Fcore.Lib.Run
import Fcore.Lib.Table
import Fcore.Memory.Env
import Mathlib.Algebra.Order.Ring.Rat

/-!
# Alerts about nodes

At every tick the api looks at the last heartbeat of a node. A node that has been silent for too
long is reported offline, and recovered once its heartbeats have been fresh for a while. A node
whose heartbeats stop and come back too often is reported as flapping.

The rule for flapping comes first and ends the tick when it fires. A tick at which it fires for
a node that is offline does not reach the rule that takes back the start of a recovery.

Instants are nanoseconds of a monotone clock, the times of heartbeats 64-bit milliseconds in
wrapping arithmetic, and percentages and uptimes exact rationals. The rules for the processor,
the disks and restarts have tracks of their own.
-/

namespace Fcore

structure AlertsConfig where
  offlineThresholdSec : UInt64 := 600
  recoveryGraceSec : UInt64 := 120
  newNodeGraceSec : UInt64 := 600
  throttleSec : UInt64 := 1800
  flapGapSec : UInt64 := 120
  flapWindowSec : UInt64 := 3600
  flapThreshold : UInt64 := 3
  offlineLongSec : UInt64 := 3600
  cpuThresholdPct : ℚ := 85
  cpuHoldSec : UInt64 := 600
  cpuResetPct : ℚ := 70
  diskThresholdPct : ℚ := 90
  diskHoldSec : UInt64 := 900
  diskResetPct : ℚ := 85

inductive AlertKind where
  | nodeOffline
  | nodeRecovered
  | nodeOfflineLong
  | nodeFlapping
  | nodeCpuHigh
  | nodeDiskHigh
  deriving DecidableEq, Repr

inductive Decision where
  | idle
  | fire (kind : AlertKind) (nodeId : Uuid) (hostname env : String) (durationSec : Int64)
    (detail : Option String)
  deriving DecidableEq

def Decision.kind? : Decision → Option AlertKind
  | .idle => none
  | .fire kind .. => some kind

structure NodeTrack where
  firstSeen : ℕ
  offlineSince : Option ℕ
  okSince : Option ℕ
  alerted : Bool
  transitions : List ℕ
  flapAlerted : Bool
  hiccupActive : Bool
  longAlerted : Bool
  lastSent : Table AlertKind ℕ

def NodeTrack.new (now : ℕ) : NodeTrack := ⟨now, none, none, false, [], false, false, false, ∅⟩

def nanosPerSec : ℕ := 10 ^ 9

/-- The whole seconds from one instant to another. -/
def secsSince (now since : ℕ) : ℕ := (now - since) / nanosPerSec

def throttled (track : NodeTrack) (kind : AlertKind) (now : ℕ) (throttleSec : UInt64) : Bool :=
  ((track.lastSent.lookup kind).map fun at' => decide (secsSince now at' < throttleSec.toNat)).getD
    false

/-- What a tick is called with: the names of the node, the instant, the last heartbeat and the
time in milliseconds. -/
structure Observation where
  hostname : String
  env : String
  now : ℕ
  lastHeartbeatMs : Option Int64
  nowMs : Int64
  deriving DecidableEq, Repr

/-- A value that a node reports, if it is known at `now`. -/
structure Reading where
  hostname : String
  env : String
  value : Option ℚ
  now : ℕ

namespace NodeTrack

variable (cfg : AlertsConfig) (now : ℕ) (silenceSec : Int64) (newNode : Bool)

def isOffline : Bool := decide (cfg.offlineThresholdSec.toInt64 ≤ silenceSec)

/-- The rule for flapping: the track, and the number of silences in the window if it fires. -/
def flapRule (track : NodeTrack) : NodeTrack × Option ℕ :=
  let gap := (max cfg.flapGapSec 60).toInt64
  let threshold := (max cfg.flapThreshold 2).toNat
  if gap ≤ silenceSec then
    if track.hiccupActive then (track, none)
    else
      let transitions := (track.transitions ++ [now]).dropWhile fun front =>
        decide (cfg.flapWindowSec.toNat * nanosPerSec < now - front)
      let flapAlerted := if transitions.length < threshold then false else track.flapAlerted
      let track := { track with
        hiccupActive := true, transitions := transitions, flapAlerted := flapAlerted }
      if decide (threshold ≤ transitions.length) && !flapAlerted && !newNode then
        ({ track with flapAlerted := true }, some transitions.length)
      else (track, none)
  else if silenceSec * 2 < gap then ({ track with hiccupActive := false }, none)
  else (track, none)

/-- The node is offline. -/
def offlineRule (track : NodeTrack) : NodeTrack × Option (AlertKind × Int64) :=
  let since := track.offlineSince.getD now
  let track := { track with okSince := none, offlineSince := some since }
  let silence := max silenceSec (Int64.ofNat (secsSince now since))
  if track.alerted && !track.longAlerted && !newNode &&
      decide ((max cfg.offlineLongSec 600).toInt64 ≤ silence) then
    ({ track with longAlerted := true }, some (.nodeOfflineLong, silence))
  else if track.alerted || newNode then (track, none)
  else if throttled track .nodeOffline now cfg.throttleSec then (track, none)
  else
    ({ track with alerted := true, lastSent := track.lastSent.insert .nodeOffline now },
      some (.nodeOffline, silence))

/-- The heartbeat is fresh. -/
def freshRule (track : NodeTrack) : NodeTrack × Option (AlertKind × Int64) :=
  let track := { track with offlineSince := none }
  if !track.alerted then (track, none)
  else
    let okSince := track.okSince.getD now
    let stableFor := secsSince now okSince
    if stableFor < cfg.recoveryGraceSec.toNat then ({ track with okSince := some okSince }, none)
    else
      ({ track with alerted := false, longAlerted := false, okSince := none },
        some (.nodeRecovered, Int64.ofNat stableFor))

def isNew (track : NodeTrack) : Bool :=
  decide (now - track.firstSeen < cfg.newNodeGraceSec.toNat * nanosPerSec)

def silenceOf (lastMs nowMs : Int64) : Int64 := (nowMs - lastMs) / 1000

/-- One tick: the track, and the alert that fires with its duration. -/
def observe (o : Observation) (track : NodeTrack) : NodeTrack × Option (AlertKind × Int64) :=
  let newNode := track.isNew cfg o.now
  match o.lastHeartbeatMs with
  | none => (track, none)
  | some lastMs =>
    let silence := silenceOf lastMs o.nowMs
    match track.flapRule cfg o.now silence newNode with
    | (track, some count) => (track, some (.nodeFlapping, Int64.ofNat count))
    | (track, none) =>
      if isOffline cfg silence then track.offlineRule cfg o.now silence newNode
      else track.freshRule cfg o.now

end NodeTrack

structure RestartTrack where
  lastUptime : ℚ
  count : UInt32
  windowStart : ℕ
  alerted : Bool

structure CpuTrack where
  highSince : ℕ
  alerted : Bool

structure AlertsEngine where
  cfg : AlertsConfig
  nodes : Table Uuid NodeTrack
  cpu : Table Uuid CpuTrack
  disks : Table (Uuid × String) CpuTrack
  restarts : Table Uuid RestartTrack

namespace AlertsEngine

def new (cfg : AlertsConfig) : AlertsEngine := ⟨cfg, ∅, ∅, ∅, ∅⟩

def observe (nodeId : Uuid) (o : Observation) (engine : AlertsEngine) :
    AlertsEngine × Decision :=
  let (track, alert) := ((engine.nodes.lookup nodeId).getD (.new o.now)).observe engine.cfg o
  ({ engine with nodes := engine.nodes.insert nodeId track },
    match alert with
    | none => .idle
    | some (kind, duration) => .fire kind nodeId o.hostname o.env duration none)

end AlertsEngine

/-! ### Recovery -/

/-- The heartbeat at an observation is too old. -/
def Observation.Offline (cfg : AlertsConfig) (o : Observation) : Prop :=
  ∃ lastMs, o.lastHeartbeatMs = some lastMs ∧
    NodeTrack.isOffline cfg (NodeTrack.silenceOf lastMs o.nowMs) = true

instance (cfg : AlertsConfig) (o : Observation) : Decidable (o.Offline cfg) :=
  inferInstanceAs (Decidable (∃ lastMs ∈ o.lastHeartbeatMs,
    NodeTrack.isOffline cfg (NodeTrack.silenceOf lastMs o.nowMs) = true))

namespace NodeTrack

/-- The rule for flapping fires for a node that is offline while a recovery has begun. -/
def MissesOffline (cfg : AlertsConfig) (o : Observation) (track : NodeTrack) : Prop :=
  track.okSince.isSome = true ∧ ∃ lastMs, o.lastHeartbeatMs = some lastMs ∧
    isOffline cfg (silenceOf lastMs o.nowMs) = true ∧
    (track.flapRule cfg o.now (silenceOf lastMs o.nowMs) (track.isNew cfg o.now)).2.isSome = true

instance (cfg : AlertsConfig) (o : Observation) (track : NodeTrack) :
    Decidable (track.MissesOffline cfg o) :=
  inferInstanceAs (Decidable (track.okSince.isSome = true ∧ ∃ lastMs ∈ o.lastHeartbeatMs,
    isOffline cfg (silenceOf lastMs o.nowMs) = true ∧
    (track.flapRule cfg o.now (silenceOf lastMs o.nowMs) (track.isNew cfg o.now)).2.isSome = true))

/-- What a tick does to the start of a recovery. -/
inductive Ticks (cfg : AlertsConfig) (o : Observation) (track : NodeTrack) :
    NodeTrack × Option (AlertKind × Int64) → Prop
  | kept {track' : NodeTrack} {alert : Option (AlertKind × Int64)} :
    track'.okSince = track.okSince → (∀ duration, alert ≠ some (.nodeRecovered, duration)) →
    (o.Offline cfg → track.okSince.isSome = true → track.MissesOffline cfg o) →
    Ticks cfg o track (track', alert)
  | reset {track' : NodeTrack} {alert : Option (AlertKind × Int64)} :
    track'.okSince = none → (∀ duration, alert ≠ some (.nodeRecovered, duration)) →
    Ticks cfg o track (track', alert)
  | begun {track' : NodeTrack} :
    ¬ o.Offline cfg → track'.okSince = some (track.okSince.getD o.now) →
    Ticks cfg o track (track', none)
  | recovered {track' : NodeTrack} {duration : Int64} :
    ¬ o.Offline cfg → track'.okSince = none →
    cfg.recoveryGraceSec.toNat ≤ secsSince o.now (track.okSince.getD o.now) →
    Ticks cfg o track (track', some (.nodeRecovered, duration))

variable {cfg : AlertsConfig} {o : Observation} {track : NodeTrack}

theorem okSince_flapRule (cfg : AlertsConfig) (now : ℕ) (silenceSec : Int64) (newNode : Bool)
    (track : NodeTrack) :
    (track.flapRule cfg now silenceSec newNode).1.okSince = track.okSince := by
  rw [flapRule]
  dsimp only
  split_ifs <;> rfl

theorem offlineRule_reset (cfg : AlertsConfig) (now : ℕ) (silenceSec : Int64) (newNode : Bool)
    (track : NodeTrack) :
    (track.offlineRule cfg now silenceSec newNode).1.okSince = none ∧
      ∀ duration, (track.offlineRule cfg now silenceSec newNode).2 ≠
        some (.nodeRecovered, duration) := by
  rw [offlineRule]
  split_ifs <;> exact ⟨rfl, by simp⟩

theorem not_offline_of_heartbeat {lastMs : Int64} (hlast : o.lastHeartbeatMs = some lastMs)
    (hfresh : ¬ isOffline cfg (silenceOf lastMs o.nowMs) = true) : ¬ o.Offline cfg := by
  rintro ⟨lastMs', hlast', hoff⟩
  cases hlast.symm.trans hlast'
  exact hfresh hoff

theorem ticks_freshRule (hfresh : ¬ o.Offline cfg) (track : NodeTrack) :
    Ticks cfg o track (track.freshRule cfg o.now) := by
  rw [freshRule]
  dsimp only
  split_ifs with halerted hstable
  · exact .kept rfl (by simp) fun hoff => absurd hoff hfresh
  · exact .begun hfresh rfl
  · exact .recovered hfresh rfl (Nat.le_of_not_lt hstable)

/-- What happens to the start of a recovery depends on the track by that start alone. -/
theorem Ticks.of_okSince {track₁ : NodeTrack} {r : NodeTrack × Option (AlertKind × Int64)}
    (hok : track₁.okSince = track.okSince) (hfresh : ¬ o.Offline cfg)
    (h : Ticks cfg o track₁ r) : Ticks cfg o track r := by
  cases h with
  | kept hkept halert _ => exact .kept (hkept.trans hok) halert fun hoff => absurd hoff hfresh
  | reset hnone halert => exact .reset hnone halert
  | begun _ hsome => exact .begun hfresh (hok ▸ hsome)
  | recovered _ hnone hgrace => exact .recovered hfresh hnone (hok ▸ hgrace)

theorem ticks_observe (cfg : AlertsConfig) (o : Observation) (track : NodeTrack) :
    Ticks cfg o track (track.observe cfg o) := by
  cases hlast : o.lastHeartbeatMs with
  | none =>
    have hobserve : track.observe cfg o = (track, none) := by rw [observe, hlast]
    rw [hobserve]
    refine .kept rfl (by simp) ?_
    rintro ⟨lastMs, h, -⟩
    cases hlast.symm.trans h
  | some lastMs =>
    rw [observe, hlast]
    dsimp only
    have hok := okSince_flapRule cfg o.now (silenceOf lastMs o.nowMs) (track.isNew cfg o.now) track
    cases hflap : track.flapRule cfg o.now (silenceOf lastMs o.nowMs) (track.isNew cfg o.now) with
    | mk track₁ fired =>
      rw [hflap] at hok
      cases fired with
      | some count =>
        refine .kept hok (by simp) ?_
        rintro ⟨lastMs', hlast', hoff⟩ hpending
        cases hlast.symm.trans hlast'
        exact ⟨hpending, lastMs, hlast, hoff, by rw [hflap]; rfl⟩
      | none =>
        split_ifs with hoff
        · obtain ⟨hnone, halert⟩ := offlineRule_reset cfg o.now (silenceOf lastMs o.nowMs)
            (track.isNew cfg o.now) track₁
          exact .reset hnone halert
        · have hfresh := not_offline_of_heartbeat hlast hoff
          exact (ticks_freshRule hfresh track₁).of_okSince hok hfresh

/-- A recovery began at an observation, and none since then was offline. -/
def Stable (cfg : AlertsConfig) (history : List Observation) (track : NodeTrack) : Prop :=
  ∀ t₀, track.okSince = some t₀ → ∃ pre first rest, history = pre ++ first :: rest ∧
    first.now = t₀ ∧ ∀ x ∈ first :: rest, ¬ x.Offline cfg

variable {history : List Observation}

/-- The run of fresh observations that this one continues or begins. -/
theorem Stable.extend (h : track.Stable cfg history) (hfresh : ¬ o.Offline cfg) :
    ∃ pre first rest, history ++ [o] = pre ++ first :: rest ∧
      first.now = track.okSince.getD o.now ∧ ∀ x ∈ first :: rest, ¬ x.Offline cfg := by
  cases hsince : track.okSince with
  | none => exact ⟨history, o, [], rfl, rfl, by simpa using hfresh⟩
  | some t₀ =>
    obtain ⟨pre, first, rest, rfl, hnow, hrest⟩ := h t₀ hsince
    refine ⟨pre, first, rest ++ [o], by simp, hnow, fun x hx => ?_⟩
    rcases List.mem_append.mp (List.cons_append ▸ hx : x ∈ (first :: rest) ++ [o]) with hx | hx
    · exact hrest x hx
    · exact List.mem_singleton.mp hx ▸ hfresh

theorem Stable.observe (h : track.Stable cfg history) (hseen : ¬ track.MissesOffline cfg o) :
    (track.observe cfg o).1.Stable cfg (history ++ [o]) := by
  have hticks := ticks_observe cfg o track
  generalize track.observe cfg o = r at hticks ⊢
  intro t₀ hsince
  cases hticks with
  | kept hkept _ hoff =>
    rw [hkept] at hsince
    have hfresh : ¬ o.Offline cfg := fun h => hseen (hoff h (by rw [hsince]; rfl))
    obtain ⟨pre, first, rest, hhistory, hnow, hrest⟩ := h.extend hfresh
    exact ⟨pre, first, rest, hhistory, by rw [hnow, hsince]; rfl, hrest⟩
  | reset hnone _ => cases hnone.symm.trans hsince
  | begun hfresh hsome =>
    obtain ⟨pre, first, rest, hhistory, hnow, hrest⟩ := h.extend hfresh
    have hsince' := Option.some.inj (hsome.symm.trans hsince)
    exact ⟨pre, first, rest, hhistory, hnow.trans hsince', hrest⟩
  | recovered _ hnone _ => cases hnone.symm.trans hsince

theorem Stable.recovered (h : track.Stable cfg history) {duration : Int64}
    (hfires : (track.observe cfg o).2 = some (.nodeRecovered, duration)) :
    ∃ pre first rest, history ++ [o] = pre ++ first :: rest ∧
      cfg.recoveryGraceSec.toNat ≤ secsSince o.now first.now ∧
      ∀ x ∈ first :: rest, ¬ x.Offline cfg := by
  have hticks := ticks_observe cfg o track
  generalize track.observe cfg o = r at hticks hfires
  cases hticks with
  | kept _ halert _ => exact absurd hfires (halert duration)
  | reset _ halert => exact absurd hfires (halert duration)
  | begun _ _ => cases hfires
  | recovered hfresh _ hgrace =>
    obtain ⟨pre, first, rest, hhistory, hnow, hrest⟩ := h.extend hfresh
    exact ⟨pre, first, rest, hhistory, hnow ▸ hgrace, hrest⟩

end NodeTrack

namespace AlertsEngine

variable (nodeId : Uuid)

/-- The track that an observation of the node finds. -/
def track (o : Observation) (engine : AlertsEngine) : NodeTrack :=
  (engine.nodes.lookup nodeId).getD (.new o.now)

def step (engine : AlertsEngine) (o : Observation) : AlertsEngine :=
  (engine.observe nodeId o).1

/-- The observation does not miss that the node is offline while a recovery has begun. -/
def Sees (engine : AlertsEngine) (o : Observation) : Prop :=
  ¬ (engine.track nodeId o).MissesOffline engine.cfg o

instance (engine : AlertsEngine) (o : Observation) : Decidable (engine.Sees nodeId o) :=
  inferInstanceAs (Decidable (¬ (engine.track nodeId o).MissesOffline engine.cfg o))

/-- The track of the node agrees with the observations so far. -/
def Agrees (cfg : AlertsConfig) (history : List Observation) (engine : AlertsEngine) : Prop :=
  engine.cfg = cfg ∧ ∀ o, (engine.track nodeId o).Stable cfg history

variable {nodeId} {cfg : AlertsConfig} {history : List Observation}
  {engine : AlertsEngine} {o : Observation}

theorem Agrees.step (h : engine.Agrees nodeId cfg history) (hsees : engine.Sees nodeId o) :
    (engine.step nodeId o).Agrees nodeId cfg (history ++ [o]) := by
  obtain ⟨rfl, hstable⟩ := h
  refine ⟨rfl, fun o' => ?_⟩
  have htrack : (engine.step nodeId o).track nodeId o' =
      ((engine.track nodeId o).observe engine.cfg o).1 := by
    simp [AlertsEngine.step, AlertsEngine.observe, track]
  rw [htrack]
  exact (hstable o).observe hsees

theorem agrees_foldl (obs : List Observation)
    (hrun : Run.Along (step nodeId) (Sees nodeId) (.new cfg) obs) :
    (obs.foldl (step nodeId) (.new cfg)).Agrees nodeId cfg obs := by
  induction obs using List.reverseRecOn with
  | nil =>
    refine ⟨rfl, fun o t₀ hsince => ?_⟩
    simp [track, AlertsEngine.new, NodeTrack.new] at hsince
  | append_singleton obs o ih =>
    obtain ⟨hbefore, hlast⟩ := Run.along_append.mp hrun
    rw [List.foldl_append]
    exact (ih hbefore).step hlast.1

theorem fires_eq {kind : AlertKind} {id : Uuid} {hostname env : String} {duration : Int64}
    {detail : Option String}
    (h : (engine.observe nodeId o).2 = .fire kind id hostname env duration detail) :
    ((engine.track nodeId o).observe engine.cfg o).2 = some (kind, duration) := by
  change (match ((engine.track nodeId o).observe engine.cfg o).2 with
    | none => Decision.idle
    | some (kind, duration) => .fire kind nodeId o.hostname o.env duration none) = _ at h
  split at h
  · cases h
  · rename_i heq
    cases h
    exact heq

/-- A stretch at the end of a run whose clock does not go back. -/
theorem ordered_stretch {α : Type*} {time : α → ℕ} {before after pre rest : List α} {o first : α}
    (hclock : (before ++ o :: after).Pairwise fun x y => time x ≤ time y)
    (hsplit : before ++ [o] = pre ++ first :: rest) :
    time first ≤ time o ∧ o ∈ first :: rest ∧
      ∀ x ∈ pre, time first ≤ time x → time x = time first := by
  have hordered : (pre ++ first :: rest).Pairwise fun x y => time x ≤ time y := by
    rw [← hsplit]
    exact hclock.sublist (List.Sublist.append_left (by simp) before)
  have hlast : o ∈ first :: rest := by
    have h := congrArg List.getLast? hsplit
    rw [List.getLast?_concat, List.getLast?_append_cons] at h
    exact List.mem_of_getLast? h.symm
  obtain ⟨-, hstretch, hpre⟩ := List.pairwise_append.mp hordered
  refine ⟨?_, hlast, fun x hx hle => le_antisymm (hpre x hx first (by simp)) hle⟩
  rcases List.mem_cons.mp hlast with rfl | hlast
  · exact le_rfl
  · exact List.rel_of_pairwise_cons hstretch hlast

/-- In a run whose clock does not go back, in which no observation misses that the node is
offline, and no two observations of one instant disagree about it, a recovery is reported at
the end of an interval of time that has lasted the grace period, begins with an observation,
and in which the node was never observed offline. The observation is an earlier one, unless
there is no grace period. -/
theorem recovered_of_stable (cfg : AlertsConfig) (nodeId : Uuid) (obs : List Observation)
    (hclock : obs.Pairwise fun x y => x.now ≤ y.now)
    (hinstants : ∀ x ∈ obs, ∀ y ∈ obs, x.now = y.now → x.Offline cfg → y.Offline cfg)
    (hrun : Run.Along (step nodeId) (Sees nodeId) (.new cfg) obs) :
    ∀ before o after id hostname env duration detail, obs = before ++ o :: after →
      ((before.foldl (step nodeId) (.new cfg)).observe nodeId o).2 =
        .fire .nodeRecovered id hostname env duration detail →
      ∃ first ∈ before ++ [o], (0 < cfg.recoveryGraceSec.toNat → first ∈ before) ∧
        first.now + cfg.recoveryGraceSec.toNat * nanosPerSec ≤ o.now ∧
        ∀ x ∈ obs, first.now ≤ x.now → x.now ≤ o.now → ¬ x.Offline cfg := by
  rintro before o after id hostname env duration detail rfl hfires
  obtain ⟨hbefore, -⟩ := Run.along_append.mp hrun
  obtain ⟨hcfg, hstable⟩ := agrees_foldl before hbefore
  have hrecovered := fires_eq hfires
  rw [hcfg] at hrecovered
  obtain ⟨pre, first, rest, hhistory, hgrace, hrest⟩ := (hstable o).recovered hrecovered
  obtain ⟨hle, hlast, hpre⟩ := ordered_stretch hclock hhistory
  have hlasted : first.now + cfg.recoveryGraceSec.toNat * nanosPerSec ≤ o.now := by
    have := (Nat.le_div_iff_mul_le (by decide)).mp hgrace
    omega
  have hfirst : first ∈ before ++ [o] := by simp [hhistory]
  refine ⟨first, hfirst, fun hpos => ?_, hlasted, fun x hx hfrom hto => ?_⟩
  · rcases List.mem_append.mp hfirst with hfirst | hfirst
    · exact hfirst
    · rw [List.mem_singleton.mp hfirst] at hlasted
      have : 0 < cfg.recoveryGraceSec.toNat * nanosPerSec := Nat.mul_pos hpos (by decide)
      omega
  · have hsub : ∀ y ∈ before ++ [o], y ∈ before ++ o :: after := by
      intro y hy
      simp only [List.mem_append, List.mem_cons] at hy ⊢
      tauto
    have hsplit : x ∈ pre ++ first :: rest ∨ x ∈ after := by
      rw [← hhistory]
      simpa [or_assoc] using hx
    rcases hsplit with hx' | hx'
    · rcases List.mem_append.mp hx' with hx' | hx'
      · -- before the stretch only what was observed at the instant it begins can lie in it
        exact fun hoffline => hrest first (by simp)
          (hinstants x hx first (hsub first hfirst) (hpre x hx' hfrom) hoffline)
      · exact hrest x hx'
    · have hlater : o.now ≤ x.now :=
        List.rel_of_pairwise_cons (List.pairwise_append.mp hclock).2.1 hx'
      exact fun hoffline => hrest o hlast
        (hinstants x hx o (by simp) (le_antisymm hto hlater) hoffline)

/-- An observation of a node, in seconds. -/
def observedAt (t heartbeat : ℕ) : Observation where
  hostname := "h"
  env := "e"
  now := t * nanosPerSec
  lastHeartbeatMs := some (Int64.ofNat (heartbeat * 1000))
  nowMs := Int64.ofNat (t * 1000)

def alertsConfig : AlertsConfig := { offlineThresholdSec := 120 }

def observed : List Observation := [observedAt 0 0, observedAt 700 580, observedAt 730 725]

theorem recovered_of_stable_observed :
    ∃ first ∈ observed ++ [observedAt 860 855], first ∈ observed ∧
      first.now + 120 * nanosPerSec ≤ 860 * nanosPerSec ∧
      ∀ x ∈ observed ++ [observedAt 860 855], first.now ≤ x.now → x.now ≤ 860 * nanosPerSec →
        ¬ x.Offline alertsConfig := by
  obtain ⟨first, hfirst, hearlier, hstable⟩ := recovered_of_stable alertsConfig 0
    (observed ++ [observedAt 860 855]) (by decide) (by decide) (by decide) observed
    (observedAt 860 855) [] 0 "h" "e" 130 none rfl (by decide)
  exact ⟨first, hfirst, hearlier (by decide), hstable⟩

/-- The node is silent twice more, and the second time only the rule for flapping sees it. -/
def flapped : List Observation :=
  observed ++
    [observedAt 850 730, observedAt 880 875, observedAt 970 880, observedAt 1000 880]

theorem recovered_after_offline :
    (flapped ++ [observedAt 1030 1025]).Pairwise (fun x y => x.now < y.now) ∧
      ((flapped.foldl (step 0) (.new alertsConfig)).observe 0 (observedAt 1030 1025)).2 =
        .fire .nodeRecovered 0 "h" "e" 150 none ∧
      ∀ first ∈ flapped ++ [observedAt 1030 1025],
        first.now + alertsConfig.recoveryGraceSec.toNat * nanosPerSec ≤ 1030 * nanosPerSec →
        ∃ x ∈ flapped ++ [observedAt 1030 1025], first.now ≤ x.now ∧ x.Offline alertsConfig := by
  refine ⟨by decide, by decide +kernel, ?_⟩
  -- the observation at 1000 is in every such stretch
  intro first hfirst hgrace
  refine ⟨observedAt 1000 880, by decide, ?_, by decide⟩
  revert first
  decide

end AlertsEngine

end Fcore
