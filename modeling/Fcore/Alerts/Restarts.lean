import Fcore.Alerts

/-!
# Alerts about restarts

The uptime of a node falls when it restarts. Restarts are counted in windows, and the rule fires
once in a window. A window begins with the first observation, or with the first restart after
the window before it is over. So restarts that lie close together on both sides of the end of a
window are counted in two parts, and neither may be enough.
-/

namespace Fcore

namespace AlertsConfig

def flapWindow (cfg : AlertsConfig) : ℕ := cfg.flapWindowSec.toNat * nanosPerSec

def restartThreshold (cfg : AlertsConfig) : ℕ := (max cfg.flapThreshold 2).toNat

end AlertsConfig

def hasRestarted (lastUptime uptime : ℚ) : Bool := decide (uptime + 5 < lastUptime)

namespace RestartTrack

/-- The track in its window at `now`. -/
def inWindow (cfg : AlertsConfig) (now : ℕ) (track : RestartTrack) : RestartTrack :=
  if cfg.flapWindow < now - track.windowStart then
    { track with count := 0, windowStart := now, alerted := false }
  else track

/-- Count a restart, and give the number of restarts in the window if the rule fires. -/
def tally (cfg : AlertsConfig) (track : RestartTrack) : RestartTrack × Option UInt32 :=
  let count := track.count + 1
  if track.alerted || decide (count.toNat < cfg.restartThreshold) then
    ({ track with count := count }, none)
  else ({ track with count := count, alerted := true }, some count)

def observe (cfg : AlertsConfig) (uptime : ℚ) (now : ℕ) (track : RestartTrack) :
    RestartTrack × Option UInt32 :=
  if hasRestarted track.lastUptime uptime then
    ({ track with lastUptime := uptime }.inWindow cfg now).tally cfg
  else ({ track with lastUptime := uptime }, none)

end RestartTrack

namespace AlertsEngine

def observeRestartsAt (nodeId : Uuid) (o : Reading) (engine : AlertsEngine) :
    AlertsEngine × Decision :=
  match o.value with
  | none => (engine, .idle)
  | some uptime =>
    match engine.restarts.lookup nodeId with
    | none =>
      ({ engine with restarts := engine.restarts.insert nodeId ⟨uptime, 0, o.now, false⟩ }, .idle)
    | some track =>
      let (track, fired) := track.observe engine.cfg uptime o.now
      ({ engine with restarts := engine.restarts.insert nodeId track },
        match fired with
        | none => .idle
        | some count => .fire .nodeFlapping nodeId o.hostname o.env (Int64.ofNat count.toNat)
            (some ("перезапусков за окно: " ++ toString count.toNat)))

end AlertsEngine

namespace RestartTrack

variable {cfg : AlertsConfig} {track : RestartTrack} {uptime : ℚ} {now : ℕ}

theorem two_le_restartThreshold (cfg : AlertsConfig) : 2 ≤ cfg.restartThreshold := by
  have hmax : max cfg.flapThreshold 2 =
      if cfg.flapThreshold ≤ 2 then 2 else cfg.flapThreshold := rfl
  rw [AlertsConfig.restartThreshold, hmax]
  split_ifs with h
  · decide
  · rw [UInt64.le_iff_toNat_le, not_le] at h
    exact h.le

theorem observe_of_running (hrunning : hasRestarted track.lastUptime uptime = false) :
    track.observe cfg uptime now = ({ track with lastUptime := uptime }, none) := by
  rw [observe, hrunning]
  rfl

-- a window begins with its first restart, and one restart is never enough
theorem observe_of_over (hrestarted : hasRestarted track.lastUptime uptime = true)
    (hover : cfg.flapWindow < now - track.windowStart) :
    track.observe cfg uptime now = (⟨uptime, 1, now, false⟩, none) := by
  have hone : (1 : UInt32).toNat < cfg.restartThreshold := two_le_restartThreshold cfg
  rw [observe, if_pos hrestarted, inWindow, if_pos hover, tally]
  exact if_pos (decide_eq_true hone)

theorem observe_of_restarted (hrestarted : hasRestarted track.lastUptime uptime = true)
    (hover : ¬ cfg.flapWindow < now - track.windowStart) :
    track.observe cfg uptime now = tally cfg { track with lastUptime := uptime } := by
  rw [observe, if_pos hrestarted, inWindow, if_neg hover]

theorem windowStart_observe (hopen : ¬ cfg.flapWindow < now - track.windowStart) :
    (track.observe cfg uptime now).1.windowStart = track.windowStart := by
  cases hrestarted : hasRestarted track.lastUptime uptime with
  | false => rw [observe_of_running hrestarted]
  | true =>
    rw [observe_of_restarted hrestarted hopen, tally]
    dsimp only
    split <;> rfl

end RestartTrack

/-- A run of observations of one node: the engine, the last uptime, when the node restarted, and
when it was reported. -/
structure RestartLog where
  engine : AlertsEngine
  lastUptime : Option ℚ
  restarts : List ℕ
  reports : List ℕ

namespace RestartLog

def step (nodeId : Uuid) (log : RestartLog) (o : Reading) : RestartLog where
  engine := (log.engine.observeRestartsAt nodeId o).1
  lastUptime := o.value.or log.lastUptime
  restarts := log.restarts ++ if ∃ uptime ∈ o.value, ∃ last ∈ log.lastUptime,
    hasRestarted last uptime then [o.now] else []
  reports := log.reports ++ match (log.engine.observeRestartsAt nodeId o).2 with
    | .fire .nodeFlapping .. => [o.now]
    | _ => []

def run (cfg : AlertsConfig) (nodeId : Uuid) (obs : List Reading) : RestartLog :=
  obs.foldl (step nodeId) ⟨.new cfg, none, [], []⟩

def since (log : RestartLog) (t : ℕ) : List ℕ := log.restarts.filter fun t' => t ≤ t'

/-- The restarts since the window of a track began are counted until they are reported. -/
structure Counts (cfg : AlertsConfig) (log : RestartLog) (now : ℕ) (track : RestartTrack) :
    Prop where
  uptime : log.lastUptime = some track.lastUptime
  begun : track.windowStart ≤ now
  within : ∀ t ∈ log.restarts, t ≤ track.windowStart + cfg.flapWindow
  reported : track.alerted = true → ∃ t ∈ log.reports, track.windowStart ≤ t
  counted : track.alerted = false → track.count.toNat = (log.since track.windowStart).length ∧
    track.count.toNat < cfg.restartThreshold

structure Tallied (cfg : AlertsConfig) (nodeId : Uuid) (now : ℕ) (log : RestartLog) : Prop where
  cfg_eq : log.engine.cfg = cfg
  fresh : log.engine.restarts.lookup nodeId = none → log.lastUptime = none ∧ log.restarts = []
  known : ∀ track, log.engine.restarts.lookup nodeId = some track → log.Counts cfg now track

variable {cfg : AlertsConfig} {nodeId : Uuid} {log : RestartLog} {now now' : ℕ}
  {track : RestartTrack}

theorem Counts.observe (h : log.Counts cfg now track) (hnow : now ≤ now')
    (hthreshold : cfg.restartThreshold < 2 ^ 32) (uptime : ℚ) (engine : AlertsEngine) :
    Counts cfg ⟨engine, some uptime,
      log.restarts ++ if hasRestarted track.lastUptime uptime then [now'] else [],
      log.reports ++ if (track.observe cfg uptime now').2.isSome then [now'] else []⟩ now'
        (track.observe cfg uptime now').1 := by
  cases hrestarted : hasRestarted track.lastUptime uptime with
  | false =>
    rw [RestartTrack.observe_of_running hrestarted]
    exact ⟨rfl, h.begun.trans hnow, by simpa using h.within, by simpa using h.reported,
      by simpa [since] using h.counted⟩
  | true =>
    by_cases hover : cfg.flapWindow < now' - track.windowStart
    · -- the window is over, and all restarts before lie in it
      have hearlier : log.restarts.filter (fun t => now' ≤ t) = [] := by
        refine List.filter_eq_nil_iff.mpr fun t ht => ?_
        have := h.within t ht
        simp only [decide_eq_true_eq]
        omega
      rw [RestartTrack.observe_of_over hrestarted hover]
      refine ⟨rfl, le_rfl, fun t ht => ?_, by simp, fun _ => ⟨?_, ?_⟩⟩
      · rcases List.mem_append.mp ht with ht | ht
        · have := h.within t ht
          dsimp only
          omega
        · rw [List.mem_singleton.mp ht]
          exact Nat.le_add_right _ _
      · simp [since, List.filter_append, hearlier]
      · exact RestartTrack.two_le_restartThreshold cfg
    · have hbegun := h.begun.trans hnow
      have hsince : ∀ engine reports, (since ⟨engine, some uptime, log.restarts ++ [now'], reports⟩
          track.windowStart).length = (log.since track.windowStart).length + 1 := by
        intro engine reports
        simp [since, List.filter_append, hbegun]
      have hwithin : ∀ t ∈ log.restarts ++ [now'], t ≤ track.windowStart + cfg.flapWindow := by
        intro t ht
        rcases List.mem_append.mp ht with ht | ht
        · exact h.within t ht
        · rw [List.mem_singleton.mp ht]
          omega
      rw [RestartTrack.observe_of_restarted hrestarted hover, RestartTrack.tally]
      cases halerted : track.alerted with
      | true =>
        refine ⟨rfl, hbegun, hwithin, fun _ => ?_, by simp⟩
        obtain ⟨t, ht, hle⟩ := h.reported halerted
        exact ⟨t, List.mem_append_left _ ht, hle⟩
      | false =>
        obtain ⟨hcount, hless⟩ := h.counted halerted
        have hnext : (track.count + 1).toNat = track.count.toNat + 1 := by
          have hlt : track.count.toNat + 1 < 2 ^ 32 := lt_of_le_of_lt hless hthreshold
          rw [UInt32.toNat_add, UInt32.toNat_one, Nat.mod_eq_of_lt hlt]
        simp only [Bool.false_or, decide_eq_true_eq]
        by_cases hfew : (track.count + 1).toNat < cfg.restartThreshold
        · rw [if_pos hfew]
          refine ⟨rfl, hbegun, hwithin, by simp, fun _ => ⟨?_, hfew⟩⟩
          calc (track.count + 1).toNat = (log.since track.windowStart).length + 1 := by
                rw [hnext, hcount]
            _ = _ := (hsince _ _).symm
        · rw [if_neg hfew]
          exact ⟨rfl, hbegun, hwithin, fun _ => ⟨now', by simp, hbegun⟩, by simp⟩

theorem Counts.mono (h : log.Counts cfg now track) (hnow : now ≤ now') :
    log.Counts cfg now' track :=
  ⟨h.uptime, h.begun.trans hnow, h.within, h.reported, h.counted⟩

theorem step_of_silent {o : Reading} (hsilent : o.value = none) :
    log.step nodeId o = log := by
  simp [step, AlertsEngine.observeRestartsAt, hsilent]

theorem step_of_fresh {o : Reading} {uptime : ℚ} (huptime : o.value = some uptime)
    (hfresh : log.engine.restarts.lookup nodeId = none) (hlast : log.lastUptime = none) :
    log.step nodeId o = ⟨{ log.engine with
        restarts := log.engine.restarts.insert nodeId ⟨uptime, 0, o.now, false⟩ },
      some uptime, log.restarts, log.reports⟩ := by
  simp [step, AlertsEngine.observeRestartsAt, huptime, hfresh, hlast]

theorem step_of_known {o : Reading} {uptime : ℚ} (huptime : o.value = some uptime)
    (hknown : log.engine.restarts.lookup nodeId = some track)
    (hlast : log.lastUptime = some track.lastUptime) :
    log.step nodeId o = ⟨{ log.engine with
        restarts := log.engine.restarts.insert nodeId
          (track.observe log.engine.cfg uptime o.now).1 },
      some uptime, log.restarts ++ if hasRestarted track.lastUptime uptime then [o.now] else [],
      log.reports ++
        if (track.observe log.engine.cfg uptime o.now).2.isSome then [o.now] else []⟩ := by
  simp only [step, AlertsEngine.observeRestartsAt, huptime, hknown, hlast, Option.some_or]
  cases (track.observe log.engine.cfg uptime o.now).2 <;> simp

theorem Tallied.step (h : log.Tallied cfg nodeId now) (o : Reading)
    (hnow : now ≤ o.now) (hthreshold : cfg.restartThreshold < 2 ^ 32) :
    (log.step nodeId o).Tallied cfg nodeId o.now := by
  cases huptime : o.value with
  | none =>
    rw [step_of_silent huptime]
    exact ⟨h.cfg_eq, h.fresh, fun track htrack => (h.known track htrack).mono hnow⟩
  | some uptime =>
    cases hlookup : log.engine.restarts.lookup nodeId with
    | none =>
      obtain ⟨hlast, hrestarts⟩ := h.fresh hlookup
      rw [step_of_fresh huptime hlookup hlast, hrestarts]
      refine ⟨h.cfg_eq, fun hnone => ?_, fun track htrack => ?_⟩
      · rw [AList.lookup_insert] at hnone
        cases hnone
      · rw [AList.lookup_insert] at htrack
        cases htrack
        have htwo := RestartTrack.two_le_restartThreshold cfg
        exact ⟨rfl, le_rfl, nofun, nofun, fun _ => ⟨rfl, Nat.lt_of_succ_lt htwo⟩⟩
    | some track =>
      have hcounts := h.known track hlookup
      rw [step_of_known huptime hlookup hcounts.uptime, h.cfg_eq]
      refine ⟨h.cfg_eq, fun hnone => ?_, fun track' htrack => ?_⟩
      · rw [AList.lookup_insert] at hnone
        cases hnone
      · rw [AList.lookup_insert] at htrack
        cases htrack
        exact hcounts.observe hnow hthreshold uptime _

/-- A node that is observed while its window is open stays in it. -/
theorem windowStart_step {o : Reading} {track' : RestartTrack}
    (hknown : log.engine.restarts.lookup nodeId = some track)
    (hopen : o.now ≤ track.windowStart + log.engine.cfg.flapWindow)
    (hnext : (log.step nodeId o).engine.restarts.lookup nodeId = some track') :
    track'.windowStart = track.windowStart := by
  cases huptime : o.value with
  | none =>
    rw [step_of_silent huptime, hknown] at hnext
    rw [Option.some.inj hnext]
  | some uptime =>
    simp only [step, AlertsEngine.observeRestartsAt, huptime, hknown, AList.lookup_insert,
      Option.some.injEq] at hnext
    rw [← hnext]
    exact RestartTrack.windowStart_observe (by omega)

theorem tallied_new : Tallied cfg nodeId 0 ⟨.new cfg, none, [], []⟩ :=
  ⟨rfl, fun _ => ⟨rfl, rfl⟩, fun track htrack => by cases htrack⟩

theorem tallied_run (hthreshold : cfg.restartThreshold < 2 ^ 32) (obs : List Reading)
    (o : Reading) (hclock : (obs ++ [o]).Pairwise fun x y => x.now ≤ y.now) :
    (run cfg nodeId (obs ++ [o])).Tallied cfg nodeId o.now := by
  induction obs using List.reverseRecOn generalizing o with
  | nil => exact tallied_new.step o (Nat.zero_le _) hthreshold
  | append_singleton obs last ih =>
    obtain ⟨hbefore, -, hle⟩ := List.pairwise_append.mp hclock
    rw [run, List.foldl_append]
    exact (ih last hbefore).step o (hle last (by simp) o (by simp)) hthreshold

theorem exists_tallied_run (nodeId : Uuid) (hthreshold : cfg.restartThreshold < 2 ^ 32)
    {obs : List Reading} (hclock : obs.Pairwise fun x y => x.now ≤ y.now) :
    ∃ now, (run cfg nodeId obs).Tallied cfg nodeId now := by
  rcases List.eq_nil_or_concat' obs with rfl | ⟨obs, last, rfl⟩
  · exact ⟨0, tallied_new⟩
  · exact ⟨last.now, tallied_run hthreshold obs last hclock⟩

/-- When as many restarts as the rule asks for lie in the time of a window up to now, the node
was reported in that time, if at the last of them the window of the counter was still open and
had begun with the first of them or before. -/
theorem reported_of_burst (cfg : AlertsConfig) (nodeId : Uuid) (obs : List Reading)
    (o : Reading) (hclock : (obs ++ [o]).Pairwise fun x y => x.now ≤ y.now)
    (hthreshold : cfg.restartThreshold < 2 ^ 32)
    (hlast : (run cfg nodeId (obs ++ [o])).restarts =
      (run cfg nodeId obs).restarts ++ [o.now])
    (hburst : cfg.restartThreshold ≤ ((run cfg nodeId (obs ++ [o])).since
      (o.now - cfg.flapWindow)).length)
    (hwindow : ∀ track ∈ (run cfg nodeId obs).engine.restarts.lookup nodeId,
      o.now ≤ track.windowStart + cfg.flapWindow ∧
      ∀ t ∈ (run cfg nodeId obs).since (o.now - cfg.flapWindow), track.windowStart ≤ t) :
    ∃ t ∈ (run cfg nodeId (obs ++ [o])).reports, o.now ≤ t + cfg.flapWindow := by
  have htallied : (run cfg nodeId (obs ++ [o])).Tallied cfg nodeId o.now :=
    tallied_run hthreshold obs o hclock
  obtain ⟨now, hbefore⟩ :=
    exists_tallied_run nodeId hthreshold (List.pairwise_append.mp hclock).1
  have hstep : run cfg nodeId (obs ++ [o]) = (run cfg nodeId obs).step nodeId o := by
    rw [run, run, List.foldl_append]
    rfl
  have hsince : (run cfg nodeId (obs ++ [o])).since (o.now - cfg.flapWindow) =
      (run cfg nodeId obs).since (o.now - cfg.flapWindow) ++ [o.now] := by
    rw [since, hlast, List.filter_append]
    simp [since]
  cases hknown : (run cfg nodeId obs).engine.restarts.lookup nodeId with
  | none =>
    -- the first observation of a node is no restart
    rw [hstep] at hlast
    simp [step, (hbefore.fresh hknown).1] at hlast
  | some track₀ =>
    obtain ⟨hopen, hearlier⟩ := hwindow track₀ hknown
    have hmem : o.now ∈ (run cfg nodeId (obs ++ [o])).restarts := by simp [hlast]
    cases hlookup : (run cfg nodeId (obs ++ [o])).engine.restarts.lookup nodeId with
    | none => simp [(htallied.fresh hlookup).2] at hmem
    | some track =>
      have hcounts := htallied.known track hlookup
      have hstart : track.windowStart = track₀.windowStart := by
        rw [hstep] at hlookup
        exact windowStart_step hknown (by rwa [hbefore.cfg_eq]) hlookup
      cases halerted : track.alerted with
      | true =>
        obtain ⟨t, ht, hle⟩ := hcounts.reported halerted
        exact ⟨t, ht, (hcounts.within o.now hmem).trans (Nat.add_le_add_right hle _)⟩
      | false =>
        -- the counter has seen every restart of the interval, and they are not enough
        obtain ⟨hcount, hfew⟩ := hcounts.counted halerted
        have hall : ∀ t ∈ (run cfg nodeId (obs ++ [o])).since (o.now - cfg.flapWindow),
            track.windowStart ≤ t := by
          intro t ht
          rw [hsince, List.mem_append] at ht
          rcases ht with ht | ht
          · rw [hstart]
            exact hearlier t ht
          · rw [List.mem_singleton.mp ht]
            exact hcounts.begun
        have hsub : ((run cfg nodeId (obs ++ [o])).since (o.now - cfg.flapWindow)).Sublist
            ((run cfg nodeId (obs ++ [o])).since track.windowStart) := by
          rw [← List.filter_eq_self.mpr fun t ht => decide_eq_true (hall t ht)]
          exact List.filter_sublist.filter _
        exact absurd hsub.length_le (by omega)

/-- An observation of an uptime, in seconds. -/
def uptimeAt (t : ℕ) (uptime : ℚ) : Reading := ⟨"h", "e", some uptime, t * nanosPerSec⟩

def restartsConfig : AlertsConfig := { flapThreshold := 2 }

theorem reported_of_burst_twice :
    ∃ t ∈ (run restartsConfig 0 ([uptimeAt 0 1000, uptimeAt 60 10] ++ [uptimeAt 90 2])).reports,
      90 * nanosPerSec ≤ t + restartsConfig.flapWindow :=
  reported_of_burst restartsConfig 0 [uptimeAt 0 1000, uptimeAt 60 10] (uptimeAt 90 2)
    (by decide) (by decide) (by decide +kernel) (by decide +kernel) (by decide +kernel)

-- the window ends between two restarts that are 15 seconds apart
theorem burst_at_window_end :
    let log := run restartsConfig 0 [uptimeAt 0 1000, uptimeAt 3590 10, uptimeAt 3605 2]
    restartsConfig.restartThreshold = 2 ∧ restartsConfig.flapWindow = 3600 * nanosPerSec ∧
      log.restarts = [3590 * nanosPerSec, 3605 * nanosPerSec] ∧ log.reports = [] := by
  decide +kernel

end RestartLog

end Fcore
