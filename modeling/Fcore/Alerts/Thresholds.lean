import Fcore.Alerts
import Fcore.Lib.Text
import Mathlib.Data.Rat.Floor

/-!
# Alerts about load

The processor and the disks of a node are watched by one rule with two levels. The time above
the threshold runs from the first reading that reaches it, and is taken back only by a reading
below the lower level. The rule fires once until then.

The disks are watched one by one, but a tick returns one event, that of the last disk for which
the rule fires.
-/

namespace Fcore

/-- Fire when the level has been at least `threshold` for the time `hold`, and start again below
`reset`. -/
structure HoldRule where
  hold : ℕ
  threshold : ℚ
  reset : ℚ

namespace AlertsConfig

def holdRule (holdSec : UInt64) (thresholdPct resetPct : ℚ) : HoldRule where
  hold := (max holdSec 60).toNat * nanosPerSec
  threshold := thresholdPct
  reset := min resetPct (thresholdPct - 1)

def cpuRule (cfg : AlertsConfig) : HoldRule :=
  holdRule cfg.cpuHoldSec cfg.cpuThresholdPct cfg.cpuResetPct

def diskRule (cfg : AlertsConfig) : HoldRule :=
  holdRule cfg.diskHoldSec cfg.diskThresholdPct cfg.diskResetPct

theorem reset_lt_threshold (holdSec : UInt64) (thresholdPct resetPct : ℚ) :
    (holdRule holdSec thresholdPct resetPct).reset <
      (holdRule holdSec thresholdPct resetPct).threshold :=
  (min_le_right _ _).trans_lt (sub_one_lt thresholdPct)

end AlertsConfig

namespace HoldRule

/-- The track after a reading, and how long the level has held if the rule fires. -/
def observe (rule : HoldRule) (pct : ℚ) (now : ℕ) (track : Option CpuTrack) :
    Option CpuTrack × Option ℕ :=
  if rule.threshold ≤ pct then
    let track := track.getD ⟨now, false⟩
    if track.alerted then (some track, none)
    else
      let held := now - track.highSince
      if rule.hold ≤ held then (some { track with alerted := true }, some held)
      else (some track, none)
  else if pct < rule.reset then (none, none)
  else (track, none)

end HoldRule

namespace AlertsEngine

def observeCpuAt (nodeId : Uuid) (o : Reading) (engine : AlertsEngine) :
    AlertsEngine × Decision :=
  match o.value with
  | none => (engine, .idle)
  | some cpu =>
    let seen := engine.cfg.cpuRule.observe cpu o.now (engine.cpu.lookup nodeId)
    ({ engine with cpu := engine.cpu.assign nodeId seen.1 },
      match seen.2 with
      | none => .idle
      | some held => .fire .nodeCpuHigh nodeId o.hostname o.env
          (Int64.ofNat (held / nanosPerSec)) none)

end AlertsEngine

/-- The text of a percentage, rounded with halves away from zero. -/
def roundText (pct : ℚ) : String :=
  if pct < 0 then
    if ⌊1 / 2 - pct⌋ = 0 then "-0" else toString (-⌊1 / 2 - pct⌋)
  else toString ⌊pct + 1 / 2⌋

def diskDetail (disk : String × ℚ) : String := disk.1 ++ ": " ++ roundText disk.2

def diskEvent (nodeId : Uuid) (hostname env : String) (disk : String × ℚ) (held : ℕ) : Decision :=
  .fire .nodeDiskHigh nodeId hostname env (Int64.ofNat (held / nanosPerSec))
    (some (diskDetail disk))

namespace AlertsEngine

/-- What the rule says about a disk in the state of the engine. -/
def seen (engine : AlertsEngine) (nodeId : Uuid) (now : ℕ) (disk : String × ℚ) :
    Option CpuTrack × Option ℕ :=
  engine.cfg.diskRule.observe disk.2 now (engine.disks.lookup (nodeId, disk.1))

def observeMount (nodeId : Uuid) (hostname env : String) (now : ℕ)
    (s : AlertsEngine × Option Decision) (disk : String × ℚ) : AlertsEngine × Option Decision :=
  ({ s.1 with disks := s.1.disks.assign (nodeId, disk.1) (s.1.seen nodeId now disk).1 },
    ((s.1.seen nodeId now disk).2.map (diskEvent nodeId hostname env disk)).or s.2)

def observeDiskAt (nodeId : Uuid) (hostname env : String) (disks : List (String × ℚ)) (now : ℕ)
    (engine : AlertsEngine) : AlertsEngine × Option Decision :=
  disks.foldl (observeMount nodeId hostname env now) (engine, none)

end AlertsEngine

/-! ## The processor -/

namespace Reading

def AtLeast (level : ℚ) (o : Reading) : Prop := ∃ pct ∈ o.value, level ≤ pct

def Below (level : ℚ) (o : Reading) : Prop := ∃ pct ∈ o.value, pct < level

end Reading

namespace HoldRule

variable {rule : HoldRule} {before : List Reading} {o : Reading} {track : Option CpuTrack}

/-- The track after a reading that may be missing. -/
def next (rule : HoldRule) (track : Option CpuTrack) (o : Reading) : Option CpuTrack :=
  o.value.elim track fun pct => (rule.observe pct o.now track).1

def Fires (rule : HoldRule) (track : Option CpuTrack) (o : Reading) : Prop :=
  ∃ pct ∈ o.value, (rule.observe pct o.now track).2.isSome

/-- The readings end in a stretch that begins at the time `since` with one at the threshold, and
has none below the lower level. -/
def Holds (rule : HoldRule) (history : List Reading) (since : ℕ) : Prop :=
  ∃ pre first rest, history = pre ++ first :: rest ∧ first.now = since ∧
    first.AtLeast rule.threshold ∧ ∀ x ∈ first :: rest, ¬ x.Below rule.reset

theorem Holds.append {since : ℕ} (h : rule.Holds before since) (ho : ¬ o.Below rule.reset) :
    rule.Holds (before ++ [o]) since := by
  obtain ⟨pre, first, rest, rfl, hsince, hfirst, hrest⟩ := h
  refine ⟨pre, first, rest ++ [o], by simp, hsince, hfirst, fun x hx => ?_⟩
  rcases List.mem_append.mp (List.cons_append ▸ hx) with hx | hx
  · exact hrest x hx
  · rwa [List.mem_singleton.mp hx]

theorem not_below_of_atLeast (hlevels : rule.reset < rule.threshold)
    (ho : o.AtLeast rule.threshold) : ¬ o.Below rule.reset := by
  rintro ⟨pct, hpct, hlow⟩
  obtain ⟨pct', hpct', hhigh⟩ := ho
  cases Option.mem_unique hpct hpct'
  exact (hlow.trans hlevels).not_ge hhigh

theorem next_of_below (hlevels : rule.reset < rule.threshold) (ho : o.Below rule.reset) :
    rule.next track o = none := by
  obtain ⟨pct, hpct, hlow⟩ := ho
  have hhigh : ¬ rule.threshold ≤ pct := (hlow.trans hlevels).not_ge
  simp [next, Option.mem_def.mp hpct, observe, hhigh, hlow]

theorem next_of_between (ho : ¬ o.AtLeast rule.threshold) (hlow : ¬ o.Below rule.reset) :
    rule.next track o = track := by
  cases hvalue : o.value with
  | none => simp [next, hvalue]
  | some pct =>
    have hhigh : ¬ rule.threshold ≤ pct := fun h => ho ⟨pct, hvalue, h⟩
    have hreset : ¬ pct < rule.reset := fun h => hlow ⟨pct, hvalue, h⟩
    simp [next, hvalue, observe, hhigh, hreset]

/-- The track at a reading at the threshold. -/
def reached (track : Option CpuTrack) (o : Reading) : CpuTrack := track.getD ⟨o.now, false⟩

theorem next_of_atLeast (ho : o.AtLeast rule.threshold) :
    rule.next track o = some ⟨(reached track o).highSince,
      (reached track o).alerted || decide (rule.hold ≤ o.now - (reached track o).highSince)⟩ := by
  obtain ⟨pct, hpct, hhigh⟩ := ho
  rw [next, Option.mem_def.mp hpct, Option.elim_some, observe, if_pos hhigh, ← reached]
  obtain ⟨since, alerted⟩ := reached track o
  dsimp only
  split_ifs <;> simp_all

theorem fires_iff : rule.Fires track o ↔ o.AtLeast rule.threshold ∧
    (reached track o).alerted = false ∧ rule.hold ≤ o.now - (reached track o).highSince := by
  rw [Fires, Reading.AtLeast, ← exists_and_right]
  refine exists_congr fun pct => ?_
  rw [and_assoc]
  refine and_congr_right fun _ => ?_
  rw [observe, ← reached]
  dsimp only
  split_ifs <;> simp_all

theorem next_of_alerted {t : CpuTrack} (ht : t.alerted = true) (ho : ¬ o.Below rule.reset) :
    rule.next (some t) o = some t := by
  by_cases hhigh : o.AtLeast rule.threshold
  · rw [next_of_atLeast hhigh, reached, Option.getD_some, ht, Bool.true_or, ← ht]
  · exact next_of_between hhigh ho

theorem foldl_next_of_alerted {t : CpuTrack} (ht : t.alerted = true) (obs : List Reading)
    (hobs : ∀ o ∈ obs, ¬ o.Below rule.reset) : obs.foldl rule.next (some t) = some t := by
  induction obs with
  | nil => rfl
  | cons o obs ih =>
    rw [List.foldl_cons, next_of_alerted ht (hobs o (by simp))]
    exact ih fun x hx => hobs x (List.mem_cons_of_mem o hx)

theorem holds_of_mem_next (hlevels : rule.reset < rule.threshold)
    (h : ∀ t ∈ track, rule.Holds before t.highSince) :
    ∀ t ∈ rule.next track o, rule.Holds (before ++ [o]) t.highSince := by
  intro t ht
  by_cases hhigh : o.AtLeast rule.threshold
  · have hnot := not_below_of_atLeast hlevels hhigh
    rw [next_of_atLeast hhigh] at ht
    cases ht
    cases track with
    | none => exact ⟨before, o, [], rfl, rfl, hhigh, by simpa using hnot⟩
    | some t => exact (h t rfl).append hnot
  · by_cases hlow : o.Below rule.reset
    · rw [next_of_below hlevels hlow] at ht
      cases ht
    · rw [next_of_between hhigh hlow] at ht
      exact (h t ht).append hlow

theorem holds_of_mem_foldl (hlevels : rule.reset < rule.threshold) (obs : List Reading) :
    ∀ t ∈ obs.foldl rule.next none, rule.Holds obs t.highSince := by
  induction obs using List.reverseRecOn with
  | nil => exact nofun
  | append_singleton obs o ih =>
    rw [List.foldl_append]
    exact holds_of_mem_next hlevels ih

theorem holds_of_fires (hlevels : rule.reset < rule.threshold)
    (hfires : rule.Fires (before.foldl rule.next none) o) :
    ∃ since, rule.Holds (before ++ [o]) since ∧ rule.hold ≤ o.now - since := by
  obtain ⟨hhigh, -, hheld⟩ := fires_iff.mp hfires
  have hnext : ∀ t ∈ rule.next (before.foldl rule.next none) o,
      rule.Holds (before ++ [o]) t.highSince :=
    holds_of_mem_next hlevels (holds_of_mem_foldl hlevels before)
  rw [next_of_atLeast hhigh] at hnext
  exact ⟨_, hnext _ rfl, hheld⟩

/-- The rule does not fire again before a reading below the lower level. -/
theorem exists_below_of_fires {between : List Reading} {o' : Reading}
    (hfires : rule.Fires track o)
    (hagain : rule.Fires ((o :: between).foldl rule.next track) o') :
    ∃ x ∈ between, x.Below rule.reset := by
  by_contra hnone
  push Not at hnone
  obtain ⟨hhigh, -, hheld⟩ := fires_iff.mp hfires
  rw [List.foldl_cons, next_of_atLeast hhigh, decide_eq_true hheld, Bool.or_true,
    foldl_next_of_alerted rfl between hnone] at hagain
  exact Bool.noConfusion (fires_iff.mp hagain).2.1

end HoldRule

namespace AlertsEngine

variable {cfg : AlertsConfig} {engine : AlertsEngine} {nodeId : Uuid} {o : Reading}

def stepCpu (nodeId : Uuid) (engine : AlertsEngine) (o : Reading) : AlertsEngine :=
  (engine.observeCpuAt nodeId o).1

theorem cfg_stepCpu : (engine.stepCpu nodeId o).cfg = engine.cfg := by
  unfold stepCpu observeCpuAt
  split <;> rfl

theorem lookup_stepCpu : (engine.stepCpu nodeId o).cpu.lookup nodeId =
    engine.cfg.cpuRule.next (engine.cpu.lookup nodeId) o := by
  unfold stepCpu observeCpuAt HoldRule.next
  split <;> simp_all

theorem fires_cpu_iff : (engine.observeCpuAt nodeId o).2.kind? = some .nodeCpuHigh ↔
    engine.cfg.cpuRule.Fires (engine.cpu.lookup nodeId) o := by
  cases hvalue : o.value with
  | none => simp [observeCpuAt, HoldRule.Fires, hvalue, Decision.kind?]
  | some cpu =>
    simp only [observeCpuAt, HoldRule.Fires, hvalue, Option.mem_def, Option.some.injEq,
      exists_eq_left']
    cases (engine.cfg.cpuRule.observe cpu o.now (engine.cpu.lookup nodeId)).2 <;>
      simp [Decision.kind?]

theorem foldl_stepCpu (engine : AlertsEngine) (nodeId : Uuid) (obs : List Reading) :
    (obs.foldl (stepCpu nodeId) engine).cfg = engine.cfg ∧
      (obs.foldl (stepCpu nodeId) engine).cpu.lookup nodeId =
        obs.foldl engine.cfg.cpuRule.next (engine.cpu.lookup nodeId) := by
  induction obs generalizing engine with
  | nil => exact ⟨rfl, rfl⟩
  | cons o obs ih =>
    obtain ⟨hcfg, hlookup⟩ := ih (engine.stepCpu nodeId o)
    rw [cfg_stepCpu, lookup_stepCpu] at hlookup
    exact ⟨hcfg.trans cfg_stepCpu, hlookup⟩

/-- The rule for the processor fires at `o`, after the readings `before`. -/
def CpuFires (cfg : AlertsConfig) (nodeId : Uuid) (before : List Reading) (o : Reading) : Prop :=
  ((before.foldl (stepCpu nodeId) (.new cfg)).observeCpuAt nodeId o).2.kind? = some .nodeCpuHigh

theorem cpuFires_iff {before : List Reading} : CpuFires cfg nodeId before o ↔
    cfg.cpuRule.Fires (before.foldl cfg.cpuRule.next none) o := by
  obtain ⟨hcfg, hlookup⟩ := foldl_stepCpu (.new cfg) nodeId before
  rw [CpuFires, fires_cpu_iff, hcfg, hlookup]
  rfl

/-- In a run of readings whose clock does not go back, the rule for the processor fires at the
end of a stretch of readings that begins with one at the threshold, has lasted the hold time and
has none below the lower level. Between two events there is a reading below that level. What
stands before the stretch was read before it, or at the instant of its first reading. -/
theorem cpu_hysteresis (cfg : AlertsConfig) (nodeId : Uuid) (obs : List Reading)
    (hclock : obs.Pairwise fun x y => x.now ≤ y.now) :
    (∀ before o after, obs = before ++ o :: after → CpuFires cfg nodeId before o →
      ∃ pre first rest, before ++ [o] = pre ++ first :: rest ∧
        first.AtLeast cfg.cpuRule.threshold ∧ first.now + cfg.cpuRule.hold ≤ o.now ∧
        (∀ x ∈ first :: rest, ¬ x.Below cfg.cpuRule.reset) ∧
        ∀ x ∈ pre, first.now ≤ x.now → x.now = first.now) ∧
      ∀ before o between o' after, obs = before ++ o :: (between ++ o' :: after) →
        CpuFires cfg nodeId before o → CpuFires cfg nodeId (before ++ o :: between) o' →
        ∃ x ∈ between, x.Below cfg.cpuRule.reset := by
  have hlevels : cfg.cpuRule.reset < cfg.cpuRule.threshold :=
    AlertsConfig.reset_lt_threshold _ _ _
  refine ⟨?_, ?_⟩
  · rintro before o after rfl hfires
    obtain ⟨since, ⟨pre, first, rest, hhistory, rfl, hfirst, hrest⟩, hheld⟩ :=
      HoldRule.holds_of_fires hlevels (cpuFires_iff.mp hfires)
    obtain ⟨hle, -, hpre⟩ := ordered_stretch hclock hhistory
    exact ⟨pre, first, rest, hhistory, hfirst, (Nat.le_sub_iff_add_le' hle).mp hheld, hrest, hpre⟩
  · rintro before o between o' after - hfires hagain
    rw [cpuFires_iff] at hfires hagain
    rw [List.foldl_append] at hagain
    exact HoldRule.exists_below_of_fires hfires hagain

/-- A reading of the processor, in seconds. -/
def cpuAt (t : ℕ) (cpu : ℚ) : Reading := ⟨"h", "e", some cpu, t * nanosPerSec⟩

theorem cpu_hysteresis_twice :
    CpuFires {} 0 [cpuAt 0 90, cpuAt 300 75] (cpuAt 600 95) ∧
      CpuFires {} 0 [cpuAt 0 90, cpuAt 300 75, cpuAt 600 95, cpuAt 700 60, cpuAt 800 90]
        (cpuAt 1500 90) ∧
      ∃ x ∈ [cpuAt 700 60, cpuAt 800 90], x.Below ({} : AlertsConfig).cpuRule.reset := by
  have hfirst : CpuFires {} 0 [cpuAt 0 90, cpuAt 300 75] (cpuAt 600 95) := by
    unfold CpuFires
    decide +kernel
  have hsecond : CpuFires {} 0
      [cpuAt 0 90, cpuAt 300 75, cpuAt 600 95, cpuAt 700 60, cpuAt 800 90] (cpuAt 1500 90) := by
    unfold CpuFires
    decide +kernel
  exact ⟨hfirst, hsecond, (cpu_hysteresis {} 0 [cpuAt 0 90, cpuAt 300 75, cpuAt 600 95,
    cpuAt 700 60, cpuAt 800 90, cpuAt 1500 90] (by decide)).2 [cpuAt 0 90, cpuAt 300 75]
      (cpuAt 600 95) [cpuAt 700 60, cpuAt 800 90] (cpuAt 1500 90) [] rfl hfirst hsecond⟩

/-- With two readings at one instant the stretch begins with the second of them, and the first
is below the lower level at the instant at which the stretch begins. -/
theorem not_cpu_hysteresis_sameInstant :
    [cpuAt 0 50, cpuAt 0 90, cpuAt 600 90].Pairwise (fun x y => x.now ≤ y.now) ∧
      CpuFires {} 0 [cpuAt 0 50, cpuAt 0 90] (cpuAt 600 90) ∧
      ¬ ∃ first ∈ [cpuAt 0 50, cpuAt 0 90, cpuAt 600 90],
        first.AtLeast ({} : AlertsConfig).cpuRule.threshold ∧
          first.now + ({} : AlertsConfig).cpuRule.hold ≤ (cpuAt 600 90).now ∧
          ∀ x ∈ [cpuAt 0 50, cpuAt 0 90, cpuAt 600 90], first.now ≤ x.now →
            x.now ≤ (cpuAt 600 90).now → ¬ x.Below ({} : AlertsConfig).cpuRule.reset := by
  refine ⟨by decide, ?_, ?_⟩
  · unfold CpuFires
    decide +kernel
  · have hstart : ∀ first ∈ [cpuAt 0 50, cpuAt 0 90, cpuAt 600 90],
        first.now + ({} : AlertsConfig).cpuRule.hold ≤ (cpuAt 600 90).now →
          first.now ≤ (cpuAt 0 50).now := by decide +kernel
    rintro ⟨first, hfirst, -, hheld, hstretch⟩
    exact hstretch (cpuAt 0 50) (by simp) (hstart first hfirst hheld) (by decide)
      ⟨50, rfl, by decide +kernel⟩

end AlertsEngine

/-! ## The disks -/

theorem append_cons_left_inj {α : Type*} {c : α} {xs ys s t : List α} (hs : c ∉ s) (ht : c ∉ t)
    (h : xs ++ c :: s = ys ++ c :: t) : xs = ys := by
  have hnil : ∀ {a u v : List α}, c ∉ u → c :: u = a ++ c :: v → a = [] := by
    intro a u v hu heq
    cases a with
    | nil => rfl
    | cons x a =>
      rw [List.cons_append, List.cons.injEq] at heq
      exact absurd (by simp [heq.2]) hu
  rcases List.append_eq_append_iff.mp h with ⟨a, rfl, heq⟩ | ⟨a, rfl, heq⟩
  · rw [hnil hs heq, List.append_nil]
  · rw [hnil ht heq, List.append_nil]

theorem colon_notMem_roundText (pct : ℚ) : ':' ∉ (roundText pct).toList := by
  unfold roundText
  split_ifs
  · decide
  · exact Text.notMem_toString_int (by decide) (by decide) _
  · exact Text.notMem_toString_int (by decide) (by decide) _

theorem mount_eq_of_diskDetail {disk disk' : String × ℚ} (h : diskDetail disk = diskDetail disk') :
    disk.1 = disk'.1 := by
  have hcolon : ∀ pct, ':' ∉ ' ' :: (roundText pct).toList := by
    intro pct
    simpa using colon_notMem_roundText pct
  have hlist := congrArg String.toList h
  simp only [diskDetail, String.toList_append, List.append_assoc] at hlist
  exact String.toList_inj.mp (append_cons_left_inj (hcolon disk.2) (hcolon disk'.2) hlist)

/-- The rule fires exactly when the track becomes alerted. -/
theorem HoldRule.fires_iff_alerted (rule : HoldRule) (pct : ℚ) (now : ℕ)
    (track : Option CpuTrack) : (rule.observe pct now track).2.isSome ↔
      ¬ track.any CpuTrack.alerted ∧ (rule.observe pct now track).1.any CpuTrack.alerted := by
  unfold observe
  cases track <;> simp only [Option.getD_none, Option.getD_some] <;> split_ifs <;> simp_all

namespace AlertsEngine

variable {engine : AlertsEngine} {nodeId : Uuid} {hostname env : String} {now : ℕ}
  {disks : List (String × ℚ)} {disk disk' : String × ℚ} {mount : String}
  {s : AlertsEngine × Option Decision}

theorem seen_observeMount (hne : disk'.1 ≠ disk.1) :
    (observeMount nodeId hostname env now s disk).1.seen nodeId now disk' =
      s.1.seen nodeId now disk' := by
  have hkey : (nodeId, disk'.1) ≠ (nodeId, disk.1) := fun h => hne (Prod.ext_iff.mp h).2
  simp [seen, observeMount, hkey]

theorem lookup_observeMount : (observeMount nodeId hostname env now s disk).1.disks.lookup
    (nodeId, mount) = if mount = disk.1 then (s.1.seen nodeId now disk).1
      else s.1.disks.lookup (nodeId, mount) := by
  simp [observeMount]

theorem lookup_foldl_observeMount (hmount : mount ∉ disks.map Prod.fst) :
    (disks.foldl (observeMount nodeId hostname env now) s).1.disks.lookup (nodeId, mount) =
      s.1.disks.lookup (nodeId, mount) := by
  induction disks generalizing s with
  | nil => rfl
  | cons disk disks ih =>
    obtain ⟨hne, hmount⟩ := not_or.mp (List.mem_cons.not.mp hmount)
    rw [List.foldl_cons, ih hmount, lookup_observeMount, if_neg hne]

/-- The loop gives each mount the track of its own disk. -/
theorem lookup_of_mem_disks (hmounts : (disks.map Prod.fst).Nodup) (hdisk : disk ∈ disks) :
    (disks.foldl (observeMount nodeId hostname env now) s).1.disks.lookup (nodeId, disk.1) =
      (s.1.seen nodeId now disk).1 := by
  induction disks generalizing s with
  | nil => cases hdisk
  | cons d disks ih =>
    obtain ⟨hd, hmounts⟩ := List.nodup_cons.mp hmounts
    rw [List.foldl_cons]
    rcases List.mem_cons.mp hdisk with rfl | hdisk
    · rw [lookup_foldl_observeMount hd, lookup_observeMount, if_pos rfl]
    · have hne : disk.1 ≠ d.1 := fun h => hd (h ▸ List.mem_map_of_mem hdisk)
      rw [ih hmounts hdisk, seen_observeMount hne]

/-- The event of the loop is that of a disk for which the rule fires, if there is one. -/
theorem event_foldl_observeMount (hmounts : (disks.map Prod.fst).Nodup) :
    (∃ disk ∈ disks, ∃ held, (s.1.seen nodeId now disk).2 = some held ∧
        (disks.foldl (observeMount nodeId hostname env now) s).2 =
          some (diskEvent nodeId hostname env disk held)) ∨
      (∀ disk ∈ disks, (s.1.seen nodeId now disk).2 = none) ∧
        (disks.foldl (observeMount nodeId hostname env now) s).2 = s.2 := by
  induction disks generalizing s with
  | nil => exact .inr ⟨nofun, rfl⟩
  | cons d disks ih =>
    obtain ⟨hd, hmounts⟩ := List.nodup_cons.mp hmounts
    have hseen : ∀ disk ∈ disks, (observeMount nodeId hostname env now s d).1.seen nodeId now disk =
        s.1.seen nodeId now disk := by
      intro disk hdisk
      exact seen_observeMount fun h => hd (h ▸ List.mem_map_of_mem hdisk)
    rw [List.foldl_cons]
    rcases ih hmounts with ⟨disk, hdisk, held, hheld, hevent⟩ | ⟨hnone, hevent⟩
    · rw [hseen disk hdisk] at hheld
      exact .inl ⟨disk, List.mem_cons_of_mem d hdisk, held, hheld, hevent⟩
    · rw [hevent]
      cases hfire : (s.1.seen nodeId now d).2 with
      | some held => exact .inl ⟨d, by simp, held, hfire, by simp [observeMount, hfire]⟩
      | none =>
        refine .inr ⟨fun disk hdisk => ?_, by simp [observeMount, hfire]⟩
        rcases List.mem_cons.mp hdisk with rfl | hdisk
        · exact hfire
        · rw [← hseen disk hdisk]
          exact hnone disk hdisk

def diskAlerted (nodeId : Uuid) (mount : String) (engine : AlertsEngine) : Bool :=
  (engine.disks.lookup (nodeId, mount)).any CpuTrack.alerted

/-- The tick changes the state of the mount to alerted. -/
def Alerts (engine : AlertsEngine) (nodeId : Uuid) (hostname env : String)
    (disks : List (String × ℚ)) (now : ℕ) (mount : String) : Prop :=
  ¬ engine.diskAlerted nodeId mount ∧
    (engine.observeDiskAt nodeId hostname env disks now).1.diskAlerted nodeId mount

/-- The tick returns an event that names the mount. -/
def Names (engine : AlertsEngine) (nodeId : Uuid) (hostname env : String)
    (disks : List (String × ℚ)) (now : ℕ) (mount : String) : Prop :=
  ∃ disk ∈ disks, disk.1 = mount ∧ ∃ duration,
    (engine.observeDiskAt nodeId hostname env disks now).2 =
      some (.fire .nodeDiskHigh nodeId hostname env duration (some (diskDetail disk)))

theorem alerts_iff (hmounts : (disks.map Prod.fst).Nodup) :
    engine.Alerts nodeId hostname env disks now mount ↔
      ∃ disk ∈ disks, disk.1 = mount ∧ (engine.seen nodeId now disk).2.isSome := by
  constructor
  · rintro ⟨hbefore, hafter⟩
    by_cases hmount : mount ∈ disks.map Prod.fst
    · obtain ⟨disk, hdisk, rfl⟩ := List.mem_map.mp hmount
      refine ⟨disk, hdisk, rfl, (HoldRule.fires_iff_alerted _ _ _ _).mpr ⟨hbefore, ?_⟩⟩
      rwa [diskAlerted, observeDiskAt, lookup_of_mem_disks hmounts hdisk] at hafter
    · rw [diskAlerted, observeDiskAt, lookup_foldl_observeMount hmount] at hafter
      exact absurd hafter hbefore
  · rintro ⟨disk, hdisk, rfl, hfires⟩
    obtain ⟨hbefore, hafter⟩ := (HoldRule.fires_iff_alerted _ _ _ _).mp hfires
    refine ⟨hbefore, ?_⟩
    rw [diskAlerted, observeDiskAt, lookup_of_mem_disks hmounts hdisk]
    exact hafter

/-- A tick names every mount that it alerts exactly when the rule fires, on the tracks there
are before the tick, for the disk of one mount at most. -/
theorem names_of_alerts_iff (engine : AlertsEngine) (nodeId : Uuid) (hostname env : String)
    (disks : List (String × ℚ)) (now : ℕ) (hmounts : (disks.map Prod.fst).Nodup) :
    (∀ mount, engine.Alerts nodeId hostname env disks now mount →
        engine.Names nodeId hostname env disks now mount) ↔
      ∀ disk ∈ disks, ∀ disk' ∈ disks, (engine.seen nodeId now disk).2.isSome = true →
        (engine.seen nodeId now disk').2.isSome = true → disk.1 = disk'.1 := by
  constructor
  · intro hnames disk hdisk disk' hdisk' hfires hfires'
    obtain ⟨d, -, hd, duration, hevent⟩ :=
      hnames disk.1 ((alerts_iff hmounts).mpr ⟨disk, hdisk, rfl, hfires⟩)
    obtain ⟨d', -, hd', duration', hevent'⟩ :=
      hnames disk'.1 ((alerts_iff hmounts).mpr ⟨disk', hdisk', rfl, hfires'⟩)
    rw [hevent, Option.some.injEq, Decision.fire.injEq, Option.some.injEq] at hevent'
    rw [← hd, ← hd', mount_eq_of_diskDetail hevent'.2.2.2.2.2]
  · intro hone mount hmount
    obtain ⟨disk, hdisk, rfl, hfires⟩ := (alerts_iff hmounts).mp hmount
    rcases event_foldl_observeMount (s := (engine, none)) hmounts with
      ⟨d, hd, held, hheld, hevent⟩ | ⟨hnone, -⟩
    · exact ⟨d, hd, hone d hd disk hdisk (Option.isSome_of_mem hheld) hfires, _, hevent⟩
    · rw [hnone disk hdisk] at hfires
      cases hfires

/-- Two disks that are full for the hold time at the same tick. -/
def fullDisks : List (String × ℚ) := [("/", 95), ("/var", 97)]

theorem names_of_alerts_iff_single :
    ((AlertsEngine.new {}).observeDiskAt 0 "h" "e" [("/", 95)] 0).1.Alerts 0 "h" "e"
        [("/", 95)] (900 * nanosPerSec) "/" ∧
      ((AlertsEngine.new {}).observeDiskAt 0 "h" "e" [("/", 95)] 0).1.Names 0 "h" "e"
        [("/", 95)] (900 * nanosPerSec) "/" := by
  have halerts : ((AlertsEngine.new {}).observeDiskAt 0 "h" "e" [("/", 95)] 0).1.Alerts 0 "h" "e"
      [("/", 95)] (900 * nanosPerSec) "/" := by
    unfold Alerts
    decide +kernel
  refine ⟨halerts, (names_of_alerts_iff _ _ _ _ _ _ (by decide)).mpr ?_ _ halerts⟩
  intro disk hdisk disk' hdisk' _ _
  rw [List.mem_singleton.mp hdisk, List.mem_singleton.mp hdisk']

theorem alerts_without_name :
    let engine := ((AlertsEngine.new {}).observeDiskAt 0 "h" "e" fullDisks 0).1
    engine.Alerts 0 "h" "e" fullDisks (900 * nanosPerSec) "/" ∧
      engine.Alerts 0 "h" "e" fullDisks (900 * nanosPerSec) "/var" ∧
      ¬ engine.Names 0 "h" "e" fullDisks (900 * nanosPerSec) "/" := by
  intro engine
  have hevent : (engine.observeDiskAt 0 "h" "e" fullDisks (900 * nanosPerSec)).2 =
      some (.fire .nodeDiskHigh 0 "h" "e" 900 (some (diskDetail ("/var", 97)))) := by
    decide +kernel
  refine ⟨?_, ?_, ?_⟩
  · unfold Alerts
    decide +kernel
  · unfold Alerts
    decide +kernel
  · rintro ⟨disk, -, hmount, duration, hnames⟩
    rw [hevent, Option.some.injEq, Decision.fire.injEq, Option.some.injEq] at hnames
    have hvar : "/var" = disk.1 := mount_eq_of_diskDetail hnames.2.2.2.2.2
    exact absurd (hvar.trans hmount) (by decide)

end AlertsEngine

end Fcore
