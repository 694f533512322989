import Fcore.Lib.Run
import Fcore.Metrics.Snapshot

/-!
# Saving the metrics

A snapshot is a number of part files and a file that says how many there are. A save first
removes the old parts, then writes the new ones, each to a temporary file that is renamed, and
last of all the number of parts. A load skips parts that are missing.

So a save that stops half way leaves the old number with old parts removed, or with some of the
new parts. Before the first old part is removed the old snapshot is there, and once the number is
written the new one.
-/

namespace Fcore

abbrev SnapshotPart := List MetricSeriesSnapshot

namespace MetricStorage

def shouldPersist (metric : String) : Bool :=
  metric ∈ [uplinkMetric, downlinkMetric, onlineMetric, "net.inbound.VlessTcpReality.uplink",
    "net.inbound.VlessTcpReality.downlink", "net.inbound.VlessXhttpReality.uplink",
    "net.inbound.VlessXhttpReality.downlink", "net.inbound.VlessXhttpCdn.uplink",
    "net.inbound.VlessXhttpCdn.downlink", "net.inbound.VlessGrpcReality.uplink",
    "net.inbound.VlessGrpcReality.downlink"]

def persisted (m : MetricStorage) : List MetricSeriesSnapshot :=
  m.inner.entries.flatMap fun node => node.2.entries.filterMap fun series =>
    match m.metadata.lookup series.1 with
    | none => none
    | some (metric, tags) =>
      if shouldPersist metric then some ⟨node.1, metric, tags, series.2⟩ else none

def snapshotPartSize : ℕ := 300 * 1024 * 1024

def estimatedSize (series : MetricSeriesSnapshot) : ℕ :=
  series.points.length * 16 + series.metric.utf8ByteSize + 2048

structure Chunking where
  parts : List SnapshotPart
  current : SnapshotPart
  size : ℕ

def Chunking.push (c : Chunking) (series : MetricSeriesSnapshot) : Chunking :=
  if snapshotPartSize ≤ c.size ∧ c.current ≠ [] then
    ⟨c.parts ++ [c.current], [series], estimatedSize series⟩
  else { c with current := c.current ++ [series], size := c.size + estimatedSize series }

def snapshotParts (series : List MetricSeriesSnapshot) : List SnapshotPart :=
  let c := series.foldl Chunking.push ⟨[], [], 0⟩
  if c.current.isEmpty then c.parts else c.parts ++ [c.current]

theorem flatten_snapshotParts (series : List MetricSeriesSnapshot) :
    (snapshotParts series).flatten = series := by
  have hpush : ∀ (c : Chunking) (x : MetricSeriesSnapshot),
      (c.push x).parts.flatten ++ (c.push x).current = c.parts.flatten ++ c.current ++ [x] := by
    intro c x
    unfold Chunking.push
    split_ifs <;> simp
  have hfold : ∀ (series : List MetricSeriesSnapshot) (c : Chunking),
      (series.foldl Chunking.push c).parts.flatten ++ (series.foldl Chunking.push c).current =
        c.parts.flatten ++ c.current ++ series := by
    intro series
    induction series with
    | nil => simp
    | cons x series ih =>
      intro c
      rw [List.foldl_cons, ih, hpush, List.append_assoc, List.singleton_append]
  have hall := hfold series ⟨[], [], 0⟩
  unfold snapshotParts
  dsimp only
  split_ifs with hempty
  · rw [List.isEmpty_iff.mp hempty] at hall
    simpa using hall
  · simpa using hall

end MetricStorage

/-- The files of a snapshot. A number of parts that was not written to its end is `some none`. -/
structure SnapshotFiles where
  partCount : Option (Option ℕ)
  parts : Table ℕ SnapshotPart
  tmp : Option SnapshotPart

namespace SnapshotFiles

open MetricStorage

/-- The series that a load restores. -/
def series (files : SnapshotFiles) : Option (List MetricSeriesSnapshot) :=
  files.partCount.join.map fun count =>
    (List.range count).flatMap fun idx => (files.parts.lookup idx).getD []

def loadSnapshot (seriesKey : String → Tags → UInt64) (maxPoints : ℕ) (retentionSec now : ℤ)
    (files : SnapshotFiles) : Option MetricStorage :=
  files.partCount.join.map fun count =>
    ((List.range count).foldl (fun m idx =>
      match files.parts.lookup idx with
      | some part => part.foldl (restoreSeries seriesKey) m
      | none => m) (new maxPoints retentionSec)).performGc now

theorem loadSnapshot_eq (seriesKey : String → Tags → UInt64) (maxPoints : ℕ)
    (retentionSec now : ℤ) (files : SnapshotFiles) :
    files.loadSnapshot seriesKey maxPoints retentionSec now = files.series.map fun series =>
      (series.foldl (restoreSeries seriesKey) (new maxPoints retentionSec)).performGc now := by
  rw [loadSnapshot, series, Option.map_map]
  congr 1
  funext count
  rw [Function.comp_apply, List.foldl_flatMap]
  congr 2
  funext m idx
  cases files.parts.lookup idx <;> rfl

end SnapshotFiles

/-! ## Saving step by step -/

inductive SaveStage where
  | cleaning (idx : ℕ)
  | writing (idx : ℕ) (todo : List SnapshotPart)
  | moving (idx : ℕ) (todo : List SnapshotPart)
  | describing (count : ℕ)
  | saved
  | failed
  deriving DecidableEq

/-- How a file operation ends. A write that fails may leave part of its text in the file. -/
inductive FileOutcome where
  | ok
  | failed
  | torn

/-- What a save has done to the files that a load reads. -/
inductive SaveEffect where
  | removed (idx : ℕ)
  | replaced (idx : ℕ)
  | described
  | torn
  deriving DecidableEq

structure Saving where
  files : SnapshotFiles
  stage : SaveStage
  effects : List SaveEffect

namespace Saving

def start (files : SnapshotFiles) : Saving := ⟨files, .cleaning 0, []⟩

/-- One file operation of a save of the given parts. A part that cannot be removed is left. -/
def step (parts : List SnapshotPart) (s : Saving) (outcome : FileOutcome) : Saving :=
  match s.stage with
  | .cleaning idx =>
    match s.files.parts.lookup idx, outcome with
    | none, _ => { s with stage := .writing 0 parts }
    | some _, .ok => ⟨{ s.files with parts := s.files.parts.erase idx }, .cleaning (idx + 1),
        s.effects ++ [.removed idx]⟩
    | some _, _ => { s with stage := .cleaning (idx + 1) }
  | .writing idx [] => { s with stage := .describing idx }
  | .writing idx (part :: todo) =>
    match outcome with
    | .ok => { s with files := { s.files with tmp := some part }, stage := .moving idx todo }
    | _ => { s with files := { s.files with tmp := none }, stage := .failed }
  | .moving idx todo =>
    match outcome, s.files.tmp with
    | .ok, some part => ⟨{ s.files with parts := s.files.parts.insert idx part, tmp := none },
        .writing (idx + 1) todo, s.effects ++ [.replaced idx]⟩
    | _, _ => { s with stage := .failed }
  | .describing count =>
    match outcome with
    | .ok => ⟨{ s.files with partCount := some (some count) }, .saved, s.effects ++ [.described]⟩
    | .failed => { s with stage := .failed }
    | .torn => ⟨{ s.files with partCount := some none }, .failed, s.effects ++ [.torn]⟩
  | .saved => s
  | .failed => s

variable {old : SnapshotFiles} {parts : List SnapshotPart} {s : Saving}

/-- The first parts are in their place. -/
def Placed (parts : List SnapshotPart) (count : ℕ) (files : SnapshotFiles) : Prop :=
  ∀ idx < count, files.parts.lookup idx = parts[idx]?

/-- How far a save has come at its stage. -/
def Reached (parts : List SnapshotPart) (files : SnapshotFiles) : SaveStage → Prop
  | .writing idx todo => parts.drop idx = todo ∧ idx ≤ parts.length ∧ Placed parts idx files
  | .moving idx todo => ∃ part, files.tmp = some part ∧ parts.drop idx = part :: todo ∧
      Placed parts idx files
  | .describing count => count = parts.length ∧ Placed parts count files
  | .saved => files.partCount = some (some parts.length) ∧ Placed parts parts.length files
  | _ => True

structure Progress (old : SnapshotFiles) (parts : List SnapshotPart) (s : Saving) : Prop where
  untouched : s.effects = [] → s.files.parts = old.parts
  count : s.stage ≠ .saved → .torn ∉ s.effects → s.files.partCount = old.partCount
  torn : .torn ∈ s.effects → s.stage = .failed
  reached : Reached parts s.files s.stage

theorem Placed.insert {files : SnapshotFiles} {idx : ℕ} {part : SnapshotPart}
    (h : Placed parts idx files) (hpart : parts[idx]? = some part) (tmp : Option SnapshotPart) :
    Placed parts (idx + 1) { files with parts := files.parts.insert idx part, tmp := tmp } := by
  intro i hi
  rw [AList.lookup_insert_eq_ite]
  split_ifs with heq
  · rw [heq, hpart]
  · exact h i (by omega)

theorem Progress.step (h : Progress old parts s) (outcome : FileOutcome) :
    Progress old parts (s.step parts outcome) := by
  obtain ⟨files, stage, effects⟩ := s
  obtain ⟨huntouched, hcount, htorn, hreached⟩ := h
  cases stage with
  | cleaning idx =>
    have hwhole : SaveEffect.torn ∉ effects := fun h => by cases htorn h
    replace hcount := hcount (by simp) hwhole
    cases hlookup : files.parts.lookup idx with
    | none =>
      simp only [Saving.step, hlookup]
      exact ⟨huntouched, fun _ _ => hcount, fun h => absurd h hwhole, by simp [Reached, Placed]⟩
    | some part =>
      cases outcome with
      | ok =>
        simp only [Saving.step, hlookup]
        exact ⟨by simp, fun _ _ => hcount, by simpa using hwhole, trivial⟩
      | failed | torn =>
        simp only [Saving.step, hlookup]
        exact ⟨huntouched, fun _ _ => hcount, fun h => absurd h hwhole, trivial⟩
  | writing idx todo =>
    have hwhole : SaveEffect.torn ∉ effects := fun h => by cases htorn h
    replace hcount := hcount (by simp) hwhole
    obtain ⟨hdrop, hle, hplaced⟩ := hreached
    cases todo with
    | nil =>
      have hend : idx = parts.length := le_antisymm hle (List.drop_eq_nil_iff.mp hdrop)
      exact ⟨huntouched, fun _ _ => hcount, fun h => absurd h hwhole, hend, hplaced⟩
    | cons part todo =>
      cases outcome with
      | ok =>
        exact ⟨huntouched, fun _ _ => hcount, fun h => absurd h hwhole, part, rfl, hdrop, hplaced⟩
      | failed | torn => exact ⟨huntouched, fun _ _ => hcount, fun _ => rfl, trivial⟩
  | moving idx todo =>
    have hwhole : SaveEffect.torn ∉ effects := fun h => by cases htorn h
    replace hcount := hcount (by simp) hwhole
    obtain ⟨part, htmp, hdrop, hplaced⟩ := hreached
    cases outcome with
    | ok =>
      have hpart : parts[idx]? = some part := by
        rw [← List.head?_drop, hdrop, List.head?_cons]
      have hlt : idx < parts.length := (List.getElem?_eq_some_iff.mp hpart).1
      dsimp only at htmp
      simp only [Saving.step, htmp]
      refine ⟨by simp, fun _ _ => hcount, by simpa using hwhole, ?_, hlt, ?_⟩
      · rw [← List.tail_drop, hdrop, List.tail_cons]
      · exact hplaced.insert hpart none
    | failed | torn => exact ⟨huntouched, fun _ _ => hcount, fun _ => rfl, trivial⟩
  | describing count =>
    have hwhole : SaveEffect.torn ∉ effects := fun h => by cases htorn h
    replace hcount := hcount (by simp) hwhole
    obtain ⟨rfl, hplaced⟩ := hreached
    cases outcome with
    | ok =>
      exact ⟨by simp [Saving.step], by simp [Saving.step], by simpa [Saving.step] using hwhole, rfl,
        hplaced⟩
    | failed => exact ⟨huntouched, fun _ _ => hcount, fun _ => rfl, trivial⟩
    | torn => exact ⟨by simp [Saving.step], by simp [Saving.step], fun _ => rfl, trivial⟩
  | saved => exact ⟨huntouched, hcount, htorn, hreached⟩
  | failed => exact ⟨huntouched, hcount, htorn, hreached⟩

theorem series_of_placed {files : SnapshotFiles} (hplaced : Placed parts parts.length files)
    (hcount : files.partCount = some (some parts.length)) :
    files.series = some parts.flatten := by
  have hparts : (List.range parts.length).map (fun idx => (files.parts.lookup idx).getD []) =
      parts := by
    refine List.ext_getElem (by simp) fun idx h₁ h₂ => ?_
    rw [List.getElem_map, List.getElem_range, hplaced idx h₂, List.getElem?_eq_getElem h₂,
      Option.getD_some]
  rw [SnapshotFiles.series, hcount, Option.join_some, Option.map_some, List.flatMap_def, hparts]

/-- The save stopped before it changed what a load reads, or after it wrote the number of parts,
or with all new parts in place that are as many as before; or there were no parts before, and
their number was not torn. -/
def Unharmed (old : SnapshotFiles) (s : Saving) : Prop :=
  s.effects = [] ∨ s.stage = .saved ∨
    (∃ count, s.stage = .describing count ∧ old.partCount = some (some count)) ∨
    old.partCount = some (some 0) ∧ .torn ∉ s.effects

/-- When a save of the store stops at such a point, what a load restores is the old snapshot or
the new one. -/
theorem series_of_unharmed (old : SnapshotFiles) (m : MetricStorage) (now : ℤ)
    (outcomes : List FileOutcome) :
    let new := ((m.performGc now).compactOldPoints now 3600 60).persisted
    let s := outcomes.foldl (Saving.step (MetricStorage.snapshotParts new)) (Saving.start old)
    Unharmed old s → s.files.series = old.series ∨ s.files.series = some new := by
  intro new s hunharmed
  have hstart : Progress old (MetricStorage.snapshotParts new) (Saving.start old) :=
    ⟨fun _ => rfl, fun _ _ => rfl, nofun, trivial⟩
  have h : Progress old (MetricStorage.snapshotParts new) s :=
    Run.invariant_foldl hstart fun s outcome _ h => h.step outcome
  have hreached := h.reached
  by_cases hsaved : s.stage = .saved
  · rw [hsaved] at hreached
    obtain ⟨hcount, hplaced⟩ := hreached
    rw [series_of_placed hplaced hcount, MetricStorage.flatten_snapshotParts]
    exact .inr rfl
  · rcases hunharmed with hnone | hstage | ⟨count, hstage, hold⟩ | ⟨hold, hwhole⟩
    · have hcount := h.count hsaved (by simp [hnone])
      rw [SnapshotFiles.series, h.untouched hnone, hcount]
      exact .inl rfl
    · exact absurd hstage hsaved
    · -- all the new parts are there, and the old number of parts is theirs
      have hwhole : SaveEffect.torn ∉ s.effects := fun htorn => by
        rw [h.torn htorn] at hstage
        cases hstage
      have hcount := (h.count hsaved hwhole).trans hold
      rw [hstage] at hreached
      obtain ⟨rfl, hplaced⟩ := hreached
      rw [series_of_placed hplaced hcount, MetricStorage.flatten_snapshotParts]
      exact .inr rfl
    · have hcount := (h.count hsaved hwhole).trans hold
      rw [SnapshotFiles.series, SnapshotFiles.series, hcount, hold]
      exact .inl rfl

def oldSeries : MetricSeriesSnapshot := ⟨0, MetricStorage.uplinkMetric, [("conn_id", "a")], [⟨1000, 5⟩]⟩

def newSeries : MetricSeriesSnapshot := ⟨0, MetricStorage.uplinkMetric, [("conn_id", "b")], [⟨2000, 7⟩]⟩

def oldFiles : SnapshotFiles := ⟨some (some 1), AList.insert 0 [oldSeries] ∅, none⟩

def newStore : MetricStorage :=
  (MetricStorage.new 10 60).restoreSeries (fun _ _ => 7) newSeries

theorem series_of_unharmed_saved :
    let s := ([.ok, .ok, .ok, .ok, .ok, .ok] : List FileOutcome).foldl
      (Saving.step (MetricStorage.snapshotParts
        ((newStore.performGc 3000).compactOldPoints 3000 3600 60).persisted))
      (Saving.start oldFiles)
    s.stage = .saved ∧ (s.files.series = oldFiles.series ∨
      s.files.series = some ((newStore.performGc 3000).compactOldPoints 3000 3600 60).persisted) :=
  ⟨by decide +kernel, series_of_unharmed oldFiles newStore 3000 [.ok, .ok, .ok, .ok, .ok, .ok]
    (.inr (.inl (by decide +kernel)))⟩

-- the process stops after it has removed the only old part
theorem series_lost_by_stop :
    ((newStore.performGc 3000).compactOldPoints 3000 3600 60).persisted = [newSeries] ∧
      oldFiles.series = some [oldSeries] ∧
      (([.ok] : List FileOutcome).foldl (Saving.step (MetricStorage.snapshotParts [newSeries]))
        (Saving.start oldFiles)).files.series = some [] := by
  decide +kernel

end Saving

end Fcore
