import Fcore.Node.Tasks

/-!
# The snapshot file of a node

Two tasks write the memory of a node to its snapshot file. The write-through task is woken after
every change, waits a little and saves; the interval task saves from time to time. A save copies
the memory, or sees that it is empty, and then works on the files: it writes the copy to a
temporary file and renames that, or removes the snapshot.

Nothing orders the two tasks. A save that has copied the memory and is overtaken by a change, and
by the save of that change, puts the old copy over the new one.
-/

namespace Fcore

namespace NodeTasks

structure SnapshotIdentity where
  hostname : String
  env : String
  pool : Option String

structure SnapshotData where
  timestamp : ℕ
  memory : Table Uuid Base
  version : ℕ
  hostname : String
  env : String
  pool : Option String
  counts : Table String ℕ

def counts (memory : Table Uuid Base) : Table String ℕ :=
  memory.entries.foldl (fun out e => out.insert e.2.proto.proto.toText
    ((out.lookup e.2.proto.proto.toText).getD 0 + 1)) ∅

/-- Where a save stands: it has not begun, removes the file, or writes and moves a copy. -/
inductive SaveStage where
  | idle
  | removing
  | writing (data : SnapshotData)
  | moving

def SaveStage.isIdle : SaveStage → Bool
  | .idle => true
  | _ => false

/-- The snapshot file and the temporary file. -/
structure SnapshotDisk where
  file : Option SnapshotData
  tmp : Option SnapshotData

def createSnapshot (identity : SnapshotIdentity) (timestamp : ℕ) (memory : Table Uuid Base)
    (disk : SnapshotDisk) : SaveStage → SnapshotDisk × SaveStage
  | .idle =>
    if memory.entries.isEmpty then (disk, if disk.file.isSome then .removing else .idle)
    else (disk, .writing ⟨timestamp, memory, 2, identity.hostname, identity.env, identity.pool,
      counts memory⟩)
  | .removing => ({ disk with file := none }, .idle)
  | .writing data => ({ disk with tmp := some data }, .moving)
  | .moving =>
    match disk.tmp with
    | some data => (⟨some data, none⟩, .idle)
    | none => (disk, .idle)

/-- The memory may have changes that no announcement has followed yet. An announcement that the
write-through task has not taken is kept, and the task waits a little before it saves. -/
structure SnapshotWorld where
  memory : Table Uuid Base
  unnotified : Bool
  permit : Bool
  debouncing : Bool
  disk : SnapshotDisk
  writeThrough : SaveStage
  interval : SaveStage

inductive SnapshotTurn where
  | change (memory : Table Uuid Base)
  | notify
  | writeThrough (timestamp : ℕ)
  | interval (timestamp : ℕ)

namespace SnapshotWorld

def saveWriteThrough (identity : SnapshotIdentity) (timestamp : ℕ) (w : SnapshotWorld) :
    SnapshotWorld :=
  let saved := createSnapshot identity timestamp w.memory w.disk w.writeThrough
  { w with disk := saved.1, debouncing := false, writeThrough := saved.2 }

def saveInterval (identity : SnapshotIdentity) (timestamp : ℕ) (w : SnapshotWorld) :
    SnapshotWorld :=
  let saved := createSnapshot identity timestamp w.memory w.disk w.interval
  { w with disk := saved.1, interval := saved.2 }

def step (identity : SnapshotIdentity) (w : SnapshotWorld) : SnapshotTurn → SnapshotWorld
  | .change memory => { w with memory := memory, unnotified := true }
  | .notify => { w with unnotified := false, permit := true }
  | .writeThrough timestamp =>
    if w.writeThrough.isIdle && !w.debouncing then
      if w.permit then { w with permit := false, debouncing := true } else w
    else w.saveWriteThrough identity timestamp
  | .interval timestamp => w.saveInterval identity timestamp

/-- A change is to be announced, or the write-through task is to save it. -/
def Pending (w : SnapshotWorld) : Prop :=
  w.unnotified = true ∨ w.permit = true ∨ w.debouncing = true

/-- No save is in flight and no wake is pending. -/
structure Quiet (w : SnapshotWorld) : Prop where
  writeThrough : w.writeThrough = .idle
  interval : w.interval = .idle
  settled : ¬ w.Pending

end SnapshotWorld

/-- The file exists exactly if the memory is not empty, and then contains it. -/
def Reflects (memory : Table Uuid Base) (file : Option SnapshotData) : Prop :=
  (file.isSome ↔ memory.entries ≠ []) ∧ ∀ data ∈ file, data.memory = memory

/-- What the snapshot file will be when a save is through, if nobody else writes. -/
def SnapshotDisk.outcome (disk : SnapshotDisk) : SaveStage → Option SnapshotData
  | .idle => disk.file
  | .removing => none
  | .writing data => some data
  | .moving => disk.tmp

section Save

variable {identity : SnapshotIdentity} {timestamp : ℕ} {memory : Table Uuid Base}
  {disk : SnapshotDisk} {stage : SaveStage}

theorem isIdle_iff : stage.isIdle = true ↔ stage = .idle := by
  cases stage <;> simp [SaveStage.isIdle]

/-- A save copies the memory when it begins, and brings about what it is for. -/
theorem reflects_createSnapshot (h : stage = .idle ∨ Reflects memory (disk.outcome stage))
    (hmoving : stage = .moving → disk.tmp.isSome) :
    Reflects memory ((createSnapshot identity timestamp memory disk stage).1.outcome
      (createSnapshot identity timestamp memory disk stage).2) := by
  cases stage with
  | idle =>
    rw [createSnapshot]
    split_ifs with hempty hfile
    · have hnil := List.isEmpty_iff.mp hempty
      exact ⟨by simp [SnapshotDisk.outcome, hnil], nofun⟩
    · have hnil := List.isEmpty_iff.mp hempty
      rw [Option.not_isSome_iff_eq_none] at hfile
      exact ⟨by simp [SnapshotDisk.outcome, hnil, hfile], by simp [SnapshotDisk.outcome, hfile]⟩
    · have hne : memory.entries ≠ [] := fun hnil => hempty (List.isEmpty_iff.mpr hnil)
      exact ⟨by simp [SnapshotDisk.outcome, hne], by simp [SnapshotDisk.outcome]⟩
  | removing => exact h.resolve_left nofun
  | writing data => exact h.resolve_left nofun
  | moving =>
    obtain ⟨data, hdata⟩ := Option.isSome_iff_exists.mp (hmoving rfl)
    have hreflects := h.resolve_left nofun
    rw [SnapshotDisk.outcome, hdata] at hreflects
    rw [createSnapshot, hdata]
    exact hreflects

theorem tmp_of_moving (h : (createSnapshot identity timestamp memory disk stage).2 = .moving) :
    (createSnapshot identity timestamp memory disk stage).1.tmp.isSome := by
  cases stage with
  | idle =>
    rw [createSnapshot] at h
    split_ifs at h
  | removing => cases h
  | writing data => rfl
  | moving =>
    rw [createSnapshot] at h
    split at h <;> cases h

end Save

namespace SnapshotWorld

/-- The save in flight. -/
def active (w : SnapshotWorld) : SaveStage :=
  match w.writeThrough with
  | .idle => w.interval
  | stage => stage

/-- A task begins to save only while the other one does not. -/
def Alone (w : SnapshotWorld) : SnapshotTurn → Prop
  | .writeThrough _ => w.writeThrough = .idle → w.debouncing = true → w.interval = .idle
  | .interval _ => w.interval = .idle → w.writeThrough = .idle
  | _ => True

variable {identity : SnapshotIdentity} {w : SnapshotWorld}

theorem active_of_interval_idle (h : w.interval = .idle) : w.active = w.writeThrough := by
  unfold active
  split
  · rename_i hidle
    rw [h, hidle]
  · rfl

theorem active_of_writeThrough_idle (h : w.writeThrough = .idle) : w.active = w.interval := by
  rw [active, h]

/-- At most one save is in flight. When it is through, the file reflects the memory, unless a
change is yet to be saved. -/
structure Tracked (w : SnapshotWorld) : Prop where
  single : w.writeThrough = .idle ∨ w.interval = .idle
  awake : w.debouncing = true → w.writeThrough = .idle
  current : w.Pending ∨ Reflects w.memory (w.disk.outcome w.active)
  moving : w.active = .moving → w.disk.tmp.isSome

theorem Tracked.saveWriteThrough (h : w.Tracked) (hother : w.interval = .idle)
    (identity : SnapshotIdentity) (timestamp : ℕ) :
    (w.saveWriteThrough identity timestamp).Tracked := by
  obtain ⟨-, hawake, hcurrent, hmoving⟩ := h
  rw [active_of_interval_idle hother] at hcurrent hmoving
  have hactive : (w.saveWriteThrough identity timestamp).active =
      (w.saveWriteThrough identity timestamp).writeThrough := active_of_interval_idle hother
  refine ⟨.inr hother, nofun, ?_, ?_⟩
  · rw [hactive]
    by_cases hidle : w.writeThrough = .idle
    · exact .inr (reflects_createSnapshot (.inl hidle) hmoving)
    · rcases hcurrent with (hunnotified | hpermit | hdebouncing) | hreflects
      · exact .inl (.inl hunnotified)
      · exact .inl (.inr (.inl hpermit))
      · exact absurd (hawake hdebouncing) hidle
      · exact .inr (reflects_createSnapshot (.inr hreflects) hmoving)
  · rw [hactive]
    exact tmp_of_moving

theorem Tracked.saveInterval (h : w.Tracked) (hother : w.writeThrough = .idle)
    (identity : SnapshotIdentity) (timestamp : ℕ) :
    (w.saveInterval identity timestamp).Tracked := by
  obtain ⟨-, -, hcurrent, hmoving⟩ := h
  rw [active_of_writeThrough_idle hother] at hcurrent hmoving
  have hactive : (w.saveInterval identity timestamp).active =
      (w.saveInterval identity timestamp).interval := active_of_writeThrough_idle hother
  refine ⟨.inl hother, fun _ => hother, ?_, ?_⟩
  · rw [hactive]
    rcases hcurrent with hpending | hreflects
    · exact .inl hpending
    · exact .inr (reflects_createSnapshot (.inr hreflects) hmoving)
  · rw [hactive]
    exact tmp_of_moving

theorem Tracked.step (h : w.Tracked) (turn : SnapshotTurn) (halone : w.Alone turn) :
    (w.step identity turn).Tracked := by
  cases turn with
  | change memory => exact ⟨h.single, h.awake, .inl (.inl rfl), h.moving⟩
  | notify => exact ⟨h.single, h.awake, .inl (.inr (.inl rfl)), h.moving⟩
  | writeThrough timestamp =>
    rw [SnapshotWorld.step]
    split_ifs with hwait hpermit
    · rw [Bool.and_eq_true, isIdle_iff] at hwait
      exact ⟨h.single, fun _ => hwait.1, .inl (.inr (.inr rfl)), h.moving⟩
    · exact h
    · by_cases hidle : w.writeThrough = .idle
      · have hdebouncing : w.debouncing = true := by simpa [isIdle_iff.mpr hidle] using hwait
        exact h.saveWriteThrough (halone hidle hdebouncing) identity timestamp
      · exact h.saveWriteThrough (h.single.resolve_left hidle) identity timestamp
  | interval timestamp =>
    by_cases hidle : w.interval = .idle
    · exact h.saveInterval (halone hidle) identity timestamp
    · exact h.saveInterval (h.single.resolve_right hidle) identity timestamp

/-- In a run in which a task begins to save only while the other one does not, the snapshot file
reflects the memory whenever no save is in flight and no wake is pending. -/
theorem reflects_of_alone (identity : SnapshotIdentity) (w : SnapshotWorld)
    (turns : List SnapshotTurn) (hquiet : w.Quiet) (hstart : Reflects w.memory w.disk.file)
    (hrun : Run.Along (step identity) Alone w turns)
    (hend : (turns.foldl (step identity) w).Quiet) :
    Reflects (turns.foldl (step identity) w).memory (turns.foldl (step identity) w).disk.file := by
  have hactive : w.active = .idle := by
    rw [active_of_writeThrough_idle hquiet.writeThrough, hquiet.interval]
  have htracked : w.Tracked := by
    refine ⟨.inl hquiet.writeThrough, fun _ => hquiet.writeThrough, .inr ?_, ?_⟩
    · rw [hactive]
      exact hstart
    · rw [hactive]
      exact nofun
  have h := Run.invariant_end (fun w turn h halone => h.step turn halone) htracked hrun
  have hcurrent := h.current.resolve_left hend.settled
  rwa [active_of_writeThrough_idle hend.writeThrough, hend.interval] at hcurrent

def oneConn : Table Uuid Base := AList.insert 0 (.new (.mtproto "s") none none 0) ∅

def emptyWorld : SnapshotWorld := ⟨∅, false, false, false, ⟨none, none⟩, .idle, .idle⟩

theorem quiet_emptyWorld : emptyWorld.Quiet := ⟨rfl, rfl, by simp [Pending, emptyWorld]⟩

/-- A change, and the save that it asks for. -/
def savedChange : List SnapshotTurn :=
  [.change oneConn, .notify, .writeThrough 1, .writeThrough 1, .writeThrough 1, .writeThrough 1]

theorem reflects_of_alone_saved :
    Reflects oneConn (savedChange.foldl (step ⟨"h", "e", none⟩) emptyWorld).disk.file := by
  refine reflects_of_alone ⟨"h", "e", none⟩ emptyWorld savedChange quiet_emptyWorld
    ⟨by simp [emptyWorld], nofun⟩ ?_ ?_
  · exact ⟨trivial, trivial, fun _ _ => rfl, fun _ _ => rfl, fun _ _ => rfl, fun _ _ => rfl, trivial⟩
  · refine ⟨rfl, rfl, ?_⟩
    unfold Pending
    decide

/-- The interval task has copied the memory when the connection is deleted. It goes on after the
deletion was saved. -/
def overtaken : List SnapshotTurn :=
  savedChange ++ [.interval 2, .change ∅, .notify, .writeThrough 3, .writeThrough 3,
    .writeThrough 3, .interval 2, .interval 2]

theorem deleted_in_snapshot :
    let w := overtaken.foldl (step ⟨"h", "e", none⟩) emptyWorld
    w.Quiet ∧ w.memory = ∅ ∧ w.disk.file.map SnapshotData.memory = some oneConn := by
  refine ⟨⟨rfl, rfl, ?_⟩, rfl, rfl⟩
  unfold Pending
  decide

end SnapshotWorld

end NodeTasks

end Fcore
