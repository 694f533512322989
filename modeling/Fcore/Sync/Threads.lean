import Fcore.Sync.Life

/-!
# Deletions and restorations in stages

A deletion and a restoration wait for the database, for the publisher and for the lock of
the cache, and other operations run while they wait. `ConnThread.advance` takes an operation
from one such point to the next; the tasks of a restoration are advanced in any order. An
operation that is not disturbed can do what the whole function does.
-/

namespace Fcore

/-- One of the tasks of a restoration, and where it waits. -/
inductive RestoreTask where
  /-- for the publisher -/
  | publishing (item : Uuid × Conn × Option Uuid)
  /-- for the lock, to see whether the connection is cached -/
  | checking (connId : Uuid)
  /-- for the row to be written -/
  | restoring (connId : Uuid)
  /-- for the lock, to mark the connection -/
  | marking (connId : Uuid)
  | done (restored : Option Uuid)
  deriving DecidableEq, Repr

/-- An operation on connections, and where it waits. -/
inductive ConnThread where
  | delete (connId : Uuid) (conn : Conn) (reason : Option String)
  /-- a deletion, for the row to be written -/
  | deleting (connId : Uuid) (conn : Conn) (reason : Option String)
  /-- for the lock, to read the pin -/
  | pinning (connId : Uuid) (conn : Conn)
  /-- for the publisher -/
  | publishing (connId : Uuid) (conn : Conn) (pin : Option Uuid)
  /-- for the lock, to mark the connection -/
  | marking (connId : Uuid)
  | restore (subId : Uuid) (meteredConns : Option (List String))
  /-- a restoration, for the reasons of the deleted connections -/
  | listed (subId : Uuid) (meteredConns : Option (List String))
      (deleted : List (Uuid × Conn × Option Uuid))
  /-- for the lock, to read the limit -/
  | reasoned (subId : Uuid) (meteredConns : Option (List String))
      (deleted : List (Uuid × Conn × Option Uuid)) (reasons : Table Uuid (Option String))
  /-- for the traffic of the subscription -/
  | limited (subId : Uuid) (meteredConns : Option (List String))
      (deleted : List (Uuid × Conn × Option Uuid)) (reasons : Table Uuid (Option String))
      (limit : Option ℤ)
  /-- for its tasks -/
  | restoring (tasks : List RestoreTask)
  | done

namespace RestoreTask

/-- From one point of suspension to the next. -/
def advance (now : DateTime) (task : RestoreTask) (w : World) : World × RestoreTask :=
  match task with
  | publishing item =>
    match w.publish (connTopic item.2.1 item.2.2) (item.2.1.asUpdateMessage item.1) with
    | (w, .error _) => (w, done none)
    | (w, .ok ()) => (w, checking item.1)
  | checking connId =>
    match w.mem.connections.lookup connId with
    | none => (w, done none)
    | some _ => (w, restoring connId)
  | restoring connId =>
    match w.dbCall (Db.restoreConnection connId) with
    | (w, .error _) => (w, done none)
    | (w, .ok ()) => (w, marking connId)
  | marking connId => (w.writeMem (Cache.markRestored connId now), done (some connId))
  | done restored => (w, done restored)

def connId : RestoreTask → Option Uuid
  | publishing item => some item.1
  | checking connId => some connId
  | restoring connId => some connId
  | marking connId => some connId
  | done _ => none

end RestoreTask

namespace ConnThread

/-- The tasks of a restoration that knows which connections to revive. -/
def tasks (reasons : Table Uuid (Option String)) (used : ℤ) (limit : Option ℤ)
    (meteredConns : Option (List String)) (deleted : List (Uuid × Conn × Option Uuid)) :
    ConnThread :=
  restoring ((World.toRestore reasons used limit meteredConns deleted).map .publishing)

/-- From one point of suspension to the next. For a restoration with tasks, the turn says
which of them goes on. -/
def advance (turn : DateTime × ℕ) (thread : ConnThread) (w : World) : World × ConnThread :=
  match thread with
  | delete connId conn reason =>
    match w.mem.connections.lookup connId with
    | none => (w, done)
    | some existing => if existing.isDeleted then (w, done) else (w, deleting connId conn reason)
  | deleting connId conn reason =>
    match w.dbExec (Db.deleteConnection connId reason) with
    | (w, .error _) => (w, done)
    | (w, .ok ()) => (w, pinning connId conn)
  | pinning connId conn => (w, publishing connId conn (w.mem.connNodes.lookup connId))
  | publishing connId conn pin =>
    match w.publish (connTopic conn pin) (conn.asDeleteMessage connId) with
    | (w, .error _) => (w, done)
    | (w, .ok ()) => (w, marking connId)
  | marking connId => (w.writeMem (Cache.markDeleted connId turn.1), done)
  | restore subId meteredConns =>
    let deleted := w.mem.deletedConns subId
    if deleted.isEmpty then (w, done) else (w, listed subId meteredConns deleted)
  | listed subId meteredConns deleted =>
    match w.dbRead (Db.deletedReasonsForSubscription subId) with
    | (w, .error _) => (w, done)
    | (w, .ok reasons) => (w, reasoned subId meteredConns deleted reasons)
  | reasoned subId meteredConns deleted reasons =>
    let limit := w.mem.limitBytes subId
    let needed := deleted.any fun item =>
      decide (World.reasonIn reasons item.1 = some DeleteReason.trafficExhausted)
    if needed then (w, limited subId meteredConns deleted reasons limit)
    else (w, tasks reasons 0 limit meteredConns deleted)
  | limited subId meteredConns deleted reasons limit =>
    match w.usedBytes subId true with
    | (w, .error _) => (w, done)
    | (w, .ok used) => (w, tasks reasons used limit meteredConns deleted)
  | restoring tasks =>
    match tasks[turn.2]? with
    | none => (w, restoring tasks)
    | some task =>
      let r := task.advance turn.1 w
      (r.1, restoring (tasks.set turn.2 r.2))
  | done => (w, done)

def inFlight : ConnThread → Bool
  | delete .. => false
  | restore .. => false
  | restoring tasks => tasks.any fun task => task.connId.isSome
  | done => false
  | _ => true

end ConnThread

section Alone

open Relation

/-- A turn of a task without others in between. -/
def RestoreTask.Alone (now : DateTime) (s s' : World × RestoreTask) : Prop :=
  s' = s.2.advance now s.1

/-- A turn of an operation without others in between. -/
def ConnThread.Alone (now : DateTime) (s s' : World × ConnThread) : Prop :=
  ∃ k, s' = s.2.advance (now, k) s.1

/-- Without others in between, the operation can come to an end with the given state. -/
def ConnThread.Ends (now : DateTime) (s : World × ConnThread) (w : World) : Prop :=
  ∃ thread : ConnThread, thread.inFlight = false ∧
    ReflTransGen (ConnThread.Alone now) s (w, thread)

theorem RestoreTask.alone_next {now : DateTime} {task : RestoreTask} {w : World}
    {s : World × RestoreTask} (h : ReflTransGen (RestoreTask.Alone now) (task.advance now w) s) :
    ReflTransGen (RestoreTask.Alone now) (w, task) s := .head rfl h

/-- A task does what `restoreOne` does. -/
theorem RestoreTask.alone_restoreOne (now : DateTime) (item : Uuid × Conn × Option Uuid)
    (w : World) :
    ReflTransGen (RestoreTask.Alone now) (w, .publishing item)
      ((w.restoreOne now item).1, .done (w.restoreOne now item).2) := by
  apply RestoreTask.alone_next
  dsimp only [World.restoreOne, advance]
  rcases w.publish (connTopic item.2.1 item.2.2) (item.2.1.asUpdateMessage item.1) with ⟨w', e | _⟩
  · exact .refl
  · apply RestoreTask.alone_next
    dsimp only [advance, World.restoreConnection]
    cases w'.mem.connections.lookup item.1 with
    | none => exact .refl
    | some conn =>
      apply RestoreTask.alone_next
      dsimp only [advance]
      rcases w'.dbCall (Db.restoreConnection item.1) with ⟨w'', e | _⟩
      · exact .refl
      · exact RestoreTask.alone_next .refl

namespace ConnThread

variable {now : DateTime}

theorem Ends.next {thread : ConnThread} {w w' : World}
    (h : Ends now (thread.advance (now, 0) w) w') : Ends now (w, thread) w' := by
  obtain ⟨ended, hended, hrun⟩ := h
  exact ⟨ended, hended, .head ⟨0, rfl⟩ hrun⟩

theorem Ends.done (now : DateTime) (w : World) : Ends now (w, .done) w := ⟨.done, rfl, .refl⟩

/-- A task goes on at its place. -/
theorem alone_task {s s' : World × RestoreTask} (h : ReflTransGen (RestoreTask.Alone now) s s')
    (before after : List RestoreTask) :
    ReflTransGen (Alone now) (s.1, .restoring (before ++ s.2 :: after))
      (s'.1, .restoring (before ++ s'.2 :: after)) := by
  induction h with
  | refl => exact .refl
  | tail _ hstep ih =>
    apply ih.tail
    rw [RestoreTask.Alone] at hstep
    subst hstep
    exact ⟨before.length, by simp [advance]⟩

/-- The tasks one after the other do what `restoreAll` does. -/
theorem alone_restoreAll (now : DateTime) (items : List (Uuid × Conn × Option Uuid))
    (before : List RestoreTask) (w : World) :
    ∃ after, (∀ task ∈ after, task.connId = none) ∧
      ReflTransGen (Alone now) (w, .restoring (before ++ items.map .publishing))
        ((World.restoreAll now items w).1, .restoring (before ++ after)) := by
  induction items generalizing before w with
  | nil => exact ⟨[], by simp, .refl⟩
  | cons item items ih =>
    have hfirst := alone_task (RestoreTask.alone_restoreOne now item w) before
      (items.map .publishing)
    obtain ⟨after, hafter, hrest⟩ := ih (before ++ [.done (w.restoreOne now item).2])
      (w.restoreOne now item).1
    refine ⟨.done (w.restoreOne now item).2 :: after, ?_, ?_⟩
    · simpa [RestoreTask.connId] using hafter
    · rw [List.append_assoc, List.append_assoc] at hrest
      exact hfirst.trans hrest

theorem Ends.tasks (now : DateTime) (reasons : Table Uuid (Option String)) (used : ℤ)
    (limit : Option ℤ) (meteredConns : Option (List String))
    (deleted : List (Uuid × Conn × Option Uuid)) (w : World) :
    Ends now (w, ConnThread.tasks reasons used limit meteredConns deleted)
      (World.restoreAll now (World.toRestore reasons used limit meteredConns deleted) w).1 := by
  obtain ⟨after, hafter, hrun⟩ := alone_restoreAll now
    (World.toRestore reasons used limit meteredConns deleted) [] w
  exact ⟨.restoring after, by simpa [inFlight] using hafter, hrun⟩

/-- An operation that is not disturbed does what `deleteConnection` does. -/
theorem ends_deleteConnection (connId : Uuid) (conn : Conn) (reason : Option String)
    (now : DateTime) (w : World) :
    Ends now (w, .delete connId conn reason) (w.deleteConnection connId conn reason now).1 := by
  apply Ends.next
  dsimp only [World.deleteConnection, advance]
  cases w.mem.connections.lookup connId with
  | none => exact .done now w
  | some existing =>
    dsimp only
    split
    · exact .done now w
    apply Ends.next
    dsimp only [advance]
    rcases w.dbExec (Db.deleteConnection connId reason) with ⟨w', e | _⟩
    · exact .done now w'
    apply Ends.next
    apply Ends.next
    dsimp only [advance, World.andThen, World.publishConnDelete]
    rcases w'.publish (connTopic conn (w'.mem.connNodes.lookup connId))
      (conn.asDeleteMessage connId) with ⟨w'', e | _⟩
    · exact .done now w''
    · exact .next (.done now _)

/-- An operation that is not disturbed does what `restoreConnectionsBySubscription` does. -/
theorem ends_restoreConnectionsBySubscription (subId : Uuid) (meteredConns : Option (List String))
    (now : DateTime) (w : World) :
    Ends now (w, .restore subId meteredConns)
      (w.restoreConnectionsBySubscription subId meteredConns now).1 := by
  apply Ends.next
  dsimp only [World.restoreConnectionsBySubscription, advance]
  split
  · exact .done now w
  apply Ends.next
  dsimp only [advance]
  rcases w.dbRead (Db.deletedReasonsForSubscription subId) with ⟨w', e | reasons⟩
  · exact .done now w'
  apply Ends.next
  dsimp only [advance, World.andThen]
  split
  · rename_i hneeded
    rw [hneeded]
    apply Ends.next
    dsimp only [advance]
    have hmem : (w'.usedBytes subId true).1.mem = w'.mem := by simp [World.usedBytes]
    rcases hused : w'.usedBytes subId true with ⟨w'', e | used⟩
    · exact .done now w''
    · rw [hused] at hmem
      rw [← hmem]
      exact .tasks ..
  · rename_i hneeded
    rw [Bool.eq_false_iff.mpr hneeded]
    exact .tasks ..

end ConnThread

end Alone

end Fcore
