import Fcore.Lib.Interleave
import Fcore.Sync.Threads

/-!
# Whether announcements are kept

Nodes learn about a connection from the last message published for it. A deletion writes
the table and publishes then; a restoration publishes an update first and writes the table
then, and a write that is refused or fails is logged and not taken back.

Both operations are threads here, with a turn for each stretch between two suspension
points; the tasks of a restoration are advanced in any order. While no operation is in
flight, the last message of every connection says what the table says, in every run in
which publishing never fails, the write of an announced restoration takes effect, and
deletions and restorations of one connection do not overlap between their two effects.
-/

namespace Fcore

namespace RestoreTask

def told : RestoreTask → Option Uuid
  | checking connId => some connId
  | restoring connId => some connId
  | _ => none

end RestoreTask

namespace ConnThread

/-- The connections a restoration is about. -/
def conns : ConnThread → List Uuid
  | listed _ _ deleted => deleted.map fun item => item.1
  | reasoned _ _ deleted _ => deleted.map fun item => item.1
  | limited _ _ deleted _ _ => deleted.map fun item => item.1
  | restoring tasks => tasks.filterMap RestoreTask.connId
  | _ => []

def told (c : Uuid) : ConnThread → Bool
  | restoring tasks => tasks.any fun task => decide (task.told = some c)
  | _ => false

def removed (c : Uuid) : ConnThread → Bool
  | pinning connId _ => decide (connId = c)
  | publishing connId _ _ => decide (connId = c)
  | _ => false

end ConnThread

abbrev ConnPool := Pool World ConnThread

namespace World

def announced (c : Uuid) (w : World) : Bool :=
  ((w.bus.filter fun e => decide (e.2.connId = c)).getLast?).any fun e =>
    decide (e.2.action = .create) || decide (e.2.action = .update)

def stored (c : Uuid) (w : World) : Bool :=
  (w.db.connections.lookup c).any fun row => !row.isDeleted

def canRestore (c : Uuid) (w : World) : Bool :=
  !w.dbFails w.calls && (w.db.connections.lookup c).any fun row =>
    !w.db.connRefused c (Db.markConnRestored row)

def Caches (ids : List Uuid) (w : World) : Prop :=
  ∀ id ∈ ids, (w.mem.connections.lookup id).isSome

end World

namespace ConnPool

/-- What keeps announcements true. A row is deleted only while no restoration of the
connection has been announced and not written; a restoration is announced only while no
deletion of the connection has been written and not announced; and the write of a
restoration takes effect. -/
def orderly (p : ConnPool) (turn : ℕ × DateTime × ℕ) : Bool :=
  match p.threads[turn.1]? with
  | some (.deleting connId _ _) =>
    p.shared.dbFails p.shared.calls || p.threads.all fun t => !t.told connId
  | some (.restoring tasks) =>
    match tasks[turn.2.2]? with
    | some (.publishing item) => p.threads.all fun t => !t.removed item.1
    | some (.restoring connId) => p.shared.canRestore connId
    | _ => true
  | _ => true

end ConnPool

structure Standing where
  told : Bool
  removed : Bool
  announced : Bool
  stored : Bool

/-- What a turn can do to a connection. `Told` and `Removed` say whether any operation has
announced and not written it, or deleted and not announced it. -/
inductive Standing.Move (Told Removed : Prop) (s s' : Standing) : Prop
  | stay (h : s' = s)
  | remove (hwritten : ¬ Told) (h : s' = { s with removed := true, stored := false })
  | tellRemoved (hremoved : s.removed = true)
      (h : s' = { s with removed := false, announced := false })
  | tellRestored (hannounced : ¬ Removed) (h : s' = { s with told := true, announced := true })
  | restore (told : Bool) (htold : s.told = true) (h : s' = { s with told := told, stored := true })

namespace ConnThread

def standing (c : Uuid) (t : ConnThread) (w : World) : Standing :=
  ⟨t.told c, t.removed c, w.announced c, w.stored c⟩

variable {c : Uuid} {t u : ConnThread} {w w' : World} {Told Removed : Prop}

theorem standing_eq {told removed announced stored : Bool} (htold : t.told c = told)
    (hremoved : t.removed c = removed) (hannounced : w.announced c = announced)
    (hstored : w.stored c = stored) : t.standing c w = ⟨told, removed, announced, stored⟩ := by
  rw [standing, htold, hremoved, hannounced, hstored]

end ConnThread

namespace World

variable {w : World} {c connId : Uuid}

theorem publish_eq (h : w.publishFails w.calls = false) (topic : Topic) (m : Message) :
    ∃ w', w.publish topic m = (w', .ok ()) ∧ w'.mem = w.mem ∧ w'.db = w.db ∧
      w'.publishFails = w.publishFails ∧
      w'.announced m.connId = (decide (m.action = .create) || decide (m.action = .update)) ∧
        ∀ c, m.connId ≠ c → w'.announced c = w.announced c := by
  refine ⟨{ w.tick with bus := w.bus ++ [(topic, m)] }, ?_, rfl, rfl, rfl, ?_, ?_⟩
  · simp [publish, h]
  · simp [announced]
  · intro c hne
    simp [announced, hne]

theorem stored_delete_self (reason : Option String) {w' : World}
    (h : w'.db = w.db.deleteConnection connId reason) : w'.stored connId = false := by
  rw [stored, h, Db.deleteConnection, AList.lookup_modify_self]
  cases w.db.connections.lookup connId <;> rfl

theorem stored_delete_ne (hne : connId ≠ c) (reason : Option String) {w' : World}
    (h : w'.db = w.db.deleteConnection connId reason) : w'.stored c = w.stored c := by
  rw [stored, h, Db.deleteConnection, AList.lookup_modify_ne hne.symm, stored]

theorem dbCall_restoreConnection (h : w.canRestore connId = true) :
    ∃ w', w.dbCall (Db.restoreConnection connId) = (w', .ok ()) ∧ w'.bus = w.bus ∧
      w'.mem = w.mem ∧ w'.publishFails = w.publishFails ∧ w'.stored connId = true ∧
        ∀ c, connId ≠ c → w'.stored c = w.stored c := by
  simp only [canRestore, Bool.and_eq_true, Bool.not_eq_true', Option.any_eq_true] at h
  obtain ⟨hworks, row, hrow, hfree⟩ := h
  have hok : Db.restoreConnection connId w.db = .ok ({ w.db with
      connections := w.db.connections.modify connId Db.markConnRestored }, ()) := by
    simp [Db.restoreConnection, hrow, hfree]
  refine ⟨_, dbCall_of_ok hworks hok, rfl, rfl, rfl, ?_, fun c hne => ?_⟩
  · simp [stored, hrow, Db.markConnRestored]
  · simp [stored, Ne.symm hne]

end World

namespace ConnPool

open ConnThread

def Told (c : Uuid) (p : ConnPool) : Prop := p.HasThread fun t => t.told c = true

def Removed (c : Uuid) (p : ConnPool) : Prop := p.HasThread fun t => t.removed c = true

/-- The messages and the table agree about a connection, up to what is under way: what is
announced and not written was announced last, and what is deleted and not announced is
deleted in the table. -/
structure Consistent (c : Uuid) (p : ConnPool) : Prop where
  exclusive : p.Told c → ¬ p.Removed c
  told : p.Told c → p.shared.announced c = true
  removed : p.Removed c → p.shared.stored c = false
  settled : ¬ p.Told c → ¬ p.Removed c → p.shared.announced c = p.shared.stored c

variable {p : ConnPool} {c : Uuid} {i : ℕ} {t u : ConnThread}

theorem told_set_iff (ht : p.threads[i]? = some t) (hu : u.told c = t.told c) (w : World) :
    Told c ⟨w, p.threads.set i u⟩ ↔ p.Told c := by
  apply Pool.hasThread_set_iff ht
  rw [hu]

theorem removed_set_iff (ht : p.threads[i]? = some t) (hu : u.removed c = t.removed c)
    (w : World) : Removed c ⟨w, p.threads.set i u⟩ ↔ p.Removed c := by
  apply Pool.hasThread_set_iff ht
  rw [hu]

variable {w : World} {k : ℕ} {tasks : List RestoreTask} {task : RestoreTask}

theorem Consistent.move (h : p.Consistent c) (ht : p.threads[i]? = some t)
    (hmove : Standing.Move (p.Told c) (p.Removed c) (t.standing c p.shared) (u.standing c w)) :
    Consistent c ⟨w, p.threads.set i u⟩ := by
  cases hmove with
  | stay heq =>
    obtain ⟨htold, hremoved, hannounced, hstored⟩ := Standing.mk.inj heq
    constructor
    · rw [told_set_iff ht htold, removed_set_iff ht hremoved]
      exact h.exclusive
    · rw [told_set_iff ht htold, hannounced]
      exact h.told
    · rw [removed_set_iff ht hremoved, hstored]
      exact h.removed
    · rw [told_set_iff ht htold, removed_set_iff ht hremoved, hannounced, hstored]
      exact h.settled
  | remove hwritten heq =>
    obtain ⟨htold, hremoved, hannounced, hstored⟩ := Standing.mk.inj heq
    have hnone : ¬ Told c ⟨w, p.threads.set i u⟩ := by rwa [told_set_iff ht htold]
    exact ⟨fun h' => absurd h' hnone, fun h' => absurd h' hnone, fun _ => hstored,
      fun _ h' => absurd (Pool.hasThread_set_self ht hremoved w) h'⟩
  | tellRemoved hbefore heq =>
    obtain ⟨htold, hremoved, hannounced, hstored⟩ := Standing.mk.inj heq
    have hpending : p.Removed c := ⟨i, t, ht, hbefore⟩
    have hgone := hstored.trans (h.removed hpending)
    have hnone : ¬ Told c ⟨w, p.threads.set i u⟩ := by
      rw [told_set_iff ht htold]
      exact fun h' => h.exclusive h' hpending
    exact ⟨fun h' => absurd h' hnone, fun h' => absurd h' hnone, fun _ => hgone,
      fun _ _ => hannounced.trans hgone.symm⟩
  | tellRestored hfree heq =>
    obtain ⟨htold, hremoved, hannounced, hstored⟩ := Standing.mk.inj heq
    have hnone : ¬ Removed c ⟨w, p.threads.set i u⟩ := by rwa [removed_set_iff ht hremoved]
    exact ⟨fun _ => hnone, fun _ => hannounced, fun h' => absurd h' hnone,
      fun h' => absurd (Pool.hasThread_set_self ht htold w) h'⟩
  | restore told hbefore heq =>
    obtain ⟨-, hremoved, hannounced, hstored⟩ := Standing.mk.inj heq
    have hpending : p.Told c := ⟨i, t, ht, hbefore⟩
    have hlast := hannounced.trans (h.told hpending)
    have hnone : ¬ Removed c ⟨w, p.threads.set i u⟩ := by
      rw [removed_set_iff ht hremoved]
      exact h.exclusive hpending
    exact ⟨fun _ => hnone, fun _ => hlast, fun h' => absurd h' hnone,
      fun _ _ => hlast.trans hstored.symm⟩

/-- The tasks of a restoration are a pool of their own. -/
theorem told_restoring_iff : told c (.restoring tasks) = true ↔
    Pool.HasThread (fun task => task.told = some c) (⟨(), tasks⟩ : Pool Unit RestoreTask) := by
  simp only [told, List.any_eq_true, decide_eq_true_eq, List.mem_iff_getElem?]
  exact ⟨fun ⟨task, ⟨k, hk⟩, h⟩ => ⟨k, task, hk, h⟩, fun ⟨k, task, hk, h⟩ => ⟨task, ⟨k, hk⟩, h⟩⟩

theorem told_set {task' : RestoreTask} (htask : tasks[k]? = some task)
    (h : task'.told = some c ↔ task.told = some c) :
    told c (.restoring (tasks.set k task')) = told c (.restoring tasks) := by
  rw [Bool.eq_iff_iff, told_restoring_iff, told_restoring_iff]
  exact Pool.hasThread_set_iff (p := ⟨(), tasks⟩) htask h ()

theorem told_tasks (c : Uuid) (reasons : Table Uuid (Option String)) (used : ℤ)
    (limit : Option ℤ) (meteredConns : Option (List String))
    (deleted : List (Uuid × Conn × Option Uuid)) :
    told c (ConnThread.tasks reasons used limit meteredConns deleted) = false := by
  simp [ConnThread.tasks, told, RestoreTask.told]

/-- What a turn does: no connection leaves the cache, publishing works as before, the
connections the operation is about next are cached, and every connection makes a move. -/
structure Turn (p : ConnPool) (t : ConnThread) (w : World) (u : ConnThread) : Prop where
  cached : ∀ id, (p.shared.mem.connections.lookup id).isSome → (w.mem.connections.lookup id).isSome
  publishFails : w.publishFails = p.shared.publishFails
  conns : p.shared.Caches u.conns
  move c : Standing.Move (p.Told c) (p.Removed c) (t.standing c p.shared) (u.standing c w)

theorem caches_nil (w : World) : w.Caches [] := by
  intro id hid
  cases hid

theorem caches_tasks {deleted : List (Uuid × Conn × Option Uuid)}
    (h : w.Caches (deleted.map fun item => item.1)) (reasons : Table Uuid (Option String))
    (used : ℤ) (limit : Option ℤ) (meteredConns : Option (List String)) :
    w.Caches (ConnThread.tasks reasons used limit meteredConns deleted).conns := by
  intro id hid
  obtain ⟨task, htask, hconn⟩ := List.mem_filterMap.mp hid
  obtain ⟨item, hitem, rfl⟩ := List.mem_map.mp htask
  cases hconn
  exact h item.1 (List.mem_map_of_mem (List.mem_filter.mp hitem).1)

theorem caches_set {task' : RestoreTask} (h : w.Caches (conns (.restoring tasks)))
    (htask : tasks[k]? = some task)
    (hconn : ∀ id, task'.connId = some id → task.connId = some id) :
    w.Caches (conns (.restoring (tasks.set k task'))) := by
  intro id hid
  obtain ⟨task'', hmem, heq⟩ := List.mem_filterMap.mp hid
  rcases List.mem_or_eq_of_mem_set hmem with hold | rfl
  · exact h id (List.mem_filterMap.mpr ⟨task'', hold, heq⟩)
  · exact h id (List.mem_filterMap.mpr ⟨task, List.mem_of_getElem? htask, hconn id heq⟩)

/-- A turn that neither publishes nor writes. -/
theorem Turn.quiet (hsame : (w.mem, w.bus, w.db, w.publishFails) =
      (p.shared.mem, p.shared.bus, p.shared.db, p.shared.publishFails))
    (htold : ∀ c, u.told c = t.told c) (hremoved : ∀ c, u.removed c = t.removed c)
    (hconns : p.shared.Caches u.conns) : p.Turn t w u := by
  simp only [Prod.mk.injEq] at hsame
  obtain ⟨hmem, hbus, hdb, hpublishFails⟩ := hsame
  refine ⟨fun id h => by rwa [hmem], hpublishFails, hconns, fun c => .stay ?_⟩
  apply standing_eq (htold c) (hremoved c)
  · rw [World.announced, hbus]
    rfl
  · rw [World.stored, hdb]
    rfl

/-- A task goes on. -/
theorem turn_task {now : DateTime} (htask : tasks[k]? = some task)
    (hpublishes : p.shared.publishFails p.shared.calls = false)
    (hcached : p.shared.Caches (conns (.restoring tasks)))
    (hfree : ∀ item, task = .publishing item → ¬ p.Removed item.1)
    (hrestores : ∀ id, task = .restoring id → p.shared.canRestore id = true) :
    p.Turn (.restoring tasks) (task.advance now p.shared).1
      (.restoring (tasks.set k (task.advance now p.shared).2)) := by
  cases task with
  | publishing item =>
    obtain ⟨w', hpublish, hmem, hdb, hfails, hself, hother⟩ := World.publish_eq hpublishes
      (connTopic item.2.1 item.2.2) (item.2.1.asUpdateMessage item.1)
    dsimp only [RestoreTask.advance]
    rw [hpublish]
    have hstored c : w'.stored c = p.shared.stored c := by rw [World.stored, hdb, World.stored]
    refine ⟨fun id h => by rwa [hmem], hfails, caches_set hcached htask fun _ h => h, fun c => ?_⟩
    by_cases hc : item.1 = c
    · subst hc
      refine .tellRestored (hfree item rfl) (standing_eq ?_ rfl hself (hstored item.1))
      rw [told_restoring_iff]
      exact Pool.hasThread_set_self (p := ⟨(), tasks⟩) htask (by rfl) ()
    · refine .stay (standing_eq (told_set htask ?_) rfl (hother c hc) (hstored c))
      simp [RestoreTask.told, hc]
  | checking connId =>
    obtain ⟨conn, hconn⟩ := Option.isSome_iff_exists.mp (hcached connId
      (List.mem_filterMap.mpr ⟨_, List.mem_of_getElem? htask, rfl⟩))
    dsimp only [RestoreTask.advance]
    rw [hconn]
    exact .quiet rfl (fun _ => told_set htask Iff.rfl) (fun _ => rfl)
      (caches_set hcached htask fun _ h => h)
  | restoring connId =>
    obtain ⟨w', hcall, hbus, hmem, hfails, hself, hother⟩ :=
      World.dbCall_restoreConnection (hrestores connId rfl)
    dsimp only [RestoreTask.advance]
    rw [hcall]
    have hannounced c : w'.announced c = p.shared.announced c := by
      rw [World.announced, hbus, World.announced]
    refine ⟨fun id h => by rwa [hmem], hfails, caches_set hcached htask fun _ h => h, fun c => ?_⟩
    by_cases hc : connId = c
    · subst hc
      exact .restore _ (told_restoring_iff.mpr ⟨k, _, htask, rfl⟩)
        (standing_eq rfl rfl (hannounced connId) hself)
    · refine .stay (standing_eq (told_set htask ?_) rfl (hannounced c) (hother c hc))
      simp [RestoreTask.told, hc]
  | marking connId =>
    refine ⟨fun id h => ?_, rfl, caches_set hcached htask fun _ h => (nomatch h),
      fun c => .stay (standing_eq (told_set htask Iff.rfl) rfl rfl rfl)⟩
    rwa [RestoreTask.advance, World.writeMem_mem, Cache.markRestored, AList.lookup_modify,
      Option.isSome_map]
  | done restored =>
    exact .quiet rfl (fun _ => told_set htask Iff.rfl) (fun _ => rfl)
      (caches_set hcached htask fun _ h => h)

theorem turn_advance (hpublishes : ∀ n, p.shared.publishFails n = false)
    (ht : p.threads[i]? = some t) (hcached : p.shared.Caches t.conns) {x : DateTime × ℕ}
    (hturn : p.orderly (i, x) = true) :
    p.Turn t (t.advance x p.shared).1 (t.advance x p.shared).2 := by
  simp only [orderly, ht] at hturn
  cases t with
  | delete connId conn reason =>
    dsimp only [advance]
    split
    · exact .quiet rfl (fun _ => rfl) (fun _ => rfl) (caches_nil _)
    · split <;> exact .quiet rfl (fun _ => rfl) (fun _ => rfl) (caches_nil _)
  | deleting connId conn reason =>
    dsimp only [advance]
    cases hfails : p.shared.dbFails p.shared.calls with
    | true =>
      rw [World.dbExec, World.dbCall_of_fails hfails]
      exact .quiet rfl (fun _ => rfl) (fun _ => rfl) (caches_nil _)
    | false =>
      rw [World.dbExec, World.dbCall_of_ok hfails rfl]
      refine ⟨fun _ h => h, rfl, caches_nil _, fun c => ?_⟩
      by_cases hc : connId = c
      · subst hc
        have hnone : ¬ p.Told connId := by
          rintro ⟨j, t, ht', htold⟩
          have hall : ∀ t ∈ p.threads, t.told connId = false := by simpa [hfails] using hturn
          rw [hall t (List.mem_of_getElem? ht')] at htold
          cases htold
        refine .remove hnone (standing_eq rfl ?_ rfl (World.stored_delete_self reason rfl))
        simp [removed]
      · refine .stay (standing_eq rfl ?_ rfl (World.stored_delete_ne hc reason rfl))
        simp [removed, hc]
  | pinning connId conn => exact .quiet rfl (fun _ => rfl) (fun _ => rfl) (caches_nil _)
  | publishing connId conn pin =>
    obtain ⟨w', hpublish, hmem, hdb, hfails, hself, hother⟩ := World.publish_eq
      (hpublishes p.shared.calls) (connTopic conn pin) (conn.asDeleteMessage connId)
    dsimp only [advance]
    rw [hpublish]
    have hstored c : w'.stored c = p.shared.stored c := by rw [World.stored, hdb, World.stored]
    refine ⟨fun id h => by rwa [hmem], hfails, caches_nil _, fun c => ?_⟩
    by_cases hc : connId = c
    · subst hc
      refine .tellRemoved ?_ (standing_eq rfl rfl hself (hstored connId))
      simp [standing, removed]
    · refine .stay (standing_eq rfl ?_ (hother c hc) (hstored c))
      simp [removed, hc]
  | marking connId =>
    refine ⟨fun id h => ?_, rfl, caches_nil _, fun c => .stay rfl⟩
    rwa [advance, World.writeMem_mem, Cache.markDeleted, AList.lookup_modify, Option.isSome_map]
  | restore subId meteredConns =>
    dsimp only [advance]
    split
    · exact .quiet rfl (fun _ => rfl) (fun _ => rfl) (caches_nil _)
    · refine .quiet rfl (fun _ => rfl) (fun _ => rfl) fun id hid => ?_
      obtain ⟨item, hitem, rfl⟩ := List.mem_map.mp hid
      rw [(World.mem_deletedConns.mp hitem).1]
      rfl
  | listed subId meteredConns deleted =>
    dsimp only [advance]
    rcases World.dbRead_eq (Db.deletedReasonsForSubscription subId) p.shared with hread | hread
    · rw [hread]
      exact .quiet rfl (fun _ => rfl) (fun _ => rfl) hcached
    · rw [hread]
      exact .quiet rfl (fun _ => rfl) (fun _ => rfl) (caches_nil _)
  | reasoned subId meteredConns deleted reasons =>
    dsimp only [advance]
    split
    · exact .quiet rfl (fun _ => rfl) (fun _ => rfl) hcached
    · exact .quiet rfl (fun c => told_tasks c ..) (fun _ => rfl) (caches_tasks hcached _ _ _ _)
  | limited subId meteredConns deleted reasons limit =>
    dsimp only [advance, World.usedBytes]
    rcases World.dbRead_eq (fun db => (db.totalForSubscription subId).1 +
      (db.totalForSubscription subId).2) p.shared with hread | hread
    · rw [hread]
      exact .quiet rfl (fun c => told_tasks c ..) (fun _ => rfl) (caches_tasks hcached _ _ _ _)
    · rw [hread]
      exact .quiet rfl (fun _ => rfl) (fun _ => rfl) (caches_nil _)
  | restoring tasks =>
    dsimp only [advance]
    cases htask : tasks[x.2]? with
    | none => exact .quiet rfl (fun _ => rfl) (fun _ => rfl) hcached
    | some task =>
      simp only [htask] at hturn
      apply turn_task htask (hpublishes p.shared.calls) hcached
      · rintro item rfl ⟨j, t, ht', hremoved⟩
        have hall : ∀ t ∈ p.threads, t.removed item.1 = false := by simpa using hturn
        rw [hall t (List.mem_of_getElem? ht')] at hremoved
        cases hremoved
      · rintro id rfl
        exact hturn
  | done => exact .quiet rfl (fun _ => rfl) (fun _ => rfl) (caches_nil _)

/-- Publishing works, restorations are about cached connections, and every connection is
consistent. -/
structure Inv (p : ConnPool) : Prop where
  publishes : ∀ n, p.shared.publishFails n = false
  cached : ∀ (i : ℕ) t, p.threads[i]? = some t → p.shared.Caches t.conns
  consistent : ∀ c, p.Consistent c

theorem Inv.step (h : p.Inv) {turn : ℕ × DateTime × ℕ} (hturn : p.orderly turn = true) :
    Inv (p.step ConnThread.advance turn) := by
  refine Pool.step_keeps h fun t ht => ?_
  have hgoes := turn_advance h.publishes ht (h.cached turn.1 t ht) hturn
  refine ⟨?_, ?_, fun c => (h.consistent c).move ht (hgoes.move c)⟩
  · intro n
    exact (congrFun hgoes.publishFails n).trans (h.publishes n)
  · intro j t' ht' id hid
    apply hgoes.cached
    rcases Pool.eq_or_of_getElem?_set ht' with ⟨-, rfl⟩ | ⟨-, hold⟩
    · exact hgoes.conns id hid
    · exact h.cached j t' hold id hid

def quiet (p : ConnPool) : Bool := p.threads.all fun t => !t.inFlight

theorem idle_of_not_inFlight {t : ConnThread} (h : t.inFlight = false) :
    (∀ c, t.told c = false) ∧ (∀ c, t.removed c = false) ∧ t.conns = [] := by
  cases t with
  | restoring tasks =>
    have hdone : ∀ task ∈ tasks, task.connId = none := by simpa [ConnThread.inFlight] using h
    refine ⟨fun c => ?_, fun _ => rfl, ?_⟩
    · apply Bool.eq_false_iff.mpr
      intro htold
      obtain ⟨task, htask, htold⟩ := List.any_eq_true.mp htold
      have hnone := hdone task htask
      cases task with
      | done restored => simp [RestoreTask.told] at htold
      | _ => cases hnone
    · exact List.filterMap_eq_nil_iff.mpr hdone
  | delete connId conn reason => exact ⟨fun _ => rfl, fun _ => rfl, rfl⟩
  | restore subId meteredConns => exact ⟨fun _ => rfl, fun _ => rfl, rfl⟩
  | done => exact ⟨fun _ => rfl, fun _ => rfl, rfl⟩
  | _ => cases h

theorem idle_of_quiet (h : p.quiet = true) {i : ℕ} {t : ConnThread}
    (ht : p.threads[i]? = some t) :
    (∀ c, t.told c = false) ∧ (∀ c, t.removed c = false) ∧ t.conns = [] := by
  apply idle_of_not_inFlight
  have hall := List.all_eq_true.mp h t (List.mem_of_getElem? ht)
  simpa using hall

theorem not_told_of_quiet (h : p.quiet = true) (c : Uuid) : ¬ p.Told c := by
  rintro ⟨i, t, ht, htold⟩
  rw [(idle_of_quiet h ht).1 c] at htold
  cases htold

theorem not_removed_of_quiet (h : p.quiet = true) (c : Uuid) : ¬ p.Removed c := by
  rintro ⟨i, t, ht, hremoved⟩
  rw [(idle_of_quiet h ht).2.1 c] at hremoved
  cases hremoved

theorem Inv.start (hquiet : p.quiet = true) (hpublishes : ∀ n, p.shared.publishFails n = false)
    (hagrees : ∀ c, p.shared.announced c = p.shared.stored c) : p.Inv where
  publishes := hpublishes
  cached i t ht := by
    rw [(idle_of_quiet hquiet ht).2.2]
    exact caches_nil p.shared
  consistent c :=
    { exclusive := fun h => absurd h (not_told_of_quiet hquiet c)
      told := fun h => absurd h (not_told_of_quiet hquiet c)
      removed := fun h => absurd h (not_removed_of_quiet hquiet c)
      settled := fun _ _ => hagrees c }

end ConnPool

/-- In every orderly run of deletions and restorations in which publishing never fails, from
a state in which the messages and the table agree: whenever no operation is in flight, the
last message published for a connection is a create or an update exactly if the connection
is live in the table. -/
theorem announced_iff_stored {p : ConnPool} {turns : List (ℕ × DateTime × ℕ)}
    (hquiet : p.quiet = true) (hpublishes : ∀ n, p.shared.publishFails n = false)
    (hagrees : ∀ c, p.shared.announced c = p.shared.stored c)
    (horderly : Run.Along (Pool.step ConnThread.advance)
      (fun p turn => ConnPool.orderly p turn = true) p turns) :
    ∀ p' ∈ turns.scanl (Pool.step ConnThread.advance) p, ConnPool.quiet p' = true →
      ∀ c, p'.shared.announced c = true ↔ p'.shared.stored c = true := by
  intro p' hp' hquiet' c
  have hinv := Run.invariant_scanl (I := fun p : ConnPool => p.Inv)
    (fun _ _ h hturn => h.step hturn) (.start hquiet hpublishes hagrees) horderly p' hp'
  rw [(hinv.consistent c).settled (ConnPool.not_told_of_quiet hquiet' c)
    (ConnPool.not_removed_of_quiet hquiet' c)]

section Runs

def vmessConn : Conn := Conn.new .production (some 1) (.xray .vmess) none 0

def expiredRow : ConnRow :=
  Db.markConnDeleted (some DeleteReason.expired) (.ofConn vmessConn)

/-- A connection that was deleted when its subscription expired. -/
def expiredWorld : World where
  mem := { Cache.empty with connections := AList.insert 5 { vmessConn with isDeleted := true } ∅ }
  db := { Db.empty with connections := AList.insert 5 expiredRow ∅ }
  bus := [(.updates .production, vmessConn.asCreateMessage 5),
    (.updates .production, vmessConn.asDeleteMessage 5)]
  dbFails _ := false
  publishFails _ := false
  calls := 0

/-- Another one of the same protocol was created since. -/
def replacedWorld : World where
  mem := { expiredWorld.mem with
    connections := AList.insert 6 vmessConn expiredWorld.mem.connections }
  db := { expiredWorld.db with
    connections := AList.insert 6 (.ofConn vmessConn) expiredWorld.db.connections }
  bus := expiredWorld.bus ++ [(.updates .production, vmessConn.asCreateMessage 6)]
  dbFails _ := false
  publishFails _ := false
  calls := 0

theorem World.agrees_of_ids {w : World} (ids : List Uuid)
    (hbus : (w.bus.all fun e => decide (e.2.connId ∈ ids)) = true)
    (hrows : (w.db.connections.keys.all fun id => decide (id ∈ ids)) = true)
    (hids : (ids.all fun c => w.announced c == w.stored c) = true) (c : Uuid) :
    w.announced c = w.stored c := by
  simp only [List.all_eq_true, decide_eq_true_eq, beq_iff_eq] at hbus hrows hids
  by_cases hc : c ∈ ids
  · exact hids c hc
  · have hsilent : (w.bus.filter fun e => decide (e.2.connId = c)) = [] := by
      rw [List.filter_eq_nil_iff]
      intro e he heq
      exact hc (of_decide_eq_true heq ▸ hbus e he)
    have hnone : w.db.connections.lookup c = none :=
      AList.lookup_eq_none.mpr fun hkey => hc (hrows c hkey)
    rw [announced, hsilent, stored, hnone]
    rfl

theorem expiredWorld_agrees (c : Uuid) : expiredWorld.announced c = expiredWorld.stored c :=
  World.agrees_of_ids [5] (by decide +kernel) (by decide +kernel) (by decide +kernel) c

theorem replacedWorld_agrees (c : Uuid) : replacedWorld.announced c = replacedWorld.stored c :=
  World.agrees_of_ids [5, 6] (by decide +kernel) (by decide +kernel) (by decide +kernel) c

def renewalTurns : List (ℕ × DateTime × ℕ) := List.replicate 7 (0, 1, 0)

theorem announced_iff_stored_renewed :
    let p : ConnPool := ⟨expiredWorld, [.restore 1 none]⟩
    p.quiet = true ∧ ∀ p' ∈ renewalTurns.scanl (Pool.step ConnThread.advance) p,
      ConnPool.quiet p' = true → ∀ c, p'.shared.announced c = true ↔ p'.shared.stored c = true :=
  ⟨rfl, announced_iff_stored rfl (fun _ => rfl) expiredWorld_agrees (by decide +kernel)⟩

/-- The index on live connections of one protocol refuses the old one, after it was
announced. -/
theorem not_announced_iff_stored :
    let p : ConnPool := ⟨replacedWorld, [.restore 1 none]⟩
    p.quiet = true ∧ (∀ n, p.shared.publishFails n = false) ∧ p.shared.DbReliable ∧
      (∀ c, p.shared.announced c = p.shared.stored c) ∧
      ¬ ∀ p' ∈ renewalTurns.scanl (Pool.step ConnThread.advance) p, ConnPool.quiet p' = true →
        ∀ c, p'.shared.announced c = true ↔ p'.shared.stored c = true := by
  intro p
  refine ⟨rfl, fun _ => rfl, fun _ => rfl, replacedWorld_agrees, fun h => ?_⟩
  obtain ⟨hquiet, hannounced, hstored⟩ :
      ConnPool.quiet (renewalTurns.foldl (Pool.step ConnThread.advance) p) ∧
      (renewalTurns.foldl (Pool.step ConnThread.advance) p).shared.announced 5 = true ∧
      (renewalTurns.foldl (Pool.step ConnThread.advance) p).shared.stored 5 = false := by
    decide +kernel
  have hlive := (h _ (Run.foldl_mem_scanl _ _ _) hquiet 5).mp hannounced
  rw [hstored] at hlive
  cases hlive

end Runs

end Fcore
