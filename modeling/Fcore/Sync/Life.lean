import Fcore.Sync.Connection

/-!
# The life of a connection

What the life-cycle results see of a connection: whether it is deleted and whose
it is, in the cache and in the table, and the stored reason. Every operation of
the api is described by what it can do to the life of an arbitrary connection,
and `LifeStep` lists all that can happen: a connection is added, deleted in the
table alone, deleted in both places, or restored. A restoration needs a stored
reason that allows it.
-/

namespace Fcore

structure CachedLife where
  isDeleted : Bool
  subscriptionId : Option Uuid
  deriving DecidableEq, Repr

structure StoredLife where
  isDeleted : Bool
  deletedReason : Option String
  subscriptionId : Option Uuid
  deriving DecidableEq, Repr

structure Life where
  cached : Option CachedLife
  stored : Option StoredLife
  deriving DecidableEq, Repr

def Conn.life (conn : Conn) : CachedLife := ⟨conn.isDeleted, conn.subscriptionId⟩

def ConnRow.life (row : ConnRow) : StoredLife :=
  ⟨row.isDeleted, row.deletedReason, row.subscriptionId⟩

namespace Life

def deleteCached (life : CachedLife) : CachedLife := { life with isDeleted := true }

def deleteStored (reason : Option String) (life : StoredLife) : StoredLife :=
  { life with isDeleted := true, deletedReason := reason }

/-- Deleted in the table, while the cache still has the connection as live. -/
def deletedInTable (reason : Option String) (l : Life) : Life :=
  { l with stored := l.stored.map (deleteStored reason) }

def deleted (reason : Option String) (l : Life) : Life :=
  ⟨l.cached.map deleteCached, l.stored.map (deleteStored reason)⟩

def restored (l : Life) : Life :=
  ⟨l.cached.map fun life => { life with isDeleted := false },
    l.stored.map fun life => { life with isDeleted := false, deletedReason := none }⟩

def reason (l : Life) (subId : Uuid) : Option String :=
  (l.stored.filter fun life => decide (life.subscriptionId = some subId) && life.isDeleted).bind
    StoredLife.deletedReason

def IsLive (l : Life) : Prop :=
  l.cached.any (fun life => !life.isDeleted) = true ∨
    l.stored.any (fun life => !life.isDeleted) = true

@[simp] theorem restored_restored (l : Life) : l.restored.restored = l.restored := by
  cases l with
  | mk cached stored => cases cached <;> cases stored <;> rfl

end Life

/-- All that can happen to the life of a connection. -/
inductive LifeStep : Life → Life → Prop
  | add (l : Life) (conn : CachedLife) (hnew : l.stored = none) :
      LifeStep l ⟨some (l.cached.getD conn), some ⟨conn.isDeleted, none, conn.subscriptionId⟩⟩
  | deleteInTable (l : Life) (reason : Option String) (owner : Option Uuid)
      (hlive : l.cached = some ⟨false, owner⟩) : LifeStep l (l.deletedInTable reason)
  | delete (l : Life) (reason : Option String) (owner : Option Uuid)
      (hlive : l.cached = some ⟨false, owner⟩) : LifeStep l (l.deleted reason)
  | restore (l : Life) (subId : Uuid) (used : ℤ) (limit : Option ℤ)
      (hdeleted : l.cached = some ⟨true, some subId⟩)
      (hreason : connectionRestorable (l.reason subId) used limit = true) : LifeStep l l.restored

abbrev LifeSteps : Life → Life → Prop := Relation.ReflTransGen LifeStep

namespace Life

/-- The table knows every cached connection, with its owner, and has the deleted
ones as deleted. -/
def Coherent (l : Life) : Prop :=
  ∀ conn, l.cached = some conn → ∃ row, l.stored = some row ∧
    row.subscriptionId = conn.subscriptionId ∧ (conn.isDeleted = true → row.isDeleted = true)

theorem Coherent.step {l l' : Life} (h : l.Coherent) (hstep : LifeStep l l') : l'.Coherent := by
  intro conn hconn
  cases hstep with
  | add conn' hnew =>
    have hcached : l.cached = none := by
      cases hcached : l.cached with
      | none => rfl
      | some old =>
        obtain ⟨row, hrow, -⟩ := h old hcached
        rw [hnew] at hrow
        cases hrow
    rw [hcached] at hconn
    cases hconn
    exact ⟨_, rfl, rfl, id⟩
  | deleteInTable reason owner hlive =>
    obtain ⟨row, hrow, howner, -⟩ := h conn hconn
    exact ⟨deleteStored reason row, by simp [deletedInTable, hrow], howner, fun _ => rfl⟩
  | delete reason owner hlive =>
    obtain ⟨row, hrow, howner, -⟩ := h _ hlive
    have hconn' : deleteCached ⟨false, owner⟩ = conn := by simpa [deleted, hlive] using hconn
    exact ⟨deleteStored reason row, by simp [deleted, hrow], by rw [← hconn']; exact howner,
      fun _ => rfl⟩
  | restore subId used limit hdeleted hreason =>
    obtain ⟨row, hrow, howner, -⟩ := h _ hdeleted
    have hconn' : ⟨false, some subId⟩ = conn := by simpa [restored, hdeleted] using hconn
    subst hconn'
    exact ⟨⟨false, none, row.subscriptionId⟩, by simp [restored, hrow], howner,
      fun hdel => by cases hdel⟩

theorem Coherent.steps {l l' : Life} (h : l.Coherent) (hsteps : LifeSteps l l') : l'.Coherent := by
  induction hsteps with
  | refl => exact h
  | tail _ hstep ih => exact ih.step hstep

end Life

namespace World

def life (w : World) (connId : Uuid) : Life :=
  ⟨(w.mem.connections.lookup connId).map Conn.life,
    (w.db.connections.lookup connId).map ConnRow.life⟩

variable {w' : World}

theorem life_congr {w : World} (hmem : w'.mem.connections = w.mem.connections)
    (hdb : w'.db.connections = w.db.connections) (connId : Uuid) :
    w'.life connId = w.life connId := by
  rw [life, life, hmem, hdb]

def LivesFollow (w w' : World) : Prop := ∀ connId, LifeSteps (w.life connId) (w'.life connId)

theorem LivesFollow.refl (w : World) : LivesFollow w w := fun _ => .refl

theorem LivesFollow.trans {w w'' : World} (h : LivesFollow w w') (h' : LivesFollow w' w'') :
    LivesFollow w w'' := fun connId => (h connId).trans (h' connId)

theorem LivesFollow.of_eq {w : World} (h : ∀ connId, w'.life connId = w.life connId) :
    LivesFollow w w' := fun connId => by rw [h connId]

def LivesCoherent (w : World) : Prop := ∀ c, (w.life c).Coherent

theorem livesCoherent_init (dbFails publishFails : ℕ → Bool) :
    (init dbFails publishFails).LivesCoherent := by
  intro c conn hconn
  cases hconn

theorem LivesCoherent.of_follow {w : World} (h : w.LivesCoherent) (hfollow : LivesFollow w w') :
    w'.LivesCoherent := fun c => (h c).steps (hfollow c)

theorem LivesFollow.andThen {α β : Type*} {w : World} {r : World × Except SyncError α}
    {k : World → α → World × Except SyncError β} (hr : LivesFollow w r.1)
    (hk : ∀ a, LivesFollow r.1 (k r.1 a).1) : LivesFollow w (andThen r k).1 :=
  andThen_rel (R := LivesFollow) (fun _ _ _ h h' => h.trans h') hr hk

theorem LivesFollow.dbCall {α : Type*} {f : Db → Except SyncError (Db × α)} {w : World}
    (hf : ∀ db a, f w.db = .ok (db, a) → db.connections = w.db.connections) :
    LivesFollow w (w.dbCall f).1 :=
  .of_eq (life_congr (by rw [dbCall_mem])
    (dbCall_rel (R := fun db db' => db'.connections = db.connections) rfl hf))

theorem LivesFollow.writeMem {f : Cache → Cache} {w : World}
    (hf : (f w.mem).connections = w.mem.connections) : LivesFollow w (w.writeMem f) :=
  .of_eq (life_congr hf rfl)

section Add

theorem lookup_addConn (connId : Uuid) (conn : Conn) (label : Option String)
    (nodeId : Option Uuid) (includeInMain : Bool) (mem : Cache) (c : Uuid) :
    (mem.addConn connId conn label nodeId includeInMain).connections.lookup c =
      if c = connId then some ((mem.connections.lookup connId).getD conn)
      else mem.connections.lookup c := by
  simp only [Cache.addConn]
  split
  · rename_i old hold
    split
    · rename_i hc
      rw [hc, hold, Option.getD_some]
    · rfl
  · rename_i hnone
    rw [AList.lookup_insert_eq_ite, hnone]
    rfl

theorem LivesFollow.addConn (connId : Uuid) (conn : Conn) (label : Option String)
    (nodeId : Option Uuid) (issuedVia : Option String) (includeInMain : Bool) (w : World) :
    LivesFollow w (w.addConn connId conn label nodeId issuedVia includeInMain).1 := by
  rcases addConn_eq connId conn w label nodeId issuedVia includeInMain with
    ⟨e, h⟩ | ⟨db, hinsert, h⟩
  · rw [h]
    exact .of_eq fun _ => rfl
  · rw [h]
    obtain ⟨hnew, rfl⟩ := insertConnection_cases hinsert
    intro c
    by_cases hc : c = connId
    · subst hc
      have hstep := LifeStep.add (w.life c) conn.life (by simp [life, hnew])
      convert Relation.ReflTransGen.single hstep using 1
      simp only [life, lookup_addConn, if_true, AList.lookup_insert, Option.map_some]
      cases w.mem.connections.lookup c <;> rfl
    · simp only [life, lookup_addConn, if_neg hc, AList.lookup_insert_ne hc]
      exact .refl

end Add

section Delete

variable {connId : Uuid} {conn : Conn} {reason : Option String} {now : DateTime} {w : World}

theorem cached_of_live {existing : Conn} (hlookup : w.mem.connections.lookup connId = some existing)
    (hlive : existing.isDeleted = false) :
    ∃ owner, (w.life connId).cached = some ⟨false, owner⟩ :=
  ⟨existing.subscriptionId, by rw [life, hlookup, Option.map_some, Conn.life, hlive]⟩

theorem life_of_deleted (hmem : w'.mem = w.mem.markDeleted connId now)
    (hdb : w'.db = w.db.deleteConnection connId reason) :
    w'.life connId = (w.life connId).deleted reason := by
  simp only [life, hmem, hdb, Cache.markDeleted, Db.deleteConnection, AList.lookup_modify_self,
    Life.deleted, Option.map_map]
  rfl

theorem life_of_deletedInTable (hmem : w'.mem = w.mem)
    (hdb : w'.db = w.db.deleteConnection connId reason) :
    w'.life connId = (w.life connId).deletedInTable reason := by
  simp only [life, hmem, hdb, Db.deleteConnection, AList.lookup_modify_self, Life.deletedInTable,
    Option.map_map]
  rfl

/-- The life of a connection after a deletion. Only the named connection is
affected, and only while the cache has it as live. -/
theorem life_deleteConnection (connId : Uuid) (conn : Conn) (reason : Option String)
    (now : DateTime) (w : World) (c : Uuid) :
    (w.deleteConnection connId conn reason now).1.life c = w.life c ∨
      c = connId ∧ (∃ owner, (w.life c).cached = some ⟨false, owner⟩) ∧
        ((w.deleteConnection connId conn reason now).1.life c = (w.life c).deletedInTable reason ∨
          (w.deleteConnection connId conn reason now).1.life c = (w.life c).deleted reason) := by
  by_cases hc : c = connId
  · subst hc
    rcases deleteConnection_eq c conn reason now w with
      ⟨-, status, -, h⟩ | ⟨⟨existing, hlookup, hlive⟩, ⟨e, h⟩ | ⟨e, h⟩ | h⟩ <;> rw [h]
    · exact .inl rfl
    · exact .inl rfl
    · exact .inr ⟨rfl, cached_of_live hlookup hlive, .inl (life_of_deletedInTable rfl rfl)⟩
    · exact .inr ⟨rfl, cached_of_live hlookup hlive, .inr (life_of_deleted rfl rfl)⟩
  · refine .inl ?_
    rcases deleteConnection_eq connId conn reason now w with
      ⟨-, status, -, h⟩ | ⟨-, ⟨e, h⟩ | ⟨e, h⟩ | h⟩ <;> rw [h]
    · rfl
    · simp [life, Db.deleteConnection, AList.lookup_modify_ne hc]
    · simp [life, Db.deleteConnection, Cache.markDeleted, AList.lookup_modify_ne hc]

theorem life_deleteConnection_of_ok {status : Status} {owner : Option Uuid}
    (hlive : (w.life connId).cached = some ⟨false, owner⟩)
    (hok : (w.deleteConnection connId conn reason now).2 = .ok status) :
    (w.deleteConnection connId conn reason now).1.life connId =
      (w.life connId).deleted reason := by
  rcases deleteConnection_eq connId conn reason now w with
    ⟨hdead, -⟩ | ⟨-, ⟨e, h⟩ | ⟨e, h⟩ | h⟩
  · obtain ⟨existing, hlookup, hcached⟩ := Option.map_eq_some_iff.mp hlive
    exact absurd ⟨existing, hlookup, congrArg CachedLife.isDeleted hcached⟩ hdead
  · rw [h] at hok
    cases hok
  · rw [h] at hok
    cases hok
  · rw [h]
    exact life_of_deleted rfl rfl

theorem deleteConnection_ok (connId : Uuid) (conn : Conn) (reason : Option String) (now : DateTime)
    (hdb : w.dbFails w.calls = false) (hpublish : w.publishFails (w.calls + 1) = false) :
    ∃ status, (w.deleteConnection connId conn reason now).2 = .ok status := by
  unfold deleteConnection
  split
  · exact ⟨_, rfl⟩
  · split
    · exact ⟨_, rfl⟩
    · simp [dbExec, dbCall, hdb, andThen, publishConnDelete, publish, tick, hpublish]

theorem LivesFollow.deleteConnection (connId : Uuid) (conn : Conn) (reason : Option String)
    (now : DateTime) (w : World) :
    LivesFollow w (w.deleteConnection connId conn reason now).1 := by
  intro c
  rcases life_deleteConnection connId conn reason now w c with
    h | ⟨-, ⟨owner, hlive⟩, h | h⟩
  · rw [h]
  · rw [h]
    exact .single (.deleteInTable _ reason owner hlive)
  · rw [h]
    exact .single (.delete _ reason owner hlive)

end Delete

section Restore

variable {subId : Uuid} {now : DateTime}

theorem life_of_restored {connId : Uuid} {w : World}
    (hmem : w'.mem = w.mem.markRestored connId now) (hdb : w'.db = { w.db with
      connections := w.db.connections.modify connId Db.markConnRestored }) :
    w'.life connId = (w.life connId).restored := by
  simp only [life, hmem, hdb, Cache.markRestored, AList.lookup_modify_self, Life.restored,
    Option.map_map]
  rfl

theorem life_restoreConnection (connId : Uuid) (now : DateTime) (w : World) (c : Uuid) :
    (w.restoreConnection connId now).1.life c = w.life c ∨
      c = connId ∧ (w.restoreConnection connId now).1.life c = (w.life c).restored := by
  rcases restoreConnection_eq connId now w with ⟨-, h⟩ | ⟨e, h⟩ | ⟨-, h⟩ <;> rw [h]
  · exact .inl rfl
  · exact .inl rfl
  · by_cases hc : c = connId
    · subst hc
      exact .inr ⟨rfl, life_of_restored rfl rfl⟩
    · exact .inl (by simp [life, Cache.markRestored, AList.lookup_modify_ne hc])

theorem restoreOne_cases (now : DateTime) (item : Uuid × Conn × Option Uuid) (w : World) :
    ∃ w', w'.mem = w.mem ∧ w'.db = w.db ∧ ((w.restoreOne now item).1 = w' ∨
      (w.restoreOne now item).1 = (w'.restoreConnection item.1 now).1) := by
  refine ⟨(w.publish (connTopic item.2.1 item.2.2) (item.2.1.asUpdateMessage item.1)).1,
    publish_mem _ _ w, publish_db _ _ w, ?_⟩
  unfold restoreOne
  split <;> rename_i hpublish
  · exact .inl (by rw [hpublish])
  · rw [hpublish]
    split <;> rename_i hrestore <;> exact .inr (by rw [hrestore])

theorem life_restoreOne (now : DateTime) (item : Uuid × Conn × Option Uuid) (w : World) (c : Uuid) :
    (w.restoreOne now item).1.life c = w.life c ∨
      c = item.1 ∧ (w.restoreOne now item).1.life c = (w.life c).restored := by
  obtain ⟨w', hmem, hdb, h | h⟩ := restoreOne_cases now item w
  · rw [h]
    exact .inl (life_congr (by rw [hmem]) (by rw [hdb]) c)
  · have hlife : w'.life c = w.life c := life_congr (by rw [hmem]) (by rw [hdb]) c
    rw [h, ← hlife]
    exact life_restoreConnection item.1 now w' c

theorem life_restoreAll (now : DateTime) (items : List (Uuid × Conn × Option Uuid)) (w : World)
    (c : Uuid) :
    (restoreAll now items w).1.life c = w.life c ∨
      (∃ item ∈ items, item.1 = c) ∧ (restoreAll now items w).1.life c = (w.life c).restored := by
  induction items generalizing w with
  | nil => exact .inl rfl
  | cons item items ih =>
    simp only [restoreAll]
    rcases ih (w.restoreOne now item).1 with hrest | ⟨⟨later, hlater, hid⟩, hrest⟩
    · rw [hrest]
      rcases life_restoreOne now item w c with hone | ⟨hc, hone⟩
      · exact .inl hone
      · exact .inr ⟨⟨item, by simp, hc.symm⟩, hone⟩
    · refine .inr ⟨⟨later, List.mem_cons_of_mem item hlater, hid⟩, ?_⟩
      rcases life_restoreOne now item w c with hone | ⟨-, hone⟩
      · rw [hrest, hone]
      · rw [hrest, hone, Life.restored_restored]

theorem mem_deletedConns {mem : Cache} {item : Uuid × Conn × Option Uuid} :
    item ∈ mem.deletedConns subId ↔ mem.connections.lookup item.1 = some item.2.1 ∧
      item.2.1.subscriptionId = some subId ∧ item.2.1.isDeleted = true ∧
      item.2.2 = mem.connNodes.lookup item.1 := by
  simp only [Cache.deletedConns, List.mem_map, List.mem_filter, Connections.mem_getBySubscriptionId]
  constructor
  · rintro ⟨x, ⟨⟨hlookup, howner⟩, hdeleted⟩, rfl⟩
    exact ⟨hlookup, howner, hdeleted, rfl⟩
  · rintro ⟨hlookup, howner, hdeleted, hpin⟩
    exact ⟨(item.1, item.2.1), ⟨⟨hlookup, howner⟩, hdeleted⟩, by rw [← hpin]⟩

theorem cached_of_mem_deletedConns {w : World} {item : Uuid × Conn × Option Uuid}
    (h : item ∈ w.mem.deletedConns subId) : (w.life item.1).cached = some ⟨true, some subId⟩ := by
  obtain ⟨hlookup, howner, hdeleted, -⟩ := mem_deletedConns.mp h
  rw [life, hlookup, Option.map_some, Conn.life, howner, hdeleted]

theorem reasonIn_deletedReasons (subId : Uuid) (w : World) (c : Uuid) :
    reasonIn (w.db.deletedReasonsForSubscription subId) c = (w.life c).reason subId := by
  simp only [reasonIn, Db.deletedReasonsForSubscription, AList.lookup_mapRows,
    AList.lookup_filterRows, Life.reason, life]
  cases w.db.connections.lookup c with
  | none => rfl
  | some row =>
    by_cases h : row.subscriptionId = some subId ∧ row.isDeleted = true <;>
      simp [ConnRow.life, Option.filter, h]

@[simp] theorem usedBytes_mem (subId : Uuid) (needed : Bool) (w : World) :
    (w.usedBytes subId needed).1.mem = w.mem := by
  unfold usedBytes
  split <;> simp

@[simp] theorem usedBytes_db (subId : Uuid) (needed : Bool) (w : World) :
    (w.usedBytes subId needed).1.db = w.db := by
  unfold usedBytes
  split <;> simp

@[simp] theorem usedBytes_bus (subId : Uuid) (needed : Bool) (w : World) :
    (w.usedBytes subId needed).1.bus = w.bus := by
  unfold usedBytes
  split <;> simp [dbRead]

theorem usedBytes_cases (subId : Uuid) (needed : Bool) (w : World) :
    (∃ e, (w.usedBytes subId needed).2 = .error e) ∨
      (w.usedBytes subId needed).2 = .ok (if needed then
        (w.db.totalForSubscription subId).1 + (w.db.totalForSubscription subId).2 else 0) := by
  unfold usedBytes
  split
  · exact dbRead_cases (fun db => (db.totalForSubscription subId).1 +
      (db.totalForSubscription subId).2) w
  · exact .inr rfl

/-- The traffic a restoration of the subscription compares with its limit: that of the
table, if the reason of a deleted connection depends on it. -/
def restoreUsed (subId : Uuid) (w : World) : ℤ :=
  if (w.mem.deletedConns subId).any fun item => decide (reasonIn
      (w.db.deletedReasonsForSubscription subId) item.1 = some DeleteReason.trafficExhausted) then
    (w.db.totalForSubscription subId).1 + (w.db.totalForSubscription subId).2
  else 0

/-- The connections a restoration of the subscription picks, as cache and tables are. -/
def restorable (subId : Uuid) (metered : Option (List String)) (w : World) :
    List (Uuid × Conn × Option Uuid) :=
  toRestore (w.db.deletedReasonsForSubscription subId) (w.restoreUsed subId)
    (w.mem.limitBytes subId) metered (w.mem.deletedConns subId)

/-- What a restoration does: it queries, and then runs its tasks, unless a query
failed or there was nothing to do. -/
theorem restoreConnectionsBySubscription_cases (subId : Uuid) (metered : Option (List String))
    (now : DateTime) (w : World) :
    ∃ w', w'.mem = w.mem ∧ w'.db = w.db ∧ w'.bus = w.bus ∧
      ((w.restoreConnectionsBySubscription subId metered now).1 = w' ∨
        (w.restoreConnectionsBySubscription subId metered now).1 =
          (restoreAll now (w.restorable subId metered) w').1) := by
  unfold restoreConnectionsBySubscription restorable restoreUsed
  by_cases hempty : (w.mem.deletedConns subId).isEmpty = true
  · rw [if_pos hempty]
    exact ⟨w, rfl, rfl, rfl, .inl rfl⟩
  rw [if_neg hempty]
  rcases dbRead_cases (Db.deletedReasonsForSubscription subId) w with ⟨e, he⟩ | hreasons
  · rw [andThen_error he]
    exact ⟨_, by simp, by simp, by simp [dbRead], .inl rfl⟩
  rw [andThen_ok hreasons]
  generalize (w.mem.deletedConns subId).any _ = needed
  rcases usedBytes_cases subId needed (w.dbRead (Db.deletedReasonsForSubscription subId)).1 with
    ⟨e, he⟩ | hok
  · rw [andThen_error he]
    exact ⟨_, by simp, by simp, by simp [dbRead], .inl rfl⟩
  · rw [andThen_ok hok]
    exact ⟨((w.dbRead (Db.deletedReasonsForSubscription subId)).1.usedBytes subId needed).1,
      by simp, by simp, by simp [dbRead], .inr (by simp)⟩

/-- The lives after a restoration of the connections of a subscription. A
connection that is restored was a deleted one of the subscription, and its stored
reason allowed it at the subscription's limit; the traffic it was compared with is
that of the table, if the reason depends on it. -/
theorem life_restoreConnectionsBySubscription (subId : Uuid) (metered : Option (List String))
    (now : DateTime) (w : World) (c : Uuid) :
    (w.restoreConnectionsBySubscription subId metered now).1.life c = w.life c ∨
      (w.life c).cached = some ⟨true, some subId⟩ ∧
      (∃ used, connectionRestorable ((w.life c).reason subId) used (w.mem.limitBytes subId) = true ∧
        ((w.life c).reason subId = some DeleteReason.trafficExhausted →
          used = (w.db.totalForSubscription subId).1 + (w.db.totalForSubscription subId).2)) ∧
      (w.restoreConnectionsBySubscription subId metered now).1.life c = (w.life c).restored := by
  obtain ⟨w', hmem, hdb, -, hsame | hrestored⟩ :=
    restoreConnectionsBySubscription_cases subId metered now w
  · rw [hsame]
    exact .inl (life_congr (by rw [hmem]) (by rw [hdb]) c)
  have hlife : w'.life c = w.life c := life_congr (by rw [hmem]) (by rw [hdb]) c
  rw [hrestored, ← hlife]
  rcases life_restoreAll now (w.restorable subId metered) w' c with h | ⟨⟨item, hitem, rfl⟩, h⟩
  · exact .inl h
  obtain ⟨hdeleted, hpicked⟩ := List.mem_filter.mp hitem
  rw [Bool.and_eq_true, reasonIn_deletedReasons] at hpicked
  refine .inr ⟨?_, ⟨w.restoreUsed subId, ?_, fun hreason => if_pos ?_⟩, h⟩
  · rw [hlife]
    exact cached_of_mem_deletedConns hdeleted
  · rw [hlife]
    exact hpicked.1
  · rw [hlife, ← reasonIn_deletedReasons] at hreason
    exact List.any_eq_true.mpr ⟨item, hdeleted, decide_eq_true hreason⟩

theorem LivesFollow.restoreConnectionsBySubscription (subId : Uuid)
    (metered : Option (List String)) (now : DateTime) (w : World) :
    LivesFollow w (w.restoreConnectionsBySubscription subId metered now).1 := by
  intro c
  rcases life_restoreConnectionsBySubscription subId metered now w c with
    h | ⟨hdeleted, ⟨used, hreason, -⟩, h⟩
  · rw [h]
  · rw [h]
    exact .single (.restore _ subId used _ hdeleted hreason)

/-- Nothing but connections was written. -/
structure OnlyConnections (w w' : World) : Prop where
  mem : w'.mem = { w.mem with connections := w'.mem.connections }
  db : w'.db = { w.db with connections := w'.db.connections }

theorem OnlyConnections.of_eq {w : World} (hmem : w'.mem = w.mem) (hdb : w'.db = w.db) :
    OnlyConnections w w' := by
  constructor
  · rw [hmem]
  · rw [hdb]

theorem OnlyConnections.trans {w₁ w₂ w₃ : World} (h : OnlyConnections w₁ w₂)
    (h' : OnlyConnections w₂ w₃) : OnlyConnections w₁ w₃ := by
  constructor
  · rw [h'.mem, h.mem]
  · rw [h'.db, h.db]

theorem OnlyConnections.restoreConnection (connId : Uuid) (now : DateTime) (w : World) :
    OnlyConnections w (w.restoreConnection connId now).1 := by
  rcases restoreConnection_eq connId now w with ⟨-, h⟩ | ⟨e, h⟩ | ⟨-, h⟩ <;> rw [h]
  · exact .of_eq rfl rfl
  · exact .of_eq rfl rfl
  · exact ⟨rfl, rfl⟩

theorem OnlyConnections.restoreAll (now : DateTime) (items : List (Uuid × Conn × Option Uuid))
    (w : World) : OnlyConnections w (restoreAll now items w).1 := by
  induction items generalizing w with
  | nil => exact .of_eq rfl rfl
  | cons item items ih =>
    refine OnlyConnections.trans ?_ (ih _)
    obtain ⟨w', hmem, hdb, h | h⟩ := restoreOne_cases now item w
    · rw [h]
      exact .of_eq hmem hdb
    · rw [h]
      exact (OnlyConnections.of_eq hmem hdb).trans (.restoreConnection item.1 now w')

theorem OnlyConnections.restoreConnectionsBySubscription (subId : Uuid)
    (metered : Option (List String)) (now : DateTime) (w : World) :
    OnlyConnections w (w.restoreConnectionsBySubscription subId metered now).1 := by
  obtain ⟨w', hmem, hdb, -, h | h⟩ := restoreConnectionsBySubscription_cases subId metered now w
  · rw [h]
    exact .of_eq hmem hdb
  · rw [h]
    exact (OnlyConnections.of_eq hmem hdb).trans (.restoreAll now _ w')

end Restore

end World

end Fcore
