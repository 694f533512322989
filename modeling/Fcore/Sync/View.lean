import Fcore.Postgres.Load
import Fcore.Sync.Life

/-!
# The view of one connection

All that the process holds about one connection: the cached connection, the stored
row, and what is cached beside the connection. The operations that write connections
are described by what they do to the view of each connection, together with the
answer they give. An operation changes the view of one connection only.

A deletion drops the label, the pin and the share mark; a restoration brings back the
connection and none of these.
-/

namespace Fcore

structure ConnView where
  conn : Option Conn
  row : Option ConnRow
  sides : Sides

namespace Sides

def dropped (sides : Sides) : Sides := ⟨none, none, false, sides.excluded⟩

end Sides

namespace ConnView

def added (conn : Conn) (row : ConnRow) (v : ConnView) : ConnView where
  conn := some (v.conn.getD conn)
  row := some row
  sides := ⟨row.label.or v.sides.label, row.nodeId.or v.sides.pin, v.sides.share,
    !row.includeInMain⟩

def deletedInTable (reason : Option String) (v : ConnView) : ConnView :=
  { v with row := v.row.map (Db.markConnDeleted reason) }

def deleted (reason : Option String) (now : DateTime) (v : ConnView) : ConnView where
  conn := v.conn.map fun conn => { conn with isDeleted := true, modifiedAt := now }
  row := v.row.map (Db.markConnDeleted reason)
  sides := v.sides.dropped

def restored (now : DateTime) (v : ConnView) : ConnView where
  conn := v.conn.map fun conn => { conn with isDeleted := false, modifiedAt := now }
  row := v.row.map Db.markConnRestored
  sides := v.sides

def CachedLive (v : ConnView) : Prop := ∃ conn, v.conn = some conn ∧ conn.isDeleted = false

end ConnView

namespace World

def view (w : World) (c : Uuid) : ConnView :=
  ⟨w.mem.connections.lookup c, w.db.connections.lookup c, w.mem.sides c⟩

variable {w w' : World}

theorem view_congr (hmem : w'.mem = w.mem) (hdb : w'.db = w.db) (c : Uuid) :
    w'.view c = w.view c := by
  rw [view, view, hmem, hdb]

section Add

variable {connId : Uuid} {conn : Conn} {label : Option String} {nodeId : Option Uuid}
  {issuedVia : Option String} {includeInMain : Bool}

theorem sides_addConn (mem : Cache) (c : Uuid) :
    (mem.addConn connId conn label nodeId includeInMain).sides c =
      if c = connId then ⟨label.or (mem.sides c).label, nodeId.or (mem.sides c).pin,
        (mem.sides c).share, !includeInMain⟩
      else mem.sides c := by
  by_cases hc : c = connId
  · subst hc
    rw [if_pos rfl]
    ext1
    · cases label <;> simp [Cache.sides, Cache.addConn]
    · cases nodeId <;> simp [Cache.sides, Cache.addConn]
    · rfl
    · cases includeInMain <;> simp [Cache.sides, Cache.addConn]
  · rw [if_neg hc]
    ext1
    · cases label <;> simp [Cache.sides, Cache.addConn, hc]
    · cases nodeId <;> simp [Cache.sides, Cache.addConn, hc]
    · rfl
    · cases includeInMain <;> simp [Cache.sides, Cache.addConn, hc]

theorem view_of_added (hmem : w'.mem = w.mem.addConn connId conn label nodeId includeInMain)
    (hdb : w'.db = { w.db with
      connections :=
        AList.insert connId (newRow conn label nodeId issuedVia includeInMain) w.db.connections })
    (c : Uuid) :
    w'.view c = if c = connId then
        (w.view c).added conn (newRow conn label nodeId issuedVia includeInMain)
      else w.view c := by
  rw [view, hmem, hdb, lookup_addConn, sides_addConn]
  by_cases hc : c = connId
  · subst hc
    simp only [if_true, AList.lookup_insert]
    rfl
  · simp only [if_neg hc, AList.lookup_insert_ne hc]
    rfl

/-- An insertion fails and changes nothing, or the connection was not stored before and
is added. -/
theorem view_addConn (connId : Uuid) (conn : Conn) (label : Option String) (nodeId : Option Uuid)
    (issuedVia : Option String) (includeInMain : Bool) (w : World) :
    ((∃ e, (w.addConn connId conn label nodeId issuedVia includeInMain).2 = .error e) ∧
      ∀ c, (w.addConn connId conn label nodeId issuedVia includeInMain).1.view c = w.view c) ∨
    ((w.addConn connId conn label nodeId issuedVia includeInMain).2 = .ok (.ok connId) ∧
      (w.view connId).row = none ∧
      ∀ c, (w.addConn connId conn label nodeId issuedVia includeInMain).1.view c =
        if c = connId then
          (w.view c).added conn (newRow conn label nodeId issuedVia includeInMain)
        else w.view c) := by
  rcases addConn_eq connId conn w label nodeId issuedVia includeInMain with
    ⟨e, h⟩ | ⟨db, hinsert, h⟩ <;> rw [h]
  · exact .inl ⟨⟨e, rfl⟩, fun _ => rfl⟩
  · obtain ⟨hnew, rfl⟩ := insertConnection_cases hinsert
    exact .inr ⟨rfl, hnew, view_of_added rfl rfl⟩

end Add

section Delete

variable {connId : Uuid} {now : DateTime}

theorem sides_markDeleted (mem : Cache) (c : Uuid) :
    (mem.markDeleted connId now).sides c =
      if c = connId then (mem.sides c).dropped else mem.sides c := by
  by_cases hc : c = connId
  · subst hc
    ext1 <;> simp [Cache.sides, Cache.markDeleted, Sides.dropped]
  · ext1 <;> simp [Cache.sides, Cache.markDeleted, hc]

theorem view_of_deletedInTable {reason : Option String} (hmem : w'.mem = w.mem)
    (hdb : w'.db = w.db.deleteConnection connId reason) (c : Uuid) :
    w'.view c = if c = connId then (w.view c).deletedInTable reason else w.view c := by
  rw [view, hmem, hdb, Db.deleteConnection, AList.lookup_modify]
  by_cases hc : c = connId
  · simp only [if_pos hc]
    rfl
  · simp only [if_neg hc, Option.map_id']
    rfl

theorem view_of_deleted {reason : Option String} (hmem : w'.mem = w.mem.markDeleted connId now)
    (hdb : w'.db = w.db.deleteConnection connId reason) (c : Uuid) :
    w'.view c = if c = connId then (w.view c).deleted reason now else w.view c := by
  rw [view, hmem, hdb, sides_markDeleted, Cache.markDeleted, Db.deleteConnection,
    AList.lookup_modify, AList.lookup_modify]
  by_cases hc : c = connId
  · simp only [if_pos hc]
    rfl
  · simp only [if_neg hc, Option.map_id']
    rfl

/-- A deletion does nothing to a connection the cache does not have as live, fails and
writes the table or not, or deletes the connection in both places. -/
theorem view_deleteConnection (connId : Uuid) (conn : Conn) (reason : Option String)
    (now : DateTime) (w : World) :
    (¬ (w.view connId).CachedLive ∧
      (∃ status, (w.deleteConnection connId conn reason now).2 = .ok status ∧
        status ≠ .ok connId) ∧
      (w.deleteConnection connId conn reason now).1 = w) ∨
    ((w.view connId).CachedLive ∧
      (∃ e, (w.deleteConnection connId conn reason now).2 = .error e) ∧
      ((∀ c, (w.deleteConnection connId conn reason now).1.view c = w.view c) ∨
        ∀ c, (w.deleteConnection connId conn reason now).1.view c =
          if c = connId then (w.view c).deletedInTable reason else w.view c)) ∨
    ((w.view connId).CachedLive ∧
      (w.deleteConnection connId conn reason now).2 = .ok (.ok connId) ∧
      ∀ c, (w.deleteConnection connId conn reason now).1.view c =
        if c = connId then (w.view c).deleted reason now else w.view c) := by
  rcases deleteConnection_eq connId conn reason now w with
    ⟨hdead, status, hstatus, h⟩ | ⟨hlive, ⟨e, h⟩ | ⟨e, h⟩ | h⟩ <;> rw [h]
  · exact .inl ⟨hdead, ⟨status, rfl, hstatus⟩, rfl⟩
  · exact .inr (.inl ⟨hlive, ⟨e, rfl⟩, .inl fun _ => rfl⟩)
  · exact .inr (.inl ⟨hlive, ⟨e, rfl⟩, .inr (view_of_deletedInTable rfl rfl)⟩)
  · exact .inr (.inr ⟨hlive, rfl, view_of_deleted rfl rfl⟩)

end Delete

section Restore

/-- A restoration finds no cached connection, fails, or marks the connection in both
places. -/
theorem view_restoreConnection (connId : Uuid) (now : DateTime) (w : World) :
    ((w.view connId).conn = none ∧
      (w.restoreConnection connId now).2 = .ok (.notFound connId) ∧
      (w.restoreConnection connId now).1 = w) ∨
    ((∃ e, (w.restoreConnection connId now).2 = .error e) ∧
      ∀ c, (w.restoreConnection connId now).1.view c = w.view c) ∨
    ((∃ conn, (w.view connId).conn = some conn) ∧
      (w.restoreConnection connId now).2 = .ok (.ok connId) ∧
      ∀ c, (w.restoreConnection connId now).1.view c =
        if c = connId then (w.view c).restored now else w.view c) := by
  rcases restoreConnection_eq connId now w with ⟨hnone, h⟩ | ⟨e, h⟩ | ⟨hsome, h⟩ <;> rw [h]
  · exact .inl ⟨hnone, rfl, rfl⟩
  · exact .inr (.inl ⟨⟨e, rfl⟩, fun _ => rfl⟩)
  · refine .inr (.inr ⟨hsome, rfl, fun c => ?_⟩)
    rw [view, Cache.markRestored, AList.lookup_modify, AList.lookup_modify]
    by_cases hc : c = connId
    · simp only [if_pos hc]
      rfl
    · simp only [if_neg hc, Option.map_id']
      rfl

end Restore

end World

end Fcore
