import Fcore.Sync.Mirror
import Fcore.Tasks.Reload

/-!
# Tombstones

The bus delivers a message once, so the deletions of the last day are told again at
every tick of a background loop. Which connections were deleted during the last day is
read off the cache: a deletion stamps the cached connection with the time. The row
keeps its old stamp, and a reload puts the stamp of the row back into the cache.

Runs are observed with one history variable: for each connection the time of its last
deletion, if that returned without an error, and whether a reload succeeded since. The
main result says that a tick tells every deletion of the last day again, as long as
only live connections are deleted, and no reload has put back a stamp that is older
than a day.
-/

namespace Fcore

namespace Cache

/-- The connections that were deleted in the last 24 hours, by the stamps of the
cache. -/
def staleConns (now : DateTime) (mem : Cache) : List (Uuid × Conn) :=
  (mem.connections.entries.filter fun e =>
    e.2.isDeleted && decide (now - dayNanos < e.2.modifiedAt)).map fun e => (e.1, e.2)

end Cache

namespace World

/-- One turn of the loop; a message that cannot be published is logged. -/
def republishConnDeletes (now : DateTime) (w : World) : World :=
  (w.mem.staleConns now).foldl (fun w c => (w.publishConnDelete c.1 c.2).1) w

def republished (now : DateTime) (w : World) : List (Topic × Message) :=
  (w.republishConnDeletes now).bus.drop w.bus.length

end World

inductive TombstoneEvent where
  | conn (op : ConnOp)
  | reload
  | tick (now : DateTime)
  deriving DecidableEq, Repr

structure LastDelete where
  time : DateTime
  reloaded : Bool
  deriving DecidableEq, Repr

structure Observed where
  world : World
  lastDelete : Uuid → Option LastDelete

namespace Observed

/-- What a call says about the last deletion of a connection. -/
def recordCall (s : Observed) : ConnOp → Uuid → Option LastDelete
  | .delete connId conn reason now, c =>
    if c = connId then
      match (s.world.deleteConnection connId conn reason now).2 with
      | .ok _ => some ⟨now, false⟩
      | .error _ => none
    else s.lastDelete c
  | _, c => s.lastDelete c

def step (lower : String → String) (s : Observed) : TombstoneEvent → Observed
  | .conn op => ⟨op.step s.world, s.recordCall op⟩
  | .reload =>
    match s.world.getStateFromDb lower with
    | (w, .ok ()) => ⟨w, fun c => (s.lastDelete c).map fun d => { d with reloaded := true }⟩
    | (w, .error _) => ⟨w, s.lastDelete⟩
  | .tick now => { s with world := s.world.republishConnDeletes now }

/-- A tick tells every connection that is deleted in the table and whose last deletion
returned without an error in the 24 hours before. -/
def Republishes (s : Observed) : TombstoneEvent → Prop
  | .tick now => ∀ c row d, s.world.db.connections.lookup c = some row → row.isDeleted = true →
      s.lastDelete c = some d → now - dayNanos < d.time → d.time ≤ now →
        ∃ (topic : Topic) (conn : Conn), (topic, conn.asDeleteMessage c) ∈ s.world.republished now
  | _ => True

/-- Only a connection that the cache has as live is deleted. At a tick, a connection that
was deleted in the last 24 hours and reloaded since has a stamp of the last 24 hours
in its row, and the publisher works. -/
def stampsKept (s : Observed) : TombstoneEvent → Bool
  | .conn (.delete connId _ _ _) =>
    (s.world.mem.connections.lookup connId).any fun conn => !conn.isDeleted
  | .conn _ => true
  | .reload => true
  | .tick now =>
    (s.world.db.connections.entries.all fun e =>
      !e.2.isDeleted || (s.lastDelete e.1).all fun d =>
        !d.reloaded || decide (d.time ≤ now - dayNanos) ||
          decide (now - dayNanos < e.2.modifiedAt)) &&
    (List.range (s.world.mem.staleConns now).length).all fun i =>
      !s.world.publishFails (s.world.calls + i)

end Observed

namespace World

variable {w : World}

theorem publish_of_ok {topic : Topic} {message : Message} (h : w.publishFails w.calls = false) :
    w.publish topic message = ({ w.tick with bus := w.bus ++ [(topic, message)] }, .ok ()) := by
  simp [publish, h]

theorem bus_foldl_publishConnDelete {items : List (Uuid × Conn)}
    (h : ∀ i < items.length, w.publishFails (w.calls + i) = false) :
    (items.foldl (fun w c => (w.publishConnDelete c.1 c.2).1) w).bus =
      w.bus ++ items.map fun c =>
        (connTopic c.2 (w.mem.connNodes.lookup c.1), c.2.asDeleteMessage c.1) := by
  induction items generalizing w with
  | nil => simp
  | cons item items ih =>
    have hfirst := h 0 (by simp)
    rw [List.foldl_cons, publishConnDelete, publish_of_ok hfirst, ih]
    · simp
    · intro i hi
      have hnext := h (i + 1) (by simpa using hi)
      rwa [show w.calls + (i + 1) = w.calls + 1 + i by omega] at hnext

theorem mem_foldl_publishConnDelete (items : List (Uuid × Conn)) (w : World) :
    (items.foldl (fun w c => (w.publishConnDelete c.1 c.2).1) w).mem = w.mem ∧
      (items.foldl (fun w c => (w.publishConnDelete c.1 c.2).1) w).db = w.db :=
  Run.invariant_foldl (I := fun w' : World => w'.mem = w.mem ∧ w'.db = w.db) ⟨rfl, rfl⟩
    fun w' _ _ hw' => ⟨(publish_mem _ _ w').trans hw'.1, (publish_db _ _ w').trans hw'.2⟩

theorem view_republishConnDeletes (now : DateTime) (w : World) (c : Uuid) :
    (w.republishConnDeletes now).view c = w.view c :=
  view_congr (mem_foldl_publishConnDelete _ w).1 (mem_foldl_publishConnDelete _ w).2 c

theorem republished_eq {now : DateTime}
    (h : ∀ i < (w.mem.staleConns now).length, w.publishFails (w.calls + i) = false) :
    w.republished now = (w.mem.staleConns now).map fun c =>
      (connTopic c.2 (w.mem.connNodes.lookup c.1), c.2.asDeleteMessage c.1) := by
  rw [republished, republishConnDeletes, bus_foldl_publishConnDelete h, List.drop_left]

end World

/-- The cache knows a deletion: as long as the row is deleted the cached connection is,
with a stamp not older than the deletion or, after a reload, with that of the row. -/
def ConnView.Remembers (v : ConnView) (d : LastDelete) : Prop :=
  ∃ row, v.row = some row ∧ (row.isDeleted = true → ∃ conn, v.conn = some conn ∧
    conn.isDeleted = true ∧
      (d.time ≤ conn.modifiedAt ∨ d.reloaded = true ∧ conn.modifiedAt = row.modifiedAt))

namespace Observed

variable {lower : String → String} {s : Observed}

/-- What every permitted event keeps. -/
structure Inv (s : Observed) : Prop where
  stored : ∀ c conn, (s.world.view c).conn = some conn → ∃ row, (s.world.view c).row = some row
  remembers : ∀ c d, s.lastDelete c = some d → (s.world.view c).Remembers d

theorem Inv.stored_conn (h : s.Inv) (op : ConnOp) (c : Uuid) (conn : Conn)
    (hconn : ((op.step s.world).view c).conn = some conn) :
    ∃ row, ((op.step s.world).view c).row = some row := by
  rcases World.view_call s.world op c with hview | ⟨_, _, _, _, _, -, -, hview⟩ |
    ⟨_, _, _, _, -, -, hview⟩ | ⟨_, _, _, -, ⟨conn', hconn', -⟩, hview⟩ |
    ⟨_, conn', -, hconn', hview⟩
  · rw [hview] at hconn ⊢
    exact h.stored c conn hconn
  · rw [hview]
    exact ⟨_, rfl⟩
  · rw [hview] at hconn ⊢
    obtain ⟨row, hrow⟩ := h.stored c conn hconn
    exact ⟨_, Option.map_eq_some_iff.mpr ⟨row, hrow, rfl⟩⟩
  · rw [hview]
    obtain ⟨row, hrow⟩ := h.stored c conn' hconn'
    exact ⟨_, Option.map_eq_some_iff.mpr ⟨row, hrow, rfl⟩⟩
  · rw [hview]
    obtain ⟨row, hrow⟩ := h.stored c conn' hconn'
    exact ⟨_, Option.map_eq_some_iff.mpr ⟨row, hrow, rfl⟩⟩

variable {d : LastDelete}

theorem remembers_restored {v : ConnView} (h : v.Remembers d) (now : DateTime) :
    (v.restored now).Remembers d := by
  obtain ⟨row, hrow, -⟩ := h
  refine ⟨Db.markConnRestored row, ?_, fun hdeleted => ?_⟩
  · rw [ConnView.restored, hrow, Option.map_some]
  · cases hdeleted

theorem Inv.remembers_other (h : s.Inv) {op : ConnOp} {c : Uuid}
    (hop : ∀ conn reason now, op ≠ .delete c conn reason now) (hd : s.lastDelete c = some d) :
    ((op.step s.world).view c).Remembers d := by
  have hbefore := h.remembers c d hd
  rcases World.view_call s.world op c with hview | ⟨_, _, _, _, _, -, hnew, -⟩ |
    ⟨_, _, _, _, hdelete, -⟩ | ⟨_, _, _, hdelete, -⟩ | ⟨now, _, -, -, hview⟩
  · rwa [hview]
  · obtain ⟨row, hrow, -⟩ := hbefore
    rw [hnew] at hrow
    cases hrow
  · exact absurd hdelete (hop _ _ _)
  · exact absurd hdelete (hop _ _ _)
  · rw [hview]
    exact remembers_restored hbefore now

theorem Inv.remembers_delete (h : s.Inv) {connId : Uuid} {conn : Conn} {reason : Option String}
    {now : DateTime} (hlive : (s.world.view connId).CachedLive)
    {status : Status} (hok : (s.world.deleteConnection connId conn reason now).2 = .ok status) :
    ((s.world.deleteConnection connId conn reason now).1.view connId).Remembers ⟨now, false⟩ := by
  rcases World.view_deleteConnection connId conn reason now s.world with
    ⟨hnot, -⟩ | ⟨-, ⟨e, he⟩, -⟩ | ⟨-, -, hview⟩
  · exact absurd hlive hnot
  · rw [hok] at he
    cases he
  · obtain ⟨cached, hcached, -⟩ := hlive
    obtain ⟨row, hrow⟩ := h.stored connId cached hcached
    rw [hview, if_pos rfl]
    refine ⟨Db.markConnDeleted reason row, ?_, fun _ => ?_⟩
    · rw [ConnView.deleted, hrow, Option.map_some]
    · refine ⟨{ cached with isDeleted := true, modifiedAt := now }, ?_, rfl, .inl le_rfl⟩
      rw [ConnView.deleted, hcached, Option.map_some]

theorem Inv.remembers_conn (h : s.Inv) {op : ConnOp} (hkept : s.stampsKept (.conn op) = true)
    {c : Uuid} (hd : s.recordCall op c = some d) : ((op.step s.world).view c).Remembers d := by
  cases op with
  | add connId conn label nodeId issuedVia includeInMain =>
    exact h.remembers_other (by simp) hd
  | restore connId now => exact h.remembers_other (by simp) hd
  | delete connId conn reason now =>
    by_cases hc : c = connId
    · subst hc
      have hlive : ∃ conn, s.world.mem.connections.lookup c = some conn ∧
          conn.isDeleted = false := by
        simpa [stampsKept, Option.any_eq_true] using hkept
      rw [recordCall, if_pos rfl] at hd
      cases hresult : (s.world.deleteConnection c conn reason now).2 with
      | error e =>
        rw [hresult] at hd
        cases hd
      | ok status =>
        rw [hresult] at hd
        cases hd
        exact h.remembers_delete hlive hresult
    · rw [recordCall, if_neg hc] at hd
      apply h.remembers_other _ hd
      intro conn' reason' now' heq
      cases heq
      exact hc rfl

theorem Inv.reload (h : s.Inv) : (s.step lower .reload).Inv := by
  have hcases := World.getStateFromDb_cases lower s.world
  have hviews := fun hok : (s.world.getStateFromDb lower).2 = .ok () =>
    World.view_getStateFromDb hok
  unfold Observed.step
  cases hload : s.world.getStateFromDb lower with
  | mk w result =>
    rw [hload] at hcases hviews
    cases result with
    | error e =>
      rcases hcases with ⟨-, hmem, hdb, -⟩ | ⟨hok, -⟩
      · have hview := World.view_congr hmem hdb
        exact ⟨fun c conn hconn => by rw [hview] at hconn ⊢; exact h.stored c conn hconn,
          fun c d hd => by rw [hview]; exact h.remembers c d hd⟩
      · cases hok
    | ok _ =>
      constructor
      · intro c conn hconn
        obtain ⟨hrow, hnone, -⟩ := hviews rfl c
        cases hrow' : (s.world.view c).row with
        | none =>
          rw [(hnone hrow').1] at hconn
          cases hconn
        | some row => exact ⟨row, hrow.trans hrow'⟩
      · intro c d hd
        obtain ⟨d', hd', rfl⟩ := Option.map_eq_some_iff.mp hd
        obtain ⟨row, hrow, -⟩ := h.remembers c d' hd'
        obtain ⟨hrow', -, hsome⟩ := hviews rfl c
        obtain ⟨⟨conn, hconn, hcached⟩, -⟩ := hsome row hrow
        obtain ⟨hflag, hstamp, -⟩ := ConnRow.toConn_ok hconn
        refine ⟨row, hrow'.trans hrow, fun hdeleted => ⟨conn, hcached, ?_, .inr ⟨rfl, hstamp⟩⟩⟩
        rw [hflag, hdeleted]

theorem Inv.step (h : s.Inv) {event : TombstoneEvent} (hkept : s.stampsKept event = true) :
    (s.step lower event).Inv := by
  cases event with
  | conn op => exact ⟨h.stored_conn op, fun c d hd => h.remembers_conn hkept hd⟩
  | reload => exact h.reload
  | tick now =>
    constructor
    · intro c conn hconn
      rw [Observed.step, World.view_republishConnDeletes] at hconn ⊢
      exact h.stored c conn hconn
    · intro c d hd
      rw [Observed.step, World.view_republishConnDeletes]
      exact h.remembers c d hd

theorem Inv.republishes (h : s.Inv) {event : TombstoneEvent} (hkept : s.stampsKept event = true) :
    s.Republishes event := by
  cases event with
  | conn op => trivial
  | reload => trivial
  | tick now =>
    intro c row d hrow hdeleted hd hwindow _
    simp only [stampsKept, Bool.and_eq_true, List.all_eq_true, List.mem_range] at hkept
    obtain ⟨hstamps, hpublisher⟩ := hkept
    obtain ⟨row', hrow', hcached⟩ := h.remembers c d hd
    obtain rfl : row = row' := Option.some.inj (hrow.symm.trans hrow')
    obtain ⟨conn, hconn, hconnDeleted, hstamp⟩ := hcached hdeleted
    have hrecent : now - dayNanos < conn.modifiedAt := by
      rcases hstamp with hstamp | ⟨hreloaded, hstamp⟩
      · exact lt_of_lt_of_le hwindow hstamp
      · have hentry := hstamps ⟨c, row⟩ (AList.mem_entries_iff.mpr hrow)
        rw [hstamp]
        simpa [hdeleted, hd, hreloaded, not_le.mpr hwindow] using hentry
    have hstale : (c, conn) ∈ s.world.mem.staleConns now := by
      refine List.mem_map.mpr ⟨⟨c, conn⟩, List.mem_filter.mpr ⟨?_, ?_⟩, rfl⟩
      · exact AList.mem_entries_iff.mpr hconn
      · simp [hconnDeleted, hrecent]
    rw [World.republished_eq fun i hi => by simpa using hpublisher i hi]
    exact ⟨_, conn, List.mem_map.mpr ⟨(c, conn), hstale, rfl⟩⟩

end Observed

def Observed.start (w : World) : Observed := ⟨w, fun _ => none⟩

/-- Along every run in which the stamps of deletions are kept, every tick tells the
deletions of the last 24 hours again. At the start every cached connection is stored. -/
theorem tombstones_republished {lower : String → String} {w : World}
    {events : List TombstoneEvent}
    (hstored : ∀ c conn, w.mem.connections.lookup c = some conn →
      ∃ row, w.db.connections.lookup c = some row)
    (hkept : Run.Along (Observed.step lower) (fun s event => s.stampsKept event = true)
      (.start w) events) :
    Run.Along (Observed.step lower) Observed.Republishes (.start w) events :=
  Run.along_of_invariant (I := fun s : Observed => s.Inv)
    (fun _ _ h hkept => ⟨h.step hkept, h.republishes hkept⟩)
    ⟨hstored, fun _ _ hd => by cases hd⟩ hkept

section Runs

def epochConn : Conn := Conn.new .production none (.xray .vmess) none 0

def addEpochConn : TombstoneEvent := .conn (.add 5 epochConn none none none true)

def deleteEpochConn (now : DateTime) : TombstoneEvent := .conn (.delete 5 epochConn none now)

theorem stored_reliable (c : Uuid) (conn : Conn)
    (h : World.reliable.mem.connections.lookup c = some conn) :
    ∃ row, World.reliable.db.connections.lookup c = some row := by
  cases h

/-- Deleted on the third day, told again an hour later, reloaded on the fifth day. -/
theorem tombstones_republished_within_day :
    World.reliable.mem.connections = ∅ ∧
      Run.Along (Observed.step id) Observed.Republishes (.start World.reliable)
        [addEpochConn, deleteEpochConn (2 * dayNanos), .tick (2 * dayNanos + 1), .reload,
          .tick (4 * dayNanos)] :=
  ⟨rfl, tombstones_republished stored_reliable (by decide +kernel)⟩

/-- Deleted on the third day and reloaded before the tick: the cache has the stamp of the
row, which is that of the creation, and nothing is told. A second deletion is answered
without an error and leaves the stamp of the first, so a day after the first nothing
is told either. -/
theorem not_tombstones_republished :
    World.reliable.mem.connections = ∅ ∧
      (¬ Run.Along (Observed.step id) Observed.Republishes (.start World.reliable)
        [addEpochConn, deleteEpochConn (2 * dayNanos), .reload, .tick (2 * dayNanos + 1)]) ∧
      ¬ Run.Along (Observed.step id) Observed.Republishes (.start World.reliable)
        [addEpochConn, deleteEpochConn 0, deleteEpochConn 1, .tick dayNanos] := by
  refine ⟨rfl, fun h => ?_, fun h => ?_⟩
  · obtain ⟨-, -, -, htick, -⟩ := h
    have hsilent : ([addEpochConn, deleteEpochConn (2 * dayNanos), .reload].foldl
        (Observed.step id) (.start World.reliable)).world.republished (2 * dayNanos + 1) = [] := by
      decide +kernel
    obtain ⟨topic, conn, htold⟩ :=
      htick 5 _ ⟨2 * dayNanos, true⟩ rfl rfl rfl (by decide) (by decide)
    rw [List.foldl_cons, List.foldl_cons, List.foldl_cons, List.foldl_nil] at hsilent
    rw [hsilent] at htold
    cases htold
  · obtain ⟨-, -, -, htick, -⟩ := h
    have hsilent : ([addEpochConn, deleteEpochConn 0, deleteEpochConn 1].foldl
        (Observed.step id) (.start World.reliable)).world.republished dayNanos = [] := by
      decide +kernel
    obtain ⟨topic, conn, htold⟩ := htick 5 _ ⟨1, false⟩ rfl rfl rfl (by decide) (by decide)
    rw [List.foldl_cons, List.foldl_cons, List.foldl_cons, List.foldl_nil] at hsilent
    rw [hsilent] at htold
    cases htold

end Runs

end Fcore
