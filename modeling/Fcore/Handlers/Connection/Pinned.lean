import Fcore.Handlers.Connection
import Fcore.Handlers.ConnectionSync
import Fcore.Tasks.Tombstones

/-!
# Pinned connections

A connection may be pinned to a node, and is then nobody else's business: messages
about it belong on the init topic of the node. The pin is a column of the row and never
changes. The topic of a message, however, is chosen from the pins in the cache, at four
places, and a deletion drops the pin from the cache while the deletion itself and a
later revival are still to be told.

The main result is that as long as each operation finds the pins of the connections it
tells about in the cache, every message about a pinned connection is on the init topic
of its node. The counterexample is a deletion that is told a second time.
-/

namespace Fcore

/-- Messages with a token go to the authentication service and those of MTProto
connections are not for nodes, so neither follows the pin. -/
def Tag.followsPin (tag : Tag) : Bool := decide (tag ≠ .hysteria2) && decide (tag ≠ .mtproto)

namespace ConnRow

/-- A message about the connection of the row may be on the topic. -/
def Permits (row : ConnRow) (topic : Topic) (message : Message) : Prop :=
  ∀ p, row.nodeId = some p → message.tag.followsPin = true → topic = .init p

def pinAgrees (row : ConnRow) (conn : Conn) (pin : Option Uuid) : Bool :=
  !conn.proto.proto.followsPin || row.nodeId.all fun p => decide (pin = some p)

end ConnRow

/-- The operations that publish, and the reload. -/
inductive PinEvent where
  | create (networks : WgNetworks) (req : CreateConnection) (generated : Generated)
      (now : DateTime)
  | delete (connId : Uuid) (conn : Conn) (reason : Option String) (now : DateTime)
  | republish (now : DateTime)
  | restore (subId : Uuid) (metered : Option (List String)) (now : DateTime)
  | sync (auth : ConnectionsSyncAuth) (req : ConnType)
  | reload

namespace World

/-- The sync endpoint, whose messages leave in one piece. -/
def getConnections (auth : ConnectionsSyncAuth) (req : ConnType) (w : World) :
    World × Except String Reply :=
  match getConnectionsHandler auth req w.mem (w.publishFails w.calls) with
  | .error msg => (w.tick, .error msg)
  | .ok (reply, none) => (w, .ok reply)
  | .ok (reply, some (topic, messages)) =>
    ({ w.tick with bus := w.bus ++ messages.map fun message => (topic, message) }, .ok reply)

def pinStep (lower : String → String) (w : World) : PinEvent → World
  | .create networks req generated now => (w.createConnectionInner networks req generated now).1
  | .delete connId conn reason now => (w.deleteConnection connId conn reason now).1
  | .republish now => w.republishConnDeletes now
  | .restore subId metered now => (w.restoreConnectionsBySubscription subId metered now).1
  | .sync auth req => (w.getConnections auth req).1
  | .reload => (w.getStateFromDb lower).1

/-- Every message about a pinned connection is on the init topic of its node. -/
def PinnedOnly (w : World) : Prop :=
  ∀ topic message row, (topic, message) ∈ w.bus →
    w.db.connections.lookup message.connId = some row → row.Permits topic message

def pinCached (w : World) (c : Uuid × Conn) : Bool :=
  (w.db.connections.lookup c.1).all fun row => row.pinAgrees c.2 (w.mem.connNodes.lookup c.1)

/-- The cache has the pins of the connections an operation is about to tell. -/
def pinsCached (w : World) : PinEvent → Bool
  | .create .. => true
  | .delete connId conn _ _ =>
    (w.mem.connections.lookup connId).all fun existing =>
      existing.isDeleted || w.pinCached (connId, conn)
  | .republish now => (w.mem.staleConns now).all w.pinCached
  | .restore subId metered _ =>
    (w.restorable subId metered).all fun item => w.pinCached (item.1, item.2.1)
  | .sync auth req =>
    match getConnectionsSelected auth req w.mem with
    | .error _ => true
    | .ok selected => selected.all w.pinCached
  | .reload => true

end World

variable {row : ConnRow} {conn : Conn}

theorem ConnRow.permits_connTopic {pin : Option Uuid} (h : row.pinAgrees conn pin = true)
    (action : Action) (c : Uuid) : row.Permits (connTopic conn pin) (conn.asMessage action c) := by
  intro p hp htag
  have htag' : conn.proto.proto.followsPin = true := htag
  have hpin : pin = some p := by simpa [pinAgrees, htag', hp] using h
  cases hproto : conn.proto with
  | hysteria2 token => simp [hproto, Proto.proto, Tag.followsPin] at htag'
  | mtproto secret => simp [hproto, Proto.proto, Tag.followsPin] at htag'
  | _ => simp [connTopic, hproto, Proto.token, Proto.isMtproto, hpin]

theorem ConnRow.permits_createTopic {topic : Topic} (h : createTopic conn row.nodeId = some topic)
    (c : Uuid) : row.Permits topic (conn.asCreateMessage c) := by
  intro p hp htag
  have htag' : conn.proto.proto.followsPin = true := htag
  unfold createTopic at h
  rw [hp] at h
  cases hproto : conn.proto with
  | hysteria2 token => simp [hproto, Proto.proto, Tag.followsPin] at htag'
  | mtproto secret => simp [hproto, Proto.proto, Tag.followsPin] at htag'
  | _ => simpa [hproto, Proto.token, Proto.isMtproto, eq_comm] using h

theorem ConnRow.permits_of_visible {pin : Option Uuid} {topic : Topic}
    (h : row.pinAgrees conn pin = true) (hvisible : syncConnVisible pin topic = true) (c : Uuid) :
    row.Permits topic (conn.asCreateMessage c) := by
  intro p hp htag
  have htag' : conn.proto.proto.followsPin = true := htag
  have hpin : pin = some p := by simpa [pinAgrees, htag', hp] using h
  rw [hpin] at hvisible
  cases topic with
  | init id => simpa [syncConnVisible, eq_comm] using hvisible
  | _ => cases hvisible

/-- Rows stay, with their pins. -/
def Db.RowsKept (db db' : Db) : Prop :=
  ∀ c row, db.connections.lookup c = some row →
    ∃ row', db'.connections.lookup c = some row' ∧ row'.nodeId = row.nodeId

namespace Db.RowsKept

theorem refl (db : Db) : db.RowsKept db := fun _ row hrow => ⟨row, hrow, rfl⟩

theorem of_modify {db db' : Db} {connId : Uuid} {f : ConnRow → ConnRow}
    (hf : ∀ row, (f row).nodeId = row.nodeId)
    (h : db'.connections = db.connections.modify connId f) : db.RowsKept db' := by
  intro c row hrow
  rw [h, AList.lookup_modify, hrow]
  by_cases hc : c = connId
  · exact ⟨f row, by simp [hc], hf row⟩
  · exact ⟨row, by simp [hc], rfl⟩

end Db.RowsKept

namespace World

/-- What every operation keeps: a cached connection is stored, and so is one that was
told about, with a row that permits what was told. -/
structure PinsKept (w : World) : Prop where
  stored : ∀ c conn, w.mem.connections.lookup c = some conn →
    ∃ row, w.db.connections.lookup c = some row
  told : ∀ topic message, (topic, message) ∈ w.bus →
    ∃ row, w.db.connections.lookup message.connId = some row ∧ row.Permits topic message

namespace PinsKept

variable {w w' : World}

theorem pinnedOnly (h : w.PinsKept) : w.PinnedOnly := by
  intro topic message row hmem hrow
  obtain ⟨row', hrow', hpermits⟩ := h.told topic message hmem
  rw [hrow] at hrow'
  cases hrow'
  exact hpermits

theorem move (h : w.PinsKept) (hrows : w.db.RowsKept w'.db)
    (hcached : ∀ c conn, w'.mem.connections.lookup c = some conn →
      (∃ conn', w.mem.connections.lookup c = some conn') ∨
        ∃ row, w'.db.connections.lookup c = some row)
    (hbus : ∀ e ∈ w'.bus, e ∈ w.bus ∨
      ∃ row, w'.db.connections.lookup e.2.connId = some row ∧ row.Permits e.1 e.2) :
    w'.PinsKept := by
  constructor
  · intro c conn hconn
    rcases hcached c conn hconn with ⟨conn', hconn'⟩ | hrow
    · obtain ⟨row, hrow⟩ := h.stored c conn' hconn'
      obtain ⟨row', hrow', -⟩ := hrows c row hrow
      exact ⟨row', hrow'⟩
    · exact hrow
  · intro topic message hmem
    rcases hbus (topic, message) hmem with hold | hnew
    · obtain ⟨row, hrow, hpermits⟩ := h.told topic message hold
      obtain ⟨row', hrow', hpin⟩ := hrows _ row hrow
      exact ⟨row', hrow', fun p hp => hpermits p (hpin ▸ hp)⟩
    · exact hnew

theorem of_eq (h : w.PinsKept) (hmem : w'.mem = w.mem) (hdb : w'.db = w.db)
    (hbus : w'.bus = w.bus) : w'.PinsKept :=
  ⟨by rw [hmem, hdb]; exact h.stored, by rw [hbus, hdb]; exact h.told⟩

theorem publish (h : w.PinsKept) {topic : Topic} {message : Message} {row : ConnRow}
    (hrow : w.db.connections.lookup message.connId = some row)
    (hpermits : row.Permits topic message) : (w.publish topic message).1.PinsKept := by
  constructor
  · rw [publish_mem, publish_db]
    exact h.stored
  · intro topic' message' hmem
    rw [publish_db]
    rcases mem_bus_publish hmem with hmem | heq
    · exact h.told topic' message' hmem
    · cases heq
      exact ⟨row, hrow, hpermits⟩

variable {conn : Conn} {connId : Uuid}

theorem publishConn (h : w.PinsKept) {c : Uuid} {cached : Conn}
    (hcached : w.mem.connections.lookup c = some cached) {pin : Option Uuid}
    (hpin : ∀ row, w.db.connections.lookup c = some row → row.pinAgrees conn pin = true)
    (action : Action) : (w.publish (connTopic conn pin) (conn.asMessage action c)).1.PinsKept := by
  obtain ⟨row, hrow⟩ := h.stored c cached hcached
  exact h.publish hrow (ConnRow.permits_connTopic (hpin row hrow) action c)

theorem cached_of_modify {connections : Table Uuid Conn} {f : Conn → Conn} {c : Uuid} {conn : Conn}
    (h : (connections.modify connId f).lookup c = some conn) :
    ∃ conn', connections.lookup c = some conn' := by
  rw [AList.lookup_modify] at h
  obtain ⟨conn', hconn', -⟩ := Option.map_eq_some_iff.mp h
  exact ⟨conn', hconn'⟩

theorem createConnectionInner (h : w.PinsKept) (networks : WgNetworks) (req : CreateConnection)
    (generated : Generated) (now : DateTime) :
    (w.createConnectionInner networks req generated now).1.PinsKept := by
  rcases createConnectionInner_eq networks req generated now w with
    ⟨_, _, heq⟩ | ⟨conn, db, bus, _, -, hinsert, hbus, heq⟩ <;> rw [heq]
  · exact h.of_eq rfl rfl rfl
  obtain ⟨hnew, rfl⟩ := insertConnection_cases hinsert
  apply h.move
  · intro c row hrow
    have hc : c ≠ generated.connId := by
      rintro rfl
      exact absurd (hnew.symm.trans hrow) (by simp)
    exact ⟨row, (AList.lookup_insert_ne hc).trans hrow, rfl⟩
  · intro c conn' hconn'
    by_cases hc : c = generated.connId
    · exact .inr ⟨_, by rw [hc]; exact AList.lookup_insert _⟩
    · rw [lookup_addConn, if_neg hc] at hconn'
      exact .inl ⟨conn', hconn'⟩
  · rintro ⟨topic, message⟩ he
    rcases hbus _ he with hold | ⟨htopic, rfl⟩
    · exact .inl hold
    · exact .inr ⟨_, AList.lookup_insert _, ConnRow.permits_createTopic htopic _⟩

theorem deleteConnection (h : w.PinsKept) {reason : Option String} {now : DateTime}
    (hpin : w.pinsCached (.delete connId conn reason now) = true) :
    (w.deleteConnection connId conn reason now).1.PinsKept := by
  have hrows : w.db.RowsKept (w.db.deleteConnection connId reason) :=
    .of_modify (f := Db.markConnDeleted reason) (fun _ => rfl) rfl
  rcases deleteConnection_eq connId conn reason now w with
    ⟨-, _, -, heq⟩ | ⟨⟨existing, hlookup, hlive⟩, ⟨_, heq⟩ | ⟨_, heq⟩ | heq⟩ <;> rw [heq]
  · exact h
  · exact h.of_eq rfl rfl rfl
  · exact h.move hrows (fun _ conn hconn => .inl ⟨conn, hconn⟩) fun _ he => .inl he
  · apply h.move hrows
    · exact fun c _ hconn => .inl (cached_of_modify hconn)
    · rintro e he
      rcases List.mem_append.mp he with hold | hnew
      · exact .inl hold
      cases List.mem_singleton.mp hnew
      obtain ⟨row, hrow⟩ := h.stored connId existing hlookup
      have hagrees : row.pinAgrees conn (w.mem.connNodes.lookup connId) = true := by
        simpa [pinsCached, pinCached, hlookup, hlive, hrow] using hpin
      refine .inr ⟨Db.markConnDeleted reason row, ?_, ConnRow.permits_connTopic hagrees _ _⟩
      exact (AList.lookup_modify_self ..).trans (congrArg (Option.map _) hrow)

theorem republishConnDeletes (h : w.PinsKept) {now : DateTime}
    (hpin : w.pinsCached (.republish now) = true) : (w.republishConnDeletes now).PinsKept := by
  have hkept : (w.republishConnDeletes now).PinsKept ∧
      (w.republishConnDeletes now).mem = w.mem ∧ (w.republishConnDeletes now).db = w.db := by
    apply Run.invariant_foldl (I := fun w' : World => w'.PinsKept ∧ w'.mem = w.mem ∧ w'.db = w.db)
      ⟨h, rfl, rfl⟩
    rintro w' c hc ⟨hw', hmem, hdb⟩
    refine ⟨?_, (publish_mem _ _ w').trans hmem, (publish_db _ _ w').trans hdb⟩
    have hcached : w.pinCached c = true := List.all_eq_true.mp hpin c hc
    obtain ⟨e, he, rfl⟩ := List.mem_map.mp hc
    have hlookup : w'.mem.connections.lookup e.1 = some e.2 := by
      rw [hmem]
      exact AList.lookup_of_mem_entries (List.mem_of_mem_filter he)
    apply hw'.publishConn hlookup
    intro row hrow
    rw [hdb] at hrow
    rw [hmem]
    simpa [pinCached, hrow] using hcached
  exact hkept.1

theorem restoreConnection (h : w.PinsKept) (connId : Uuid) (now : DateTime) :
    (w.restoreConnection connId now).1.PinsKept ∧
      w.db.RowsKept (w.restoreConnection connId now).1.db := by
  rcases restoreConnection_eq connId now w with ⟨-, heq⟩ | ⟨_, heq⟩ | ⟨-, heq⟩ <;> rw [heq]
  · exact ⟨h, .refl _⟩
  · exact ⟨h.of_eq rfl rfl rfl, .refl _⟩
  · have hrows : w.db.RowsKept { w.db with
        connections := w.db.connections.modify connId Db.markConnRestored } :=
      .of_modify (f := Db.markConnRestored) (fun _ => rfl) rfl
    exact ⟨h.move hrows (fun c _ hconn => .inl (cached_of_modify hconn)) fun _ he => .inl he,
      hrows⟩

end PinsKept

/-- A connection to be revived comes with the pin of its row. -/
def ItemPinned (w : World) (item : Uuid × Conn × Option Uuid) : Prop :=
  ∃ row, w.db.connections.lookup item.1 = some row ∧ row.pinAgrees item.2.1 item.2.2 = true

theorem ItemPinned.of_rowsKept {w w' : World} {item : Uuid × Conn × Option Uuid}
    (h : w.ItemPinned item) (hrows : w.db.RowsKept w'.db) : w'.ItemPinned item := by
  obtain ⟨row, hrow, hpin⟩ := h
  obtain ⟨row', hrow', hnode⟩ := hrows item.1 row hrow
  exact ⟨row', hrow', by rwa [ConnRow.pinAgrees, hnode]⟩

namespace PinsKept

variable {w : World}

theorem restoreOne (h : w.PinsKept) {item : Uuid × Conn × Option Uuid} (hitem : w.ItemPinned item)
    (now : DateTime) :
    (w.restoreOne now item).1.PinsKept ∧ w.db.RowsKept (w.restoreOne now item).1.db := by
  obtain ⟨row, hrow, hpin⟩ := hitem
  have hpublished : (w.publish (connTopic item.2.1 item.2.2)
      (item.2.1.asUpdateMessage item.1)).1.PinsKept :=
    h.publish hrow (ConnRow.permits_connTopic hpin .update item.1)
  have hdb := publish_db (connTopic item.2.1 item.2.2) (item.2.1.asUpdateMessage item.1) w
  unfold World.restoreOne
  split
  · rename_i w' _ hw'
    rw [hw'] at hpublished hdb
    exact ⟨hpublished, by rw [hdb]; exact .refl _⟩
  · rename_i w' hw'
    rw [hw'] at hpublished hdb
    have hrestored := hpublished.restoreConnection item.1 now
    rw [hdb] at hrestored
    split <;> (rename_i heq; rw [heq] at hrestored; exact hrestored)

theorem restoreAll (h : w.PinsKept) {items : List (Uuid × Conn × Option Uuid)}
    (hitems : ∀ item ∈ items, w.ItemPinned item) (now : DateTime) :
    (restoreAll now items w).1.PinsKept := by
  induction items generalizing w with
  | nil => exact h
  | cons item items ih =>
    obtain ⟨hone, hrows⟩ := h.restoreOne (hitems item List.mem_cons_self) now
    apply ih hone
    intro later hlater
    exact (hitems later (List.mem_cons_of_mem _ hlater)).of_rowsKept hrows

theorem restoreConnectionsBySubscription (h : w.PinsKept) {subId : Uuid}
    {metered : Option (List String)} {now : DateTime}
    (hpin : w.pinsCached (.restore subId metered now) = true) :
    (w.restoreConnectionsBySubscription subId metered now).1.PinsKept := by
  obtain ⟨w', hmem, hdb, hbus, hsame | hrestored⟩ :=
    restoreConnectionsBySubscription_cases subId metered now w
  · rw [hsame]
    exact h.of_eq hmem hdb hbus
  rw [hrestored]
  apply (h.of_eq hmem hdb hbus).restoreAll
  intro item hitem
  have hcached : w.pinCached (item.1, item.2.1) = true := List.all_eq_true.mp hpin item hitem
  have hdeleted : item ∈ w.mem.deletedConns subId := List.mem_of_mem_filter hitem
  obtain ⟨conn, hconn, -⟩ := Option.map_eq_some_iff.mp (cached_of_mem_deletedConns hdeleted)
  obtain ⟨row, hrow⟩ := h.stored item.1 conn hconn
  -- the pin of the item was read from the cache
  obtain ⟨c, -, rfl⟩ := List.mem_map.mp hdeleted
  refine ⟨row, by rw [hdb]; exact hrow, ?_⟩
  simpa [pinCached, hrow] using hcached

theorem getConnections (h : w.PinsKept) {auth : ConnectionsSyncAuth} {req : ConnType}
    (hpin : w.pinsCached (.sync auth req) = true) : (w.getConnections auth req).1.PinsKept := by
  unfold World.getConnections
  split
  · exact h.of_eq rfl rfl rfl
  · exact h
  · rename_i reply topic messages hhandler
    obtain ⟨selected, hselected, rfl, hvisible⟩ := getConnectionsHandler_published hhandler
    have hcached : ∀ c ∈ selected, w.pinCached c = true := by
      simpa [pinsCached, hselected] using hpin
    refine ⟨h.stored, fun topic' message hmem => ?_⟩
    rcases List.mem_append.mp hmem with hmem | hmem
    · exact h.told topic' message hmem
    · simp only [List.map_map, List.mem_map] at hmem
      obtain ⟨c, hc, heq⟩ := hmem
      cases heq
      obtain ⟨hlookup, hseen⟩ := hvisible c hc
      obtain ⟨row, hrow⟩ := h.stored c.1 c.2 hlookup
      have hagrees : row.pinAgrees c.2 (w.mem.connNodes.lookup c.1) = true := by
        simpa [pinCached, hrow] using hcached c hc
      exact ⟨row, hrow, ConnRow.permits_of_visible hagrees hseen c.1⟩

theorem getStateFromDb (h : w.PinsKept) (lower : String → String) :
    (w.getStateFromDb lower).1.PinsKept := by
  rcases getStateFromDb_cases lower w with ⟨-, hmem, hdb, hbus⟩ | ⟨-, hdb, hbus, hrebuild⟩
  · exact h.of_eq hmem hdb hbus
  · refine ⟨fun c conn hconn => ?_, by rw [hbus, hdb]; exact h.told⟩
    cases hrow : w.db.connections.lookup c with
    | none =>
      rw [(Db.rebuild_conn_none hrebuild hrow).1] at hconn
      cases hconn
    | some row => exact ⟨row, by rw [hdb]; exact hrow⟩

theorem step (h : w.PinsKept) {lower : String → String} {event : PinEvent}
    (hpin : w.pinsCached event = true) : (w.pinStep lower event).PinsKept := by
  cases event with
  | create networks req generated now => exact h.createConnectionInner networks req generated now
  | delete connId conn reason now => exact h.deleteConnection hpin
  | republish now => exact h.republishConnDeletes hpin
  | restore subId metered now => exact h.restoreConnectionsBySubscription hpin
  | sync auth req => exact h.getConnections hpin
  | reload => exact h.getStateFromDb lower

end PinsKept

/-- Along every run whose operations find the pins they need in the cache, messages
about pinned connections are for their nodes only. At the start nothing was told, and
every cached connection is stored. -/
theorem pinned_messages_for_node {lower : String → String} {w : World} {events : List PinEvent}
    (hbus : w.bus = [])
    (hstored : ∀ c conn, w.mem.connections.lookup c = some conn →
      ∃ row, w.db.connections.lookup c = some row)
    (hpins : Run.Along (pinStep lower) (fun w event => w.pinsCached event = true) w events) :
    ∀ w' ∈ events.scanl (pinStep lower) w, w'.PinnedOnly := by
  have hstart : w.PinsKept := ⟨hstored, fun topic message h => by rw [hbus] at h; cases h⟩
  intro w' hw'
  apply PinsKept.pinnedOnly
  exact Run.invariant_scanl (I := fun w : World => w.PinsKept) (fun _ _ h hpin => h.step hpin)
    hstart hpins w' hw'

section Runs

/-- A connection that exists on node 9 only. -/
def createPinned : PinEvent :=
  .create ⟨⟨.v4 0, 24⟩, ⟨.v4 0, 24⟩, none⟩
    ⟨.production, .vmess, none, none, none, some 9, none, true⟩ ⟨5, ⟨""⟩, "", 0, ""⟩ 0

def deletePinned : PinEvent :=
  .delete 5 (.new .production none (.xray .vmess) none 0) none 1

/-- A reload between the deletion and its repetition puts the pin back. -/
theorem pinned_messages_for_node_reloaded :
    reliable.bus = [] ∧
      ∀ w' ∈ [createPinned, deletePinned, .reload, .republish 2].scanl (pinStep id) reliable,
        w'.PinnedOnly :=
  ⟨rfl, pinned_messages_for_node rfl (by intro c conn h; cases h) (by decide +kernel)⟩

/-- Without the reload, the deletion is repeated to every node of the environment. -/
theorem not_pinned_messages_for_node :
    reliable.bus = [] ∧
      ¬ ∀ w' ∈ [createPinned, deletePinned, .republish 2].scanl (pinStep id) reliable,
        w'.PinnedOnly := by
  refine ⟨rfl, fun h => ?_⟩
  have hlast := h _ (List.mem_of_getLast? rfl)
  have htold : (Topic.updates .production,
      (Conn.new .production none (.xray .vmess) none 0).asDeleteMessage 5) ∈
        ([createPinned, deletePinned, .republish 2].foldl (pinStep id) reliable).bus := by
    decide +kernel
  have hrow : (([createPinned, deletePinned, .republish 2].foldl (pinStep id)
      reliable).db.connections.lookup 5).map ConnRow.nodeId = some (some 9) := by
    decide +kernel
  obtain ⟨row, hrow, hpin⟩ := Option.map_eq_some_iff.mp hrow
  exact absurd (hlast _ _ row htold hrow 9 hpin rfl) (by simp)

end Runs

end World

end Fcore
