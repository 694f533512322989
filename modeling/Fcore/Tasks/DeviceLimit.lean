import Fcore.Tasks.Spending

/-!
# What the device limit achieves

A connection that is over the limit for long enough is to be replaced and deleted. The
replacement is stored while the old connection is still live, and the index
`connections_single_proto_idx` allows one live connection of a protocol only, the
WireGuard family and share children apart. So a connection is replaced exactly if the
index has nothing in the way (`kicked_iff`).

A turn changes nothing about connections other than the one it visits and the one it
creates, so what holds of a connection when its turn comes, or right after it, carries over
to the pass.
-/

namespace Fcore

namespace Cache

theorem mem_liteConns {mem : Cache} {item : Uuid × Uuid × Conn} : item ∈ mem.liteConns ↔
    (∃ sub, mem.subscriptions.lookup item.2.1 = some sub ∧ sub.planKind = .lite) ∧
      mem.connections.lookup item.1 = some item.2.2 ∧
      item.2.2.subscriptionId = some item.2.1 ∧ item.2.2.isDeleted = false := by
  obtain ⟨c, subId, conn⟩ := item
  simp only [liteConns, List.mem_flatMap, List.mem_filter, List.mem_map, decide_eq_true_eq]
  constructor
  · rintro ⟨e, ⟨hsub, hlite⟩, ⟨c', conn'⟩, hconn, heq⟩
    cases heq
    exact ⟨⟨e.2, AList.lookup_of_mem_entries hsub, hlite⟩, World.mem_liveConns.mp hconn⟩
  · rintro ⟨⟨sub, hsub, hlite⟩, hconn⟩
    exact ⟨⟨subId, sub⟩, ⟨AList.mem_entries_iff.mpr hsub, hlite⟩, (c, conn),
      World.mem_liveConns.mpr hconn, rfl⟩

theorem nodup_liveConns (mem : Cache) (subId : Uuid) :
    ((mem.liveConns subId).map Prod.fst).Nodup := by
  have hkeys : (((mem.connections.getBySubscriptionId subId).getD []).map Prod.fst).Nodup := by
    rw [Connections.getBySubscriptionId_getD, List.map_map]
    exact mem.connections.nodupKeys.sublist List.filter_sublist
  exact hkeys.sublist (List.filter_sublist.map _)

theorem nodup_liteConns (mem : Cache) : (mem.liteConns.map Prod.fst).Nodup := by
  have hsubs : (mem.subscriptions.entries.filter fun e =>
      decide (e.2.planKind = .lite)).Pairwise fun e e' => e.1 ≠ e'.1 :=
    (List.pairwise_map.mp mem.subscriptions.nodupKeys).sublist List.filter_sublist
  rw [liteConns, List.map_flatMap, List.nodup_flatMap]
  constructor
  · intro e _
    rw [List.map_map]
    exact mem.nodup_liveConns e.1
  · apply hsubs.imp
    intro e e' hne
    -- a connection belongs to one subscription
    change List.Disjoint _ _
    rw [List.disjoint_left]
    simp only [List.map_map, List.mem_map, Function.comp_apply, not_exists, not_and]
    rintro c ⟨item, hitem, rfl⟩ item' hitem' heq
    obtain ⟨hconn, howner, -⟩ := World.mem_liveConns.mp hitem
    obtain ⟨hconn', howner', -⟩ := World.mem_liveConns.mp hitem'
    rw [heq, hconn] at hconn'
    rw [← Option.some.inj hconn', howner] at howner'
    exact hne (Option.some.inj howner')

end Cache

namespace DevicePass

variable {networks : WgNetworks} {maxTicks : ℕ} {pass : DevicePass} {s : World × Strikes}
  {c subId : Uuid} {conn : Conn}

/-- The creation a turn tries for a connection that has enough strikes. -/
def create (networks : WgNetworks) (pass : DevicePass) (item : Uuid × Uuid × Conn) (w : World) :
    World × Except String (Uuid × Conn) :=
  w.createConnectionInner networks (reissue item.2.1 item.2.2) (pass.generated item.1) pass.now

/-- All that a turn can do. -/
theorem visit_cases (networks : WgNetworks) (maxTicks : ℕ) (pass : DevicePass)
    (s : World × Strikes) (item : Uuid × Uuid × Conn) :
    (pass.metrics.getConnectionOnlineCount item.1 ≤ 1 ∧
      pass.visit networks maxTicks s item = (s.1, AList.erase item.1 s.2)) ∨
    (1 < pass.metrics.getConnectionOnlineCount item.1 ∧ countAt s.2 item.1 < maxTicks ∧
      pass.visit networks maxTicks s item =
        (s.1, AList.insert item.1 (countAt s.2 item.1) s.2)) ∨
    (1 < pass.metrics.getConnectionOnlineCount item.1 ∧ maxTicks ≤ countAt s.2 item.1 ∧
      (∃ msg, (pass.create networks item s.1).2 = .error msg) ∧
      pass.visit networks maxTicks s item =
        ((pass.create networks item s.1).1, AList.insert item.1 (countAt s.2 item.1) s.2)) ∨
    (1 < pass.metrics.getConnectionOnlineCount item.1 ∧ maxTicks ≤ countAt s.2 item.1 ∧
      (∃ made, (pass.create networks item s.1).2 = .ok made) ∧
      pass.visit networks maxTicks s item =
        (((pass.create networks item s.1).1.deleteConnection item.1 item.2.2
            (some DeleteReason.deviceKick) pass.now).1,
          AList.erase item.1 (AList.insert item.1 (countAt s.2 item.1) s.2))) := by
  unfold visit strike
  by_cases honline : pass.metrics.getConnectionOnlineCount item.1 ≤ 1
  · rw [if_pos honline]
    exact .inl ⟨honline, rfl⟩
  · rw [if_neg honline]
    rw [not_le] at honline
    dsimp only
    split
    · rename_i hcount
      exact .inr (.inl ⟨honline, hcount, rfl⟩)
    · rename_i hcount
      rw [not_lt] at hcount
      unfold create
      split
      · rename_i w msg hcreate
        rw [hcreate]
        exact .inr (.inr (.inl ⟨honline, hcount, ⟨msg, rfl⟩, rfl⟩))
      · rename_i w made hcreate
        rw [hcreate]
        exact .inr (.inr (.inr ⟨honline, hcount, ⟨made, rfl⟩, rfl⟩))

variable {w : World}

section Frame

/-- What is known of a stored connection, its strikes, and the share tokens, before and
after turns of other connections. -/
structure Keeps (c : Uuid) (s s' : World × Strikes) : Prop where
  view : (s.1.view c).row.isSome = true → s'.1.view c = s.1.view c
  strikes : s'.2.lookup c = s.2.lookup c
  tokens : s'.1.db.shareTokens = s.1.db.shareTokens

theorem Keeps.refl (c : Uuid) (s : World × Strikes) : Keeps c s s := ⟨fun _ => rfl, rfl, rfl⟩

theorem Keeps.trans {s₁ s₂ s₃ : World × Strikes} (h : Keeps c s₁ s₂) (h' : Keeps c s₂ s₃) :
    Keeps c s₁ s₃ where
  view hstored := (h'.view (by rw [h.view hstored]; exact hstored)).trans (h.view hstored)
  strikes := h'.strikes.trans h.strikes
  tokens := h'.tokens.trans h.tokens

theorem view_create (networks : WgNetworks) (pass : DevicePass) (item : Uuid × Uuid × Conn)
    (hstored : (w.view c).row.isSome = true) :
    (pass.create networks item w).1.view c = w.view c := by
  rcases World.view_createConnectionInner networks (reissue item.2.1 item.2.2)
    (pass.generated item.1) pass.now w with ⟨-, hview⟩ | ⟨conn, -, -, hnew, hview⟩
  · exact hview c
  · refine (hview c).trans (if_neg ?_)
    rintro rfl
    rw [hnew] at hstored
    cases hstored

theorem shareTokens_create (networks : WgNetworks) (pass : DevicePass)
    (item : Uuid × Uuid × Conn) (w : World) :
    (pass.create networks item w).1.db.shareTokens = w.db.shareTokens := by
  rcases World.createConnectionInner_eq networks (reissue item.2.1 item.2.2)
    (pass.generated item.1) pass.now w with ⟨_, _, h⟩ | ⟨_, db, _, _, -, hinsert, -, h⟩
  · rw [create, h]
  · rw [create, h, (World.insertConnection_cases hinsert).2]

theorem view_deleteConnection_of_ne {connId : Uuid} {reason : Option String} {now : DateTime}
    (hne : c ≠ connId) : (w.deleteConnection connId conn reason now).1.view c = w.view c := by
  rcases World.view_deleteConnection connId conn reason now w with
    ⟨-, -, hsame⟩ | ⟨-, -, hview | hview⟩ | ⟨-, -, hview⟩
  · rw [hsame]
  · exact hview c
  · exact (hview c).trans (if_neg hne)
  · exact (hview c).trans (if_neg hne)

theorem shareTokens_deleteConnection (connId : Uuid) (conn : Conn) (reason : Option String)
    (now : DateTime) (w : World) :
    (w.deleteConnection connId conn reason now).1.db.shareTokens = w.db.shareTokens := by
  rcases World.deleteConnection_eq connId conn reason now w with
    ⟨-, _, -, h⟩ | ⟨-, ⟨_, h⟩ | ⟨_, h⟩ | h⟩ <;> rw [h] <;> rfl

theorem keeps_visit {item : Uuid × Uuid × Conn} (hne : c ≠ item.1) (s : World × Strikes) :
    Keeps c s (pass.visit networks maxTicks s item) := by
  rcases visit_cases networks maxTicks pass s item with
    ⟨-, h⟩ | ⟨-, -, h⟩ | ⟨-, -, -, h⟩ | ⟨-, -, -, h⟩
  · rw [h]
    exact ⟨fun _ => rfl, AList.lookup_erase_ne hne, rfl⟩
  · rw [h]
    exact ⟨fun _ => rfl, AList.lookup_insert_ne hne, rfl⟩
  · rw [h]
    exact ⟨view_create networks pass item, AList.lookup_insert_ne hne,
      shareTokens_create networks pass item s.1⟩
  · rw [h]
    refine ⟨fun hstored => ?_, ?_, ?_⟩
    · exact (view_deleteConnection_of_ne hne).trans (view_create networks pass item hstored)
    · rw [AList.lookup_erase_ne hne, AList.lookup_insert_ne hne]
    · exact (shareTokens_deleteConnection _ _ _ _ _).trans
        (shareTokens_create networks pass item s.1)

theorem keeps_foldl {items : List (Uuid × Uuid × Conn)} (hne : ∀ item ∈ items, c ≠ item.1)
    (s : World × Strikes) : Keeps c s (items.foldl (pass.visit networks maxTicks) s) :=
  Run.rel_foldl (Keeps.refl c) (fun _ _ _ h h' => h.trans h')
    (fun s' item hitem => keeps_visit (hne item hitem) s') s

end Frame

/-- The state in which the turn of a connection begins. -/
def atTurn (networks : WgNetworks) (maxTicks : ℕ) (pass : DevicePass) (s : World × Strikes)
    (c : Uuid) : World × Strikes :=
  (s.1.mem.liteConns.takeWhile fun item => decide (item.1 ≠ c)).foldl
    (pass.visit networks maxTicks) (started s)

theorem liteConns_split {mem : Cache} (hmem : (c, subId, conn) ∈ mem.liteConns) :
    ∃ rest, mem.liteConns = mem.liteConns.takeWhile (fun item => decide (item.1 ≠ c)) ++
        (c, subId, conn) :: rest ∧
      (∀ item ∈ mem.liteConns.takeWhile (fun item => decide (item.1 ≠ c)), c ≠ item.1) ∧
      ∀ item ∈ rest, c ≠ item.1 ∧ item ∈ mem.liteConns := by
  obtain ⟨before, rest, hsplit⟩ := List.append_of_mem hmem
  have hnodup := mem.nodup_liteConns
  rw [hsplit, List.map_append, List.map_cons, List.nodup_middle, List.nodup_cons,
    ← List.map_append] at hnodup
  have hne : ∀ item ∈ before ++ rest, c ≠ item.1 := by
    intro item hitem heq
    exact hnodup.1 (List.mem_map.mpr ⟨item, hitem, heq.symm⟩)
  have hbefore : mem.liteConns.takeWhile (fun item => decide (item.1 ≠ c)) = before := by
    rw [hsplit, List.takeWhile_append_of_pos, List.takeWhile_cons_of_neg, List.append_nil]
    · simp
    · intro item hitem
      exact decide_eq_true (hne item (List.mem_append_left _ hitem)).symm
  rw [hbefore]
  refine ⟨rest, hsplit, fun item hitem => hne item (List.mem_append_left _ hitem),
    fun item hitem => ⟨hne item (List.mem_append_right _ hitem), ?_⟩⟩
  rw [hsplit]
  exact List.mem_append_right _ (List.mem_cons_of_mem _ hitem)

/-- A pass is the turn of a connection, with turns of others before and after it. -/
theorem keeps_turn (networks : WgNetworks) (maxTicks : ℕ) (pass : DevicePass)
    (hmem : (c, subId, conn) ∈ s.1.mem.liteConns) :
    Keeps c s (pass.atTurn networks maxTicks s c) ∧
      ∀ c', (c' = c ∨ s.1.mem.connections.lookup c' = none) →
        Keeps c' (pass.visit networks maxTicks (pass.atTurn networks maxTicks s c)
          (c, subId, conn)) (pass.enforceDeviceLimit networks maxTicks s) := by
  obtain ⟨rest, hsplit, hbefore, hrest⟩ := liteConns_split hmem
  constructor
  · have hstarted : Keeps c s (started s) := by
      refine ⟨fun _ => rfl, ?_, rfl⟩
      have hvisited : (s.1.mem.liteConns.any fun item => decide (item.1 = c)) = true :=
        List.any_eq_true.mpr ⟨_, hmem, decide_eq_true rfl⟩
      rw [started, AList.lookup_filterRows]
      simp only [hvisited]
      cases s.2.lookup c <;> rfl
    exact hstarted.trans (keeps_foldl hbefore _)
  · intro c' hc'
    have hpass : pass.enforceDeviceLimit networks maxTicks s =
        rest.foldl (pass.visit networks maxTicks) (pass.visit networks maxTicks
          (pass.atTurn networks maxTicks s c) (c, subId, conn)) :=
      calc pass.enforceDeviceLimit networks maxTicks s
          = s.1.mem.liteConns.foldl (pass.visit networks maxTicks) (started s) := rfl
        _ = (s.1.mem.liteConns.takeWhile (fun item => decide (item.1 ≠ c)) ++
              (c, subId, conn) :: rest).foldl (pass.visit networks maxTicks) (started s) := by
            rw [← hsplit]
        _ = _ := by
            rw [List.foldl_append]
            rfl
    rw [hpass]
    apply keeps_foldl
    intro item hitem
    obtain ⟨hne, hvisited⟩ := hrest item hitem
    rcases hc' with rfl | hnone
    · exact hne
    · rintro rfl
      rw [(Cache.mem_liteConns.mp hvisited).2.1] at hnone
      cases hnone

section Reissue

/-- A live row of the subscription, the environment and the protocol is in the way of
another one. -/
def SlotTaken (db : Db) (subId : Uuid) (conn : Conn) : Prop :=
  ∃ c row, db.connections.lookup c = some row ∧ row.inSingleProtoIdx = true ∧
    row.subscriptionId = some subId ∧ row.env = conn.env.asStr ∧
    row.proto.proto = conn.proto.proto

/-- Nothing but the index stands against the reissue: no call fails, a new connection can
be prepared, its identifier and its token are new, and the subscription is stored. -/
structure Unhindered (networks : WgNetworks) (pass : DevicePass) (c subId : Uuid) (conn : Conn)
    (w : World) : Prop where
  db : w.DbReliable
  publisher : ∀ n, w.publishFails n = false
  prepared : ∃ made,
    prepareConnection networks (reissue subId conn) (pass.generated c) pass.now w.mem = .ok made ∧
      ∀ c' row, w.db.connections.lookup c' = some row →
        (World.newRow made none none none true).sameToken row = false
  fresh : (w.view (pass.generated c).connId).conn = none ∧
    (w.view (pass.generated c).connId).row = none
  subscription : (w.db.subscriptions.lookup subId).isSome = true

/-- What is prepared for a reissue is live, and has owner, environment and protocol of the
connection it replaces. -/
structure Replaces (subId : Uuid) (conn made : Conn) : Prop where
  owner : made.subscriptionId = some subId
  env : made.env = conn.env
  proto : made.proto.proto = conn.proto.proto
  live : made.isDeleted = false

theorem replaces_of_prepareConnection {generated : Generated} {now : DateTime} {mem : Cache}
    {made : Conn}
    (h : prepareConnection networks (reissue subId conn) generated now mem = .ok made) :
    Replaces subId conn made := by
  obtain ⟨-, -, hrest⟩ := exists_of_bind_ok h
  obtain ⟨-, -, hrest⟩ := exists_of_bind_ok hrest
  obtain ⟨proto, hproto, hmade⟩ := exists_of_bind_ok hrest
  cases hmade
  exact ⟨rfl, rfl, (newProto_ok hproto).1, rfl⟩

theorem conflicts_newRow {made : Conn} (hmade : Replaces subId conn made) {row : ConnRow}
    (htoken : (World.newRow made none none none true).sameToken row = false) :
    (World.newRow made none none none true).conflicts row = true ↔
      row.inSingleProtoIdx = true ∧ row.subscriptionId = some subId ∧
        row.env = conn.env.asStr ∧ row.proto.proto = conn.proto.proto := by
  have howner := hmade.owner
  have henv := hmade.env
  have hproto := hmade.proto
  have hlive := hmade.live
  rw [ConnRow.conflicts, htoken]
  simp only [World.newRow, ConnRow.ofConn, ConnRow.inSingleProtoIdx, ConnRow.inPlanIdx,
    ConnRow.sameSlot, howner, henv, hproto, hlive]
  constructor
  · intro h
    simp at h
    obtain ⟨⟨-, hidx⟩, hslot⟩ := h
    simp [hidx, hslot]
  · rintro ⟨hidx, hsub, henv', hproto'⟩
    simp_all

theorem insertConnection_ok_iff {db : Db} {connId : Uuid} {row : ConnRow}
    (hfresh : db.connections.lookup connId = none) (howner : row.subscriptionId = some subId)
    (hsub : (db.subscriptions.lookup subId).isSome = true) :
    (∃ db', db.insertConnection connId row = .ok (db', ())) ↔
      ∀ c row', db.connections.lookup c = some row' → row.conflicts row' = false := by
  have hstored :
      (row.subscriptionId.any fun id => (db.subscriptions.lookup id).isNone) = false := by
    rw [howner, Option.any_some, Option.isNone_eq_false_iff]
    exact hsub
  have hrefused : db.connRefused connId row = false ↔
      ∀ c row', db.connections.lookup c = some row' → row.conflicts row' = false := by
    simp only [Db.connRefused, List.any_eq_false, Bool.and_eq_true, decide_eq_true_eq, not_and,
      Bool.not_eq_true]
    constructor
    · intro h c row' hrow'
      refine h ⟨c, row'⟩ (AList.mem_entries_iff.mpr hrow') ?_
      rintro rfl
      rw [hfresh] at hrow'
      cases hrow'
    · intro h e he _
      exact h e.1 e.2 (AList.lookup_of_mem_entries he)
  unfold Db.insertConnection
  rw [hfresh, hstored, ← hrefused]
  cases db.connRefused connId row <;> simp

theorem create_ok_iff (h : Unhindered networks pass c subId conn w) :
    (∃ made, (pass.create networks (c, subId, conn) w).2 = .ok made) ↔
      ¬ SlotTaken w.db subId conn := by
  obtain ⟨made, hprepare, htoken⟩ := h.prepared
  have hmade := replaces_of_prepareConnection hprepare
  have howner : (World.newRow made none none none true).subscriptionId = some subId := hmade.owner
  refine (World.createConnectionInner_ok_iff h.db hprepare).trans
    ((insertConnection_ok_iff h.fresh.2 howner h.subscription).trans ?_)
  constructor
  · rintro hall ⟨c', row, hrow, htaken⟩
    have hfalse := hall c' row hrow
    rw [(conflicts_newRow hmade (htoken c' row hrow)).mpr htaken] at hfalse
    cases hfalse
  · intro hfree c' row hrow
    apply Bool.eq_false_iff.mpr
    intro hconflict
    exact hfree ⟨c', row, hrow, (conflicts_newRow hmade (htoken c' row hrow)).mp hconflict⟩

/-- The connection is deleted for its devices, and a live one stands in its place. -/
structure Kicked (w : World) (c subId : Uuid) (conn : Conn) : Prop where
  deleted : ∃ old row, (w.view c).conn = some old ∧ old.isDeleted = true ∧
    (w.view c).row = some row ∧ row.isDeleted = true ∧
    row.deletedReason = some DeleteReason.deviceKick
  replaced : ∃ c' made row, c' ≠ c ∧ (w.view c').conn = some made ∧ Replaces subId conn made ∧
    (w.view c').row = some row ∧ row.isDeleted = false ∧ row.subscriptionId = some subId ∧
    row.env = conn.env.asStr ∧ row.proto.proto = conn.proto.proto

theorem Kicked.not_cachedLive (h : Kicked w c subId conn) : ¬ (w.view c).CachedLive := by
  obtain ⟨old, row, hold, hdeleted, -⟩ := h.deleted
  rintro ⟨conn', hconn', hlive⟩
  rw [hold] at hconn'
  cases hconn'
  rw [hdeleted] at hlive
  cases hlive

/-- What is known of a connection after the creation of its replacement and its own
deletion, and of the replacement. -/
theorem view_reissued (h : Unhindered networks pass c subId conn w)
    (hlive : (w.view c).CachedLive) (hstored : (w.view c).row.isSome = true)
    (hcreate : ∃ made, (pass.create networks (c, subId, conn) w).2 = .ok made) :
    ((pass.create networks (c, subId, conn) w).1.deleteConnection c conn
        (some DeleteReason.deviceKick) pass.now).1.view c =
      (w.view c).deleted (some DeleteReason.deviceKick) pass.now ∧
    ∃ made, Replaces subId conn made ∧
      ((pass.create networks (c, subId, conn) w).1.deleteConnection c conn
          (some DeleteReason.deviceKick) pass.now).1.view (pass.generated c).connId =
        (w.view (pass.generated c).connId).added made
          (World.newRow made none none none true) := by
  have hfails : (pass.create networks (c, subId, conn) w).1.dbFails = w.dbFails ∧
      (pass.create networks (c, subId, conn) w).1.publishFails = w.publishFails := by
    rcases World.createConnectionInner_eq networks (reissue subId conn) (pass.generated c)
      pass.now w with ⟨_, _, h⟩ | ⟨_, _, _, _, -, -, -, h⟩ <;> rw [create, h] <;> exact ⟨rfl, rfl⟩
  have hview := view_create networks pass (c, subId, conn) hstored
  have hne : (pass.generated c).connId ≠ c := by
    intro heq
    rw [← heq, h.fresh.2] at hstored
    cases hstored
  constructor
  · rcases World.view_deleteConnection c conn (some DeleteReason.deviceKick) pass.now
      (pass.create networks (c, subId, conn) w).1 with ⟨hdead, -⟩ | ⟨-, ⟨e, he⟩, -⟩ | ⟨-, -, hdel⟩
    · rw [hview] at hdead
      exact absurd hlive hdead
    · obtain ⟨status, hok⟩ := World.deleteConnection_ok (w := (pass.create networks
        (c, subId, conn) w).1) c conn (some DeleteReason.deviceKick) pass.now
          (by rw [hfails.1]; exact h.db _) (by rw [hfails.2]; exact h.publisher _)
      rw [hok] at he
      cases he
    · rw [hdel c, if_pos rfl, hview]
  · rcases World.view_createConnectionInner networks (reissue subId conn) (pass.generated c)
      pass.now w with ⟨⟨msg, hmsg⟩, -⟩ | ⟨made, hprepare, -, -, hadded⟩
    · obtain ⟨made, hmade⟩ := hcreate
      exact absurd (hmade.symm.trans hmsg) (by simp)
    · refine ⟨made, replaces_of_prepareConnection hprepare, ?_⟩
      rw [view_deleteConnection_of_ne hne]
      exact (hadded _).trans (if_pos rfl)

theorem kicked_of_keeps {s' : World × Strikes} (h : Unhindered networks pass c subId conn w)
    (hlive : (w.view c).CachedLive) (hstored : (w.view c).row.isSome = true)
    (hcreate : ∃ made, (pass.create networks (c, subId, conn) w).2 = .ok made)
    (hs : s.1 = ((pass.create networks (c, subId, conn) w).1.deleteConnection c conn
        (some DeleteReason.deviceKick) pass.now).1)
    (hkeeps : ∀ c', c' = c ∨ c' = (pass.generated c).connId → Keeps c' s s') :
    Kicked s'.1 c subId conn := by
  obtain ⟨hold, made, hmade, hnew⟩ := view_reissued h hlive hstored hcreate
  rw [← hs] at hold hnew
  obtain ⟨old, hcached, -⟩ := hlive
  obtain ⟨row, hrow⟩ := Option.isSome_iff_exists.mp hstored
  rw [ConnView.deleted, hcached, hrow] at hold
  rw [ConnView.added, h.fresh.1] at hnew
  have hold' := ((hkeeps c (.inl rfl)).view (by rw [hold]; rfl)).trans hold
  have hnew' := ((hkeeps _ (.inr rfl)).view (by rw [hnew]; rfl)).trans hnew
  constructor
  · exact ⟨_, _, congrArg ConnView.conn hold', rfl, congrArg ConnView.row hold', rfl, rfl⟩
  · refine ⟨(pass.generated c).connId, made, World.newRow made none none none true, ?_,
      congrArg ConnView.conn hnew', hmade, congrArg ConnView.row hnew', hmade.live, hmade.owner,
      congrArg Env.asStr hmade.env, hmade.proto⟩
    intro heq
    rw [← heq, h.fresh.2] at hrow
    cases hrow

end Reissue

/-- A connection that is live, of an active lite subscription, and over the limit. -/
structure Over (pass : DevicePass) (s : World × Strikes) (c subId : Uuid) (conn : Conn) :
    Prop where
  cached : (s.1.view c).conn = some conn
  live : conn.isDeleted = false
  owner : conn.subscriptionId = some subId
  lite : ∃ sub, s.1.mem.subscriptions.lookup subId = some sub ∧ sub.planKind = .lite ∧
    sub.isActive pass.now = true
  online : 2 ≤ pass.metrics.getConnectionOnlineCount c
  stored : (s.1.view c).row.isSome = true

section Pass

theorem Over.mem_liteConns (h : Over pass s c subId conn) :
    (c, subId, conn) ∈ s.1.mem.liteConns := by
  obtain ⟨sub, hsub, hlite, -⟩ := h.lite
  exact Cache.mem_liteConns.mpr ⟨⟨sub, hsub, hlite⟩, h.cached, h.owner, h.live⟩

theorem Over.cachedLive (h : Over pass s c subId conn) : (s.1.view c).CachedLive :=
  ⟨conn, h.cached, h.live⟩

theorem cached_visit {item : Uuid × Uuid × Conn} (h : (s.1.view c).conn.isSome = true) :
    ((pass.visit networks maxTicks s item).1.view c).conn.isSome = true := by
  have hcreate : ((pass.create networks item s.1).1.view c).conn.isSome = true := by
    rcases World.view_createConnectionInner networks (reissue item.2.1 item.2.2)
      (pass.generated item.1) pass.now s.1 with ⟨-, hview⟩ | ⟨made, -, -, -, hview⟩
    · rw [create, hview]
      exact h
    · rw [create, hview]
      split
      · rfl
      · exact h
  rcases visit_cases networks maxTicks pass s item with
    ⟨-, hvisit⟩ | ⟨-, -, hvisit⟩ | ⟨-, -, -, hvisit⟩ | ⟨-, -, -, hvisit⟩
  · rw [hvisit]
    exact h
  · rw [hvisit]
    exact h
  · rw [hvisit]
    exact hcreate
  · rw [hvisit]
    rcases World.deleteConnection_eq item.1 item.2.2 (some DeleteReason.deviceKick) pass.now
      (pass.create networks item s.1).1 with ⟨-, _, -, h⟩ | ⟨-, ⟨_, h⟩ | ⟨_, h⟩ | h⟩ <;> rw [h]
    iterate 3 exact hcreate
    rw [World.view, Cache.markDeleted, AList.lookup_modify, Option.isSome_map]
    exact hcreate

theorem not_cached_of_atTurn {c' : Uuid}
    (h : ((pass.atTurn networks maxTicks s c).1.view c').conn = none) :
    s.1.mem.connections.lookup c' = none := by
  by_contra hcached
  have hsome : ((pass.atTurn networks maxTicks s c).1.view c').conn.isSome = true :=
    Run.invariant_foldl (I := fun s : World × Strikes => (s.1.view c').conn.isSome = true)
      (Option.isSome_iff_ne_none.mpr hcached) fun _ _ _ h => cached_visit h
  rw [h] at hsome
  cases hsome

/-- A pass over a connection that is over the limit: it stays and has a strike more, or its
turn creates a replacement. -/
theorem Over.pass_cases (networks : WgNetworks) (maxTicks : ℕ) (h : Over pass s c subId conn) :
    ((countAt s.2 c < maxTicks ∨ ∃ msg, (pass.create networks (c, subId, conn)
          (pass.atTurn networks maxTicks s c).1).2 = .error msg) ∧
      (pass.enforceDeviceLimit networks maxTicks s).1.view c = s.1.view c ∧
      (pass.enforceDeviceLimit networks maxTicks s).2.lookup c = some (countAt s.2 c)) ∨
    (maxTicks ≤ countAt s.2 c ∧
      (∃ made, (pass.create networks (c, subId, conn)
          (pass.atTurn networks maxTicks s c).1).2 = .ok made) ∧
      (Unhindered networks pass c subId conn (pass.atTurn networks maxTicks s c).1 →
        Kicked (pass.enforceDeviceLimit networks maxTicks s).1 c subId conn)) := by
  obtain ⟨hbefore, hafter⟩ := keeps_turn networks maxTicks pass h.mem_liteConns
  have hview := hbefore.view h.stored
  have hcount : countAt (pass.atTurn networks maxTicks s c).2 c = countAt s.2 c := by
    rw [countAt, countAt, hbefore.strikes]
  rcases visit_cases networks maxTicks pass (pass.atTurn networks maxTicks s c)
    (c, subId, conn) with
    ⟨honline, -⟩ | ⟨-, hless, hvisit⟩ | ⟨-, -, hfailed, hvisit⟩ | ⟨-, henough, hmade, hvisit⟩
  · exact absurd (h.online.trans honline) (by decide)
  · refine .inl ⟨.inl (hcount ▸ hless), ?_, ?_⟩
    · rw [(hafter c (.inl rfl)).view, hvisit, hview]
      rw [hvisit, hview]
      exact h.stored
    · rw [(hafter c (.inl rfl)).strikes, hvisit, AList.lookup_insert, hcount]
  · have hsame := (view_create networks pass (c, subId, conn)
      (w := (pass.atTurn networks maxTicks s c).1) (c := c) (by rw [hview]; exact h.stored)).trans
        hview
    refine .inl ⟨.inr hfailed, ?_, ?_⟩
    · rw [(hafter c (.inl rfl)).view, hvisit, hsame]
      rw [hvisit, hsame]
      exact h.stored
    · rw [(hafter c (.inl rfl)).strikes, hvisit, AList.lookup_insert, hcount]
  · refine .inr ⟨hcount ▸ henough, hmade, fun hfree => ?_⟩
    have hlive : ((pass.atTurn networks maxTicks s c).1.view c).CachedLive := by
      rw [hview]
      exact h.cachedLive
    have hstored : ((pass.atTurn networks maxTicks s c).1.view c).row.isSome = true := by
      rw [hview]
      exact h.stored
    apply kicked_of_keeps hfree hlive hstored hmade (congrArg Prod.fst hvisit)
    -- the turns that follow are of connections that were cached when the pass began
    rintro c' (rfl | rfl)
    · exact hafter _ (.inl rfl)
    · exact hafter _ (.inr (not_cached_of_atTurn hfree.fresh.1))

end Pass

structure DeviceTick where
  others : World → World
  pass : DevicePass

namespace DeviceTick

def start (tick : DeviceTick) (s : World × Strikes) : World × Strikes := (tick.others s.1, s.2)

def step (networks : WgNetworks) (maxTicks : ℕ) (s : World × Strikes) (tick : DeviceTick) :
    World × Strikes :=
  tick.pass.enforceDeviceLimit networks maxTicks (tick.start s)

/-- The connection is over the limit in this pass, whose turn for it is not hindered if it
comes to a reissue. Nothing else brings back a connection that is deleted. -/
structure Counts (networks : WgNetworks) (maxTicks : ℕ) (c subId : Uuid) (conn : Conn)
    (s : World × Strikes) (tick : DeviceTick) : Prop where
  isOver : Over tick.pass (tick.start s) c subId conn
  unhindered : maxTicks ≤ countAt s.2 c → Unhindered networks tick.pass c subId conn
    (tick.pass.atTurn networks maxTicks (tick.start s) c).1
  not_revived : ((tick.others s.1).view c).CachedLive → (s.1.view c).CachedLive

theorem length_le_strikes {ticks : List DeviceTick}
    (h : Run.Along (step networks maxTicks)
      (fun s tick => ∃ subId conn, Counts networks maxTicks c subId conn s tick) s ticks)
    (hlive : ((ticks.foldl (step networks maxTicks) s).1.view c).CachedLive) :
    ticks.length ≤ ((ticks.foldl (step networks maxTicks) s).2.lookup c).getD 0 := by
  induction ticks using List.reverseRecOn with
  | nil => exact Nat.zero_le _
  | append_singleton ticks tick ih =>
    rw [Run.along_append] at h
    obtain ⟨hbefore, ⟨subId, conn, hcounts⟩, -⟩ := h
    rw [List.foldl_append, List.foldl_cons, List.foldl_nil] at hlive ⊢
    have hcount := ih hbefore (hcounts.not_revived hcounts.isOver.cachedLive)
    rcases hcounts.isOver.pass_cases networks maxTicks with
      ⟨-, -, hstrikes⟩ | ⟨henough, -, hkicked⟩
    · rw [step, hstrikes, List.length_append]
      exact Nat.succ_le_succ hcount
    · exact absurd hlive (hkicked (hcounts.unhindered henough)).not_cachedLive

/-- A connection that is over the limit in `maxTicks` passes in a row is replaced in the
last of them exactly if no live row of its subscription, environment and protocol is in the
way of the replacement. -/
theorem kicked_iff {ticks : List DeviceTick} {last : DeviceTick}
    (hlength : ticks.length + 1 = maxTicks)
    (hticks : Run.Along (step networks maxTicks)
      (fun s tick => ∃ subId conn, Counts networks maxTicks c subId conn s tick) s ticks)
    (hlast : Counts networks maxTicks c subId conn (ticks.foldl (step networks maxTicks) s) last) :
    Kicked ((ticks ++ [last]).foldl (step networks maxTicks) s).1 c subId conn ↔
      ¬ SlotTaken (last.pass.atTurn networks maxTicks
        (last.start (ticks.foldl (step networks maxTicks) s)) c).1.db subId conn := by
  have hcount := length_le_strikes hticks (hlast.not_revived hlast.isOver.cachedLive)
  have henough : maxTicks ≤ countAt (ticks.foldl (step networks maxTicks) s).2 c := by
    unfold countAt
    omega
  have hfree := hlast.unhindered henough
  rw [List.foldl_append, List.foldl_cons, List.foldl_nil, ← create_ok_iff hfree]
  rcases hlast.isOver.pass_cases networks maxTicks with
    ⟨hstays, hview, -⟩ | ⟨-, hmade, hkicked⟩
  · constructor
    · intro hkicked
      apply absurd _ hkicked.not_cachedLive
      rw [step, hview]
      exact hlast.isOver.cachedLive
    · rintro ⟨made, hmade⟩
      rcases hstays with hless | ⟨msg, hmsg⟩
      · exact absurd (henough.trans_lt hless) (lt_irrefl _)
      · exact absurd (hmade.symm.trans hmsg) (by simp)
  · exact ⟨fun _ => hmade, fun _ => hkicked hfree⟩

section Runs

/-- Samples of how often connection 5 is online: node, time and value. -/
def onlineStore (samples : List (Uuid × ℤ × ℚ)) : MetricStorage :=
  samples.foldl (fun m sample => m.insertEnvelope (fun _ _ => 1)
    { nodeId := sample.1
      name := MetricStorage.onlineMetric
      value := sample.2.2
      timestamp := sample.2.1
      tags := MetricStorage.connTags 5 }) (.new 100 1000000)

def phonesConn (proto : Proto) : Conn := .new .production (some 1) proto none 0

def phonesWorld (proto : Proto) : World :=
  { World.init (fun _ => false) fun _ => false with
    mem := { Cache.empty with
      subscriptions := AList.insert 1 (Subscription.newLite 1 "" 100 0) ∅
      connections := AList.insert 5 (phonesConn proto) ∅ }
    db := { Db.empty with
      subscriptions := AList.insert 1 ((Subscription.newLite 1 "" 100 0).toRow 0) ∅
      connections := AList.insert 5 (.ofConn (phonesConn proto)) ∅ } }

def phonesNetworks : WgNetworks := ⟨⟨.v4 0x0a4d0000, 24⟩, ⟨.v4 0x0a400000, 24⟩, none⟩

def twoPhones : DeviceTick where
  others := id
  pass := ⟨onlineStore [(1, 0, 1), (2, 0, 1)], fun _ => ⟨6, ⟨""⟩, "", 0, ""⟩, 0⟩

theorem online_twoPhones : 2 ≤ twoPhones.pass.metrics.getConnectionOnlineCount 5 := by
  decide +kernel

theorem liteConns_phonesWorld (proto : Proto) :
    (phonesWorld proto).mem.liteConns = [(5, 1, phonesConn proto)] := rfl

theorem step_twoPhones (proto : Proto) : twoPhones.step phonesNetworks 2 (phonesWorld proto, ∅) =
    (phonesWorld proto, AList.insert 5 1 ∅) := by
  unfold step enforceDeviceLimit start
  rw [show twoPhones.others (phonesWorld proto) = phonesWorld proto from rfl, liteConns_phonesWorld,
    List.foldl_cons, visit, strike, if_neg (not_le.mpr online_twoPhones)]
  rfl

/-- Where new credentials without a token can be prepared, only the index can refuse them. -/
theorem counts_twoPhones {proto : Proto} {made : Conn}
    (hprepare : prepareConnection phonesNetworks (reissue 1 (phonesConn proto))
      (twoPhones.pass.generated 5) 0 (phonesWorld proto).mem = .ok made)
    (htoken : made.proto.token = none) (strikes : Strikes) :
    Counts phonesNetworks 2 5 1 (phonesConn proto) (phonesWorld proto, strikes) twoPhones where
  isOver := ⟨rfl, rfl, rfl, ⟨_, rfl, rfl, rfl⟩, online_twoPhones, rfl⟩
  unhindered _ := by
    have hturn : (twoPhones.pass.atTurn phonesNetworks 2 (twoPhones.start
        (phonesWorld proto, strikes)) 5).1 = phonesWorld proto := rfl
    rw [hturn]
    refine ⟨fun _ => rfl, fun _ => rfl, ⟨made, hprepare, fun c' row _ => ?_⟩, ⟨rfl, rfl⟩, rfl⟩
    simp [ConnRow.sameToken, World.newRow, ConnRow.ofConn, htoken]
  not_revived h := h

theorem along_twoPhones {proto : Proto}
    (hcounts : ∀ strikes, Counts phonesNetworks 2 5 1 (phonesConn proto)
      (phonesWorld proto, strikes) twoPhones) :
    Run.Along (step phonesNetworks 2) (fun s tick => ∃ subId conn,
      Counts phonesNetworks 2 5 subId conn s tick) (phonesWorld proto, ∅)
        [twoPhones, twoPhones] := by
  refine ⟨⟨1, phonesConn proto, hcounts ∅⟩, ⟨1, phonesConn proto, ?_⟩, trivial⟩
  rw [step_twoPhones]
  exact hcounts _

def wireguardPhone : Proto := .wireguard ⟨⟨""⟩, ⟨.v4 0x0a4d003c, 32⟩⟩

theorem counts_wireguardPhone (strikes : Strikes) : Counts phonesNetworks 2 5 1
    (phonesConn wireguardPhone) (phonesWorld wireguardPhone, strikes) twoPhones :=
  counts_twoPhones rfl rfl strikes

theorem counts_vmess (strikes : Strikes) : Counts phonesNetworks 2 5 1
    (phonesConn (.xray .vmess)) (phonesWorld (.xray .vmess), strikes) twoPhones :=
  counts_twoPhones rfl rfl strikes

/-- A WireGuard connection is replaced after two passes. -/
theorem kicked_wireguard :
    Run.Along (step phonesNetworks 2) (fun s tick => ∃ subId conn,
        Counts phonesNetworks 2 5 subId conn s tick) (phonesWorld wireguardPhone, ∅)
          [twoPhones, twoPhones] ∧
      Kicked ([twoPhones, twoPhones].foldl (step phonesNetworks 2)
        (phonesWorld wireguardPhone, ∅)).1 5 1 (phonesConn wireguardPhone) := by
  have hlast : Counts phonesNetworks 2 5 1 (phonesConn wireguardPhone)
      ([twoPhones].foldl (step phonesNetworks 2) (phonesWorld wireguardPhone, ∅)) twoPhones := by
    rw [List.foldl_cons, step_twoPhones]
    exact counts_wireguardPhone _
  have hticks : Run.Along (step phonesNetworks 2) (fun s tick => ∃ subId conn,
      Counts phonesNetworks 2 5 subId conn s tick) (phonesWorld wireguardPhone, ∅) [twoPhones] :=
    ⟨⟨1, phonesConn wireguardPhone, counts_wireguardPhone ∅⟩, trivial⟩
  have hlength : [twoPhones].length + 1 = 2 := rfl
  refine ⟨along_twoPhones counts_wireguardPhone, (kicked_iff hlength hticks hlast).mpr ?_⟩
  rintro ⟨c, row, -, hidx, -, -, hproto⟩
  rw [ConnRow.inSingleProtoIdx, hproto] at hidx
  simp [phonesConn, Conn.new, wireguardPhone, Proto.proto, ConnRow.isWireguardFamily] at hidx

/-- A VMess connection is not: the index refuses a second one while it is live. -/
theorem not_kicked_vmess :
    Run.Along (step phonesNetworks 2) (fun s tick => ∃ subId conn,
        Counts phonesNetworks 2 5 subId conn s tick) (phonesWorld (.xray .vmess), ∅)
          [twoPhones, twoPhones] ∧
      ¬ Kicked ([twoPhones, twoPhones].foldl (step phonesNetworks 2)
        (phonesWorld (.xray .vmess), ∅)).1 5 1 (phonesConn (.xray .vmess)) := by
  refine ⟨along_twoPhones counts_vmess, fun hkicked => hkicked.not_cachedLive ?_⟩
  have hlive : ((([twoPhones, twoPhones].foldl (step phonesNetworks 2)
      (phonesWorld (.xray .vmess), ∅)).1.view 5).conn.map Conn.isDeleted) = some false := by
    decide +kernel
  exact Option.map_eq_some_iff.mp hlive

end Runs

end DeviceTick

end DevicePass

end Fcore
