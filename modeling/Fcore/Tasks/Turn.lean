import Fcore.Tasks.Exhaustion

/-!
# What one turn of a pass does

The passes clean up, enforce and restore one subscription after the other. A turn works
on the connections of its own subscription only, and of those it changes only whether they
are deleted. Without failures it is also known what a turn achieves: a clean-up keeps all
connections or deletes all of them, and a restoration restores exactly those it picks.
-/

namespace Fcore

namespace World

variable {w' : World} {item : Uuid × ℤ × List (Uuid × Conn)}

section Frame

/-- What the passes leave alone: which calls fail, the subscriptions, the booked traffic,
and all of a connection but whether it is deleted. -/
structure SameBooks (w w' : World) : Prop where
  dbFails : w'.dbFails = w.dbFails
  publishFails : w'.publishFails = w.publishFails
  subscriptions : w'.mem.subscriptions = w.mem.subscriptions
  traffic : w'.db.connectionTraffic = w.db.connectionTraffic
  conns : ∀ c, (w'.mem.connections.lookup c).map (fun conn => (conn.subscriptionId, conn.proto)) =
    (w.mem.connections.lookup c).map fun conn => (conn.subscriptionId, conn.proto)
  rows : ∀ c, (w'.db.connections.lookup c).map Db.markConnRestored =
    (w.db.connections.lookup c).map Db.markConnRestored

namespace SameBooks

theorem refl (w : World) : SameBooks w w := ⟨rfl, rfl, rfl, rfl, fun _ => rfl, fun _ => rfl⟩

theorem trans {w₁ w₂ w₃ : World} (h : SameBooks w₁ w₂) (h' : SameBooks w₂ w₃) :
    SameBooks w₁ w₃ :=
  ⟨h'.dbFails.trans h.dbFails, h'.publishFails.trans h.publishFails,
    h'.subscriptions.trans h.subscriptions, h'.traffic.trans h.traffic,
    fun c => (h'.conns c).trans (h.conns c), fun c => (h'.rows c).trans (h.rows c)⟩

variable {w : World}

theorem symm {w' : World} (h : SameBooks w w') : SameBooks w' w :=
  ⟨h.dbFails.symm, h.publishFails.symm, h.subscriptions.symm, h.traffic.symm,
    fun c => (h.conns c).symm, fun c => (h.rows c).symm⟩

theorem exists_conn {w' : World} (h : SameBooks w w') {c : Uuid} {conn' : Conn}
    (hconn' : w'.mem.connections.lookup c = some conn') :
    ∃ conn, w.mem.connections.lookup c = some conn ∧
      conn.subscriptionId = conn'.subscriptionId ∧ conn.proto = conn'.proto := by
  have hconns := h.conns c
  rw [hconn'] at hconns
  obtain ⟨conn, hconn, heq⟩ := Option.map_eq_some_iff.mp hconns.symm
  exact ⟨conn, hconn, congrArg Prod.fst heq, congrArg Prod.snd heq⟩

theorem tick (w : World) : SameBooks w w.tick := ⟨rfl, rfl, rfl, rfl, fun _ => rfl, fun _ => rfl⟩

theorem dbCall {α : Type*} {f : Db → Except SyncError (Db × α)}
    (h : ∀ db a, f w.db = .ok (db, a) → db.connectionTraffic = w.db.connectionTraffic ∧
      ∀ c, (db.connections.lookup c).map Db.markConnRestored =
        (w.db.connections.lookup c).map Db.markConnRestored) : SameBooks w (w.dbCall f).1 := by
  rcases dbCall_cases f w with ⟨-, hdb⟩ | ⟨db, a, hf, -, hdb⟩
  · exact ⟨by simp, by simp, by simp, by rw [hdb], fun c => by simp, fun c => by rw [hdb]⟩
  · obtain ⟨htraffic, hrows⟩ := h db a hf
    exact ⟨by simp, by simp, by simp, by rw [hdb, htraffic], fun c => by simp,
      fun c => by rw [hdb, hrows]⟩

theorem dbRead {α : Type*} (f : Db → α) (w : World) : SameBooks w (w.dbRead f).1 := by
  apply dbCall
  intro db a h
  cases h
  exact ⟨rfl, fun _ => rfl⟩

theorem publish (t : Topic) (m : Message) (w : World) : SameBooks w (w.publish t m).1 := by
  unfold World.publish
  split
  · exact tick w
  · exact ⟨rfl, rfl, rfl, rfl, fun _ => rfl, fun _ => rfl⟩

theorem writeMem {f : Cache → Cache} (connId : Uuid) (g : Conn → Conn)
    (hsubs : (f w.mem).subscriptions = w.mem.subscriptions)
    (hconns : (f w.mem).connections = w.mem.connections.modify connId g)
    (hg : ∀ conn, (g conn).subscriptionId = conn.subscriptionId ∧ (g conn).proto = conn.proto) :
    SameBooks w (w.writeMem f) := by
  refine ⟨rfl, rfl, hsubs, rfl, fun c => ?_, fun _ => rfl⟩
  rw [writeMem_mem, hconns, AList.lookup_modify]
  cases w.mem.connections.lookup c with
  | none => rfl
  | some conn =>
    simp only [Option.map_some]
    split
    · rw [(hg conn).1, (hg conn).2]
    · rfl

theorem deleteConnection (connId : Uuid) (conn : Conn) (reason : Option String) (now : DateTime)
    (w : World) : SameBooks w (w.deleteConnection connId conn reason now).1 := by
  unfold World.deleteConnection
  split
  · exact refl w
  split
  · exact refl w
  apply andThen_rel (R := SameBooks) (fun _ _ _ => trans)
  · apply dbCall
    intro db a h
    cases h
    refine ⟨rfl, fun c => ?_⟩
    rw [Db.deleteConnection, AList.lookup_modify, Option.map_map]
    congr 1
    funext row
    by_cases hc : c = connId <;> simp [hc, Db.markConnDeleted, Db.markConnRestored]
  · intro _
    apply andThen_rel (R := SameBooks) (fun _ _ _ => trans)
    · exact publish _ _ _
    · intro _
      exact writeMem connId (fun conn => { conn with isDeleted := true, modifiedAt := now }) rfl rfl
        fun _ => ⟨rfl, rfl⟩

theorem restoreConnection (connId : Uuid) (now : DateTime) (w : World) :
    SameBooks w (w.restoreConnection connId now).1 := by
  unfold World.restoreConnection
  split
  · exact refl w
  apply andThen_rel (R := SameBooks) (fun _ _ _ => trans)
  · apply dbCall
    intro db a h
    rw [connections_restoreConnection h]
    refine ⟨rfl, fun c => ?_⟩
    rw [AList.lookup_modify, Option.map_map]
    congr 1
    funext row
    by_cases hc : c = connId <;> simp [hc, Db.markConnRestored]
  · intro _
    exact writeMem connId (fun conn => { conn with isDeleted := false, modifiedAt := now }) rfl rfl
      fun _ => ⟨rfl, rfl⟩

theorem restoreOne (now : DateTime) (item : Uuid × Conn × Option Uuid) (w : World) :
    SameBooks w (w.restoreOne now item).1 := by
  have hpublish := publish (connTopic item.2.1 item.2.2) (item.2.1.asUpdateMessage item.1) w
  unfold World.restoreOne
  split <;> rename_i hresult <;> rw [hresult] at hpublish
  · exact hpublish
  · rename_i w'
    have hrestore := hpublish.trans (restoreConnection item.1 now w')
    split <;> rename_i hresult' <;> rwa [hresult'] at hrestore

theorem restoreAll (now : DateTime) (items : List (Uuid × Conn × Option Uuid)) (w : World) :
    SameBooks w (restoreAll now items w).1 := by
  induction items generalizing w with
  | nil => exact refl w
  | cons item items ih => exact (restoreOne now item w).trans (ih _)

theorem usedBytes (subId : Uuid) (needed : Bool) (w : World) :
    SameBooks w (w.usedBytes subId needed).1 := by
  unfold World.usedBytes
  split
  · exact dbRead _ w
  · exact refl w

theorem restoreConnectionsBySubscription (subId : Uuid) (metered : Option (List String))
    (now : DateTime) (w : World) :
    SameBooks w (w.restoreConnectionsBySubscription subId metered now).1 := by
  unfold World.restoreConnectionsBySubscription
  dsimp only
  split
  · exact refl w
  apply andThen_rel (R := SameBooks) (fun _ _ _ => trans) (dbRead _ w)
  intro _
  apply andThen_rel (R := SameBooks) (fun _ _ _ => trans)
  · exact usedBytes subId _ _
  · intro _
    exact restoreAll now _ _

end SameBooks

theorem deleteRel_sameBooks : DeleteRel SameBooks where
  refl := .refl
  trans _ _ _ h h' := h.trans h'
  readTotal _ w := .dbRead _ w
  delete := .deleteConnection

theorem restoreRel_sameBooks : RestoreRel SameBooks where
  refl := .refl
  trans _ _ _ h h' := h.trans h'
  readTotal _ w := .dbRead _ w
  restore := .restoreConnectionsBySubscription

structure Reliable (w : World) : Prop where
  db : w.DbReliable
  publish : ∀ n, w.publishFails n = false

theorem Reliable.of_sameBooks {w : World} (h : w.Reliable) (hsame : SameBooks w w') : w'.Reliable :=
  ⟨fun n => hsame.dbFails ▸ h.db n, fun n => hsame.publishFails ▸ h.publish n⟩

end Frame

section Lives

variable {settings : ServiceSettings} {now : DateTime} {w : World} {subId c : Uuid}

def OwnedBy (w : World) (subId c : Uuid) : Prop :=
  ∃ deleted, (w.life c).cached = some ⟨deleted, some subId⟩

theorem OwnedBy.of_sameBooks (h : w.OwnedBy subId c) (hsame : SameBooks w w') :
    w'.OwnedBy subId c := by
  obtain ⟨deleted, hcached⟩ := h
  obtain ⟨conn, hconn, hlife⟩ := Option.map_eq_some_iff.mp hcached
  obtain ⟨conn', hconn', howner, -⟩ := hsame.symm.exists_conn hconn
  have howner : conn'.subscriptionId = some subId :=
    howner.trans (congrArg CachedLife.subscriptionId hlife)
  exact ⟨conn'.isDeleted, by rw [life, hconn', Option.map_some, Conn.life, howner]⟩

theorem mem_liveConns {mem : Cache} {item : Uuid × Conn} : item ∈ mem.liveConns subId ↔
    mem.connections.lookup item.1 = some item.2 ∧ item.2.subscriptionId = some subId ∧
      item.2.isDeleted = false := by
  rw [Cache.liveConns, List.mem_filter, Connections.mem_getBySubscriptionId, Bool.not_eq_true',
    and_assoc]

theorem ownedBy_of_mem_liveConns {item : Uuid × Conn} (h : item ∈ w.mem.liveConns subId) :
    w.OwnedBy subId item.1 := by
  obtain ⟨hlookup, howner, hlive⟩ := mem_liveConns.mp h
  exact ⟨false, by rw [life, hlookup, Option.map_some, Conn.life, howner, hlive]⟩

theorem exists_mem_liveConns (h : (w.life c).cached = some ⟨false, some subId⟩) :
    ∃ item ∈ w.mem.liveConns subId, item.1 = c := by
  obtain ⟨conn, hconn, hlife⟩ := Option.map_eq_some_iff.mp h
  refine ⟨(c, conn), mem_liveConns.mpr ⟨hconn, ?_, ?_⟩, rfl⟩
  · exact congrArg CachedLife.subscriptionId hlife
  · exact congrArg CachedLife.isDeleted hlife

theorem life_deleteConns_of_not_mem {reason : String} {conns : List (Uuid × Conn)}
    (h : ∀ item ∈ conns, item.1 ≠ c) : (w.deleteConns reason now conns).life c = w.life c := by
  refine Run.invariant_foldl (I := fun w' : World => w'.life c = w.life c) rfl
    fun w' item hitem hw' => ?_
  rcases life_deleteConnection item.1 item.2 (some reason) now w' c with hsame | ⟨hc, -⟩
  · exact hsame.trans hw'
  · exact absurd hc.symm (h item hitem)

theorem cached_deleteConns {reason : String} {conns : List (Uuid × Conn)} (hw : w.Reliable)
    (howned : w.OwnedBy subId c) (hmem : ∃ item ∈ conns, item.1 = c) :
    ((w.deleteConns reason now conns).life c).cached = some ⟨true, some subId⟩ := by
  obtain ⟨item, hitem, rfl⟩ := hmem
  refine Run.reach_of_invariant (I := fun w' => w'.Reliable ∧ w'.OwnedBy subId item.1)
    (Q := fun w' : World => (w'.life item.1).cached = some ⟨true, some subId⟩) hitem ⟨hw, howned⟩
    ?_ ?_ ?_
  · rintro w' other - ⟨hw', howned'⟩
    have hsame := SameBooks.deleteConnection other.1 other.2 (some reason) now w'
    exact ⟨hw'.of_sameBooks hsame, howned'.of_sameBooks hsame⟩
  · rintro w' ⟨hw', deleted, hcached⟩
    cases deleted with
    | true =>
      rw [(deleteRel_deleted item.1).delete item.1 item.2 _ now w' _ hcached]
      exact hcached
    | false =>
      obtain ⟨status, hok⟩ := deleteConnection_ok item.1 item.2 (some reason) now
        (hw'.db w'.calls) (hw'.publish (w'.calls + 1))
      rw [life_deleteConnection_of_ok hcached hok]
      simp [Life.deleted, hcached, Life.deleteCached]
  · intro w' other _ hcached
    rw [(deleteRel_deleted item.1).delete other.1 other.2 _ now w' _ hcached]
    exact hcached

theorem keptByBalance_same (settings : ServiceSettings) (now : DateTime) (subId : Uuid)
    (w : World) : (w.keptByBalance settings now subId).1.mem = w.mem ∧
      (w.keptByBalance settings now subId).1.db = w.db := by
  rw [← dbRead_mem (Db.totalForSubscription subId) w, ← dbRead_db (Db.totalForSubscription subId) w]
  unfold keptByBalance
  split
  · split
    · split <;> rename_i hresult <;> rw [hresult] <;> exact ⟨rfl, rfl⟩
    · simp
  · simp

theorem life_cleanupSubscription_of_not_owned (h : ¬ w.OwnedBy subId c) :
    (w.cleanupSubscription settings now subId).life c = w.life c := by
  obtain ⟨hmem, hdb⟩ := keptByBalance_same settings now subId w
  have hlife : (w.keptByBalance settings now subId).1.life c = w.life c :=
    life_congr (by rw [hmem]) (by rw [hdb]) c
  unfold cleanupSubscription
  dsimp only
  split
  · exact hlife
  · rw [life_deleteConns_of_not_mem, hlife]
    rintro item hitem rfl
    rw [hmem] at hitem
    exact h (ownedBy_of_mem_liveConns hitem)

/-- A subscription whose paid time is over, with a limit. -/
structure OnBalance (now : DateTime) (w : World) (subId : Uuid) (sub : Subscription) (limit : ℤ) :
    Prop where
  lookup : w.mem.subscriptions.lookup subId = some sub
  notDeleted : sub.isDeleted = false
  expired : sub.timeExpired now = true
  limitBytes : sub.limitBytes = some limit

theorem OnBalance.of_sameBooks {sub : Subscription} {limit : ℤ}
    (h : OnBalance now w subId sub limit) (hsame : SameBooks w w') :
    OnBalance now w' subId sub limit :=
  { h with lookup := by rw [hsame.subscriptions, h.lookup] }

theorem OnBalance.not_isActive {sub : Subscription} {limit : ℤ}
    (h : OnBalance now w subId sub limit) : sub.isActive now = false := by
  obtain ⟨expiresAt, hexpires, hle⟩ := (Option.any_eq_true _ _).mp h.expired
  have hle : expiresAt ≤ now := of_decide_eq_true hle
  simp [Subscription.isActive, hexpires, not_lt.mpr hle]

variable {sub : Subscription} {limit : ℤ}

theorem keptByBalance_onBalance (hmode : settings.trafficModeEnabled = true) (hw : w.Reliable)
    (h : OnBalance now w subId sub limit) :
    (w.keptByBalance settings now subId).2 = decide (0 < limit - w.used subId) := by
  simp [keptByBalance, hmode, h.lookup, h.notDeleted, h.expired, h.limitBytes, hw.db.dbRead, used]

theorem life_cleanupSubscription_of_balance (hmode : settings.trafficModeEnabled = true)
    (hw : w.Reliable) (h : OnBalance now w subId sub limit) (hleft : w.used subId < limit)
    (c : Uuid) : (w.cleanupSubscription settings now subId).life c = w.life c := by
  obtain ⟨hmem, hdb⟩ := keptByBalance_same settings now subId w
  have hkept : (w.keptByBalance settings now subId).2 = true := by
    rw [keptByBalance_onBalance hmode hw h]
    exact decide_eq_true (sub_pos.mpr hleft)
  unfold cleanupSubscription
  rw [if_pos hkept]
  exact life_congr (by rw [hmem]) (by rw [hdb]) c

theorem cached_cleanupSubscription_of_spent (hmode : settings.trafficModeEnabled = true)
    (hw : w.Reliable) (h : OnBalance now w subId sub limit) (hspent : limit ≤ w.used subId)
    (howned : w.OwnedBy subId c) :
    ((w.cleanupSubscription settings now subId).life c).cached = some ⟨true, some subId⟩ := by
  obtain ⟨hmem, hdb⟩ := keptByBalance_same settings now subId w
  have hlife : (w.keptByBalance settings now subId).1.life c = w.life c :=
    life_congr (by rw [hmem]) (by rw [hdb]) c
  have hkept : (w.keptByBalance settings now subId).2 = false := by
    rw [keptByBalance_onBalance hmode hw h]
    exact decide_eq_false (by omega)
  have hsame : SameBooks w (w.keptByBalance settings now subId).1 :=
    deleteRel_sameBooks.keptByBalance subId w
  unfold cleanupSubscription
  rw [if_neg (by rw [hkept]; decide)]
  obtain ⟨deleted, hcached⟩ := howned
  cases deleted with
  | true =>
    rw [(deleteRel_deleted c).deleteConns _ _ _ (some subId) (by rw [hlife, hcached]), hlife]
    exact hcached
  | false =>
    rw [← hlife] at hcached
    exact cached_deleteConns (hw.of_sameBooks hsame) ⟨_, hcached⟩ (exists_mem_liveConns hcached)

theorem ownedBy_of_mem_enforcedSubs (h : item ∈ w.mem.enforcedSubs settings now) {x : Uuid × Conn}
    (hx : x ∈ item.2.2) : w.OwnedBy item.1 x.1 := by
  obtain ⟨e, -, hitem⟩ := List.mem_filterMap.mp h
  dsimp only at hitem
  split at hitem
  · cases hitem
  · cases hitem
    exact ownedBy_of_mem_liveConns hx

theorem limit_of_mem_enforcedSubs (h : item ∈ w.mem.enforcedSubs settings now)
    (hsub : OnBalance now w item.1 sub limit) : item.2.1 = limit := by
  obtain ⟨e, he, hitem⟩ := List.mem_filterMap.mp h
  have hlookup := AList.lookup_of_mem_entries (List.mem_of_mem_filter he)
  dsimp only at hitem
  split at hitem
  · cases hitem
  · cases hitem
    have hsub' : some e.2 = some sub := hlookup.symm.trans hsub.lookup
    cases hsub'
    simp [hsub.limitBytes]

theorem life_enforceTrafficLimit_of_balance (hw : w.Reliable) (hleft : w.used item.1 < item.2.1)
    (c : Uuid) : (w.enforceTrafficLimit now item).life c = w.life c := by
  have hleft : (w.db.totalForSubscription item.1).1 + (w.db.totalForSubscription item.1).2 <
      item.2.1 := hleft
  simp [enforceTrafficLimit, hw.db.dbRead, hleft, life]

theorem life_enforceTrafficLimit_of_not_mem (h : ∀ x ∈ item.2.2, x.1 ≠ c) :
    (w.enforceTrafficLimit now item).life c = w.life c := by
  have hlife := life_readTotal item.1 w c
  unfold enforceTrafficLimit
  split <;> rename_i hresult <;> rw [hresult] at hlife
  · exact hlife
  · split
    · exact hlife
    · rw [life_deleteConns_of_not_mem h, hlife]

theorem mem_revivableSubs (hmode : settings.trafficModeEnabled = true)
    (h : OnBalance now w subId sub limit) : (subId, true) ∈ w.mem.revivableSubs settings now := by
  refine List.mem_filterMap.mpr ⟨⟨subId, sub⟩, AList.mem_entries_iff.mpr h.lookup, ?_⟩
  simp [h.not_isActive, hmode, h.notDeleted, h.expired]

theorem onlyBalance_of_mem_revivableSubs {item : Uuid × Bool}
    (hitem : item ∈ w.mem.revivableSubs settings now)
    (h : OnBalance now w item.1 sub limit) : item.2 = true := by
  obtain ⟨e, he, hsome⟩ := List.mem_filterMap.mp hitem
  have hlookup := AList.lookup_of_mem_entries he
  split at hsome
  · rename_i hactive
    cases hsome
    have hsub : some e.2 = some sub := hlookup.symm.trans h.lookup
    cases hsub
    rw [h.not_isActive] at hactive
    cases hactive
  · split at hsome
    · cases hsome
      rfl
    · cases hsome

theorem nodup_revivableSubs (settings : ServiceSettings) (now : DateTime) (mem : Cache) :
    ((mem.revivableSubs settings now).map Prod.fst).Nodup := by
  rw [Cache.revivableSubs, List.Nodup, List.pairwise_map, List.pairwise_filterMap]
  have hkeys := List.pairwise_map.mp mem.subscriptions.nodupKeys
  apply hkeys.imp
  intro e e' hne item hitem item' hitem'
  have hid : ∀ (e : Σ _ : Uuid, Subscription) (item : Uuid × Bool),
      (if e.2.isActive now then some (e.1, false)
        else if settings.trafficModeEnabled && !e.2.isDeleted && e.2.timeExpired now then
          some (e.1, true)
        else none) = some item → item.1 = e.1 := by
    intro e item h
    split at h
    · cases h
      rfl
    · split at h <;> cases h
      rfl
  rw [hid e item hitem, hid e' item' hitem']
  exact hne

theorem life_restoreSubscription_of_ne {item : Uuid × Bool}
    (h : (w.life c).cached ≠ some ⟨true, some item.1⟩) :
    (w.restoreSubscription settings now item).life c = w.life c := by
  obtain ⟨w', hw', hresult⟩ := restoreSubscription_cases settings now item w
  have hlife : w'.life c = w.life c := by
    rcases hw' with rfl | rfl
    · rfl
    · exact life_readTotal item.1 w c
  rcases hresult with hresult | ⟨metered, hresult⟩
  · rw [hresult, hlife]
  · rw [hresult]
    rcases life_restoreConnectionsBySubscription item.1 metered now w' c with hsame | ⟨hcached, -⟩
    · rw [hsame, hlife]
    · rw [hlife] at hcached
      exact absurd hcached h

theorem life_restore_of_not_mem {metered : Option (List String)}
    (h : ∀ item ∈ w.restorable subId metered, item.1 ≠ c) :
    (w.restoreConnectionsBySubscription subId metered now).1.life c = w.life c := by
  obtain ⟨w', hmem, hdb, -, hresult | hresult⟩ :=
    restoreConnectionsBySubscription_cases subId metered now w
  · rw [hresult]
    exact life_congr (by rw [hmem]) (by rw [hdb]) c
  · have hlife : w'.life c = w.life c := life_congr (by rw [hmem]) (by rw [hdb]) c
    rw [hresult]
    rcases life_restoreAll now (w.restorable subId metered) w' c with
      hsame | ⟨⟨item, hitem, hc⟩, -⟩
    · rw [hsame, hlife]
    · exact absurd hc (h item hitem)

/-- The turn of a subscription that only its balance pays for leaves a connection alone
that is not among the metered ones to restore. -/
theorem life_restoreSubscription_of_not_mem
    (h : ∀ item ∈ w.restorable subId (some settings.meteredConns), item.1 ≠ c) :
    (w.restoreSubscription settings now (subId, true)).life c = w.life c := by
  have hmem := dbRead_mem (Db.totalForSubscription subId) w
  have hdb := dbRead_db (Db.totalForSubscription subId) w
  have hlife := life_readTotal subId w c
  unfold restoreSubscription
  rw [if_pos rfl]
  split <;> rename_i hresult <;> rw [hresult] at hmem hdb hlife
  · exact hlife
  · dsimp only at hmem hdb hlife ⊢
    split
    · rw [← hlife]
      apply life_restore_of_not_mem
      unfold restorable restoreUsed
      rw [hmem, hdb]
      exact h
    · exact hlife

end Lives

section Revived

variable {settings : ServiceSettings} {now : DateTime} {w : World} {subId c : Uuid}

theorem connectionRestorable_congr {reason : Option String} {used used' : ℤ} {limit : Option ℤ}
    (h : reason = some DeleteReason.trafficExhausted → used = used') :
    connectionRestorable reason used limit = connectionRestorable reason used' limit := by
  unfold connectionRestorable
  cases reason with
  | none => rfl
  | some reason =>
    dsimp only
    split
    · rfl
    · split
      · rename_i hexhausted
        rw [h (by rw [hexhausted])]
      · rfl

/-- A deleted connection of a metered protocol that a restoration would revive. -/
def revivable (settings : ServiceSettings) (w : World) (subId c : Uuid) : Bool :=
  (w.mem.connections.lookup c).any (fun conn => conn.isDeleted &&
      decide (conn.subscriptionId = some subId) &&
      conn.proto.proto.isMetered settings.meteredConns) &&
    connectionRestorable ((w.life c).reason subId) (w.used subId) (w.mem.limitBytes subId)

theorem restoreUsed_eq {item : Uuid × Conn × Option Uuid} (hitem : item ∈ w.mem.deletedConns subId)
    (hreason : (w.life item.1).reason subId = some DeleteReason.trafficExhausted) :
    w.restoreUsed subId = w.used subId := by
  rw [← reasonIn_deletedReasons] at hreason
  exact if_pos (List.any_eq_true.mpr ⟨item, hitem, decide_eq_true hreason⟩)

theorem revivable_iff : w.revivable settings subId c = true ↔
    ∃ item ∈ w.restorable subId (some settings.meteredConns), item.1 = c := by
  simp only [revivable, Bool.and_eq_true, Option.any_eq_true, decide_eq_true_eq, restorable,
    toRestore, List.mem_filter, reasonIn_deletedReasons, Option.all_some]
  constructor
  · rintro ⟨⟨conn, hlookup, ⟨hdeleted, howner⟩, hmetered⟩, hreason⟩
    have hitem : (c, conn, w.mem.connNodes.lookup c) ∈ w.mem.deletedConns subId :=
      mem_deletedConns.mpr ⟨hlookup, howner, hdeleted, rfl⟩
    refine ⟨_, ⟨hitem, ?_, hmetered⟩, rfl⟩
    rw [← hreason]
    exact connectionRestorable_congr (restoreUsed_eq hitem)
  · rintro ⟨item, ⟨hitem, hreason, hmetered⟩, rfl⟩
    obtain ⟨hlookup, howner, hdeleted, -⟩ := mem_deletedConns.mp hitem
    refine ⟨⟨item.2.1, hlookup, ⟨hdeleted, howner⟩, hmetered⟩, ?_⟩
    rw [← hreason]
    exact connectionRestorable_congr fun h => (restoreUsed_eq hitem h).symm

/-- No unique index stands against a row that is restored, whichever rows are live. -/
def RestoresFree (w : World) (c : Uuid) : Prop :=
  ∀ c' row row', c' ≠ c → (w.db.connections.lookup c).map Db.markConnRestored = some row →
    (w.db.connections.lookup c').map Db.markConnRestored = some row' → row.conflicts row' = false

theorem RestoresFree.of_sameBooks (h : w.RestoresFree c) (hsame : SameBooks w w') :
    w'.RestoresFree c := by
  intro c' row row' hne hrow hrow'
  rw [hsame.rows] at hrow hrow'
  exact h c' row row' hne hrow hrow'

theorem conflicts_markConnRestored {row row' : ConnRow} (h : row.conflicts row' = true) :
    row.conflicts (Db.markConnRestored row') = true := by
  cases hdeleted : row'.isDeleted with
  | true =>
    simp [ConnRow.conflicts, ConnRow.inSingleProtoIdx, ConnRow.inPlanIdx, ConnRow.sameToken,
      hdeleted] at h
  | false =>
    have hsame : Db.markConnRestored row' = { row' with deletedReason := none } := by
      rw [Db.markConnRestored, ← hdeleted]
    rw [hsame]
    exact h

theorem RestoresFree.restoreConnection (h : w.RestoresFree c) :
    w.db.restoreConnection c = .ok ({ w.db with
      connections := w.db.connections.modify c Db.markConnRestored }, ()) := by
  refine if_neg fun hrefused => ?_
  obtain ⟨row, hrow, hany⟩ := (Option.any_eq_true _ _).mp hrefused
  obtain ⟨e, he, hconflict⟩ := List.any_eq_true.mp hany
  obtain ⟨hne, hconflict⟩ := Bool.and_eq_true_iff.mp hconflict
  have hfree := h e.1 (Db.markConnRestored row) (Db.markConnRestored e.2) (of_decide_eq_true hne)
    (by rw [hrow, Option.map_some]) (by rw [AList.lookup_of_mem_entries he, Option.map_some])
  rw [conflicts_markConnRestored hconflict] at hfree
  cases hfree

theorem life_restoreOne_of_reliable {item : Uuid × Conn × Option Uuid} (hw : w.Reliable)
    (hcached : (w.life item.1).cached.isSome = true) (hfree : w.RestoresFree item.1) :
    (w.restoreOne now item).1.life item.1 = (w.life item.1).restored := by
  have hlookup : (w.mem.connections.lookup item.1).isSome = true := by
    simpa [life] using hcached
  obtain ⟨conn, hconn⟩ := Option.isSome_iff_exists.mp hlookup
  have hrestore := hfree.restoreConnection
  have hone : (w.restoreOne now item).1.mem = w.mem.markRestored item.1 now ∧
      (w.restoreOne now item).1.db = { w.db with
        connections := w.db.connections.modify item.1 Db.markConnRestored } := by
    simp [restoreOne, publish, hw.publish w.calls, restoreConnection, hconn, tick, dbCall,
      hw.db (w.calls + 1), hrestore, andThen, writeMem]
  exact life_of_restored hone.1 hone.2

theorem life_restoreAll_of_reliable {items : List (Uuid × Conn × Option Uuid)} (hw : w.Reliable)
    (hcached : ∀ item ∈ items, (w.life item.1).cached.isSome = true)
    (hfree : ∀ item ∈ items, w.RestoresFree item.1) (hmem : ∃ item ∈ items, item.1 = c) :
    (restoreAll now items w).1.life c = (w.life c).restored := by
  induction items generalizing w with
  | nil => simp at hmem
  | cons item items ih =>
    have hsame := SameBooks.restoreOne now item w
    have hcached' : ∀ x ∈ items, ((w.restoreOne now item).1.life x.1).cached.isSome = true := by
      intro x hx
      have hx := hcached x (List.mem_cons_of_mem item hx)
      rcases life_restoreOne now item w x.1 with h | ⟨-, h⟩
      · rwa [h]
      · simpa [h, Life.restored] using hx
    rw [restoreAll]
    by_cases hc : item.1 = c
    · subst hc
      have hone : (w.restoreOne now item).1.life item.1 = (w.life item.1).restored :=
        life_restoreOne_of_reliable hw (hcached item (by simp)) (hfree item (by simp))
      rcases life_restoreAll now items (w.restoreOne now item).1 item.1 with h | ⟨-, h⟩
      · rw [h, hone]
      · rw [h, hone, Life.restored_restored]
    · obtain ⟨x, hx, rfl⟩ := hmem
      rcases List.mem_cons.mp hx with rfl | hx
      · exact absurd rfl hc
      rw [ih (hw.of_sameBooks hsame) hcached'
        (fun y hy => (hfree y (List.mem_cons_of_mem item hy)).of_sameBooks hsame) ⟨x, hx, rfl⟩]
      rcases life_restoreOne now item w x.1 with h | ⟨h, -⟩
      · rw [h]
      · exact absurd h.symm hc

theorem usedBytes_of_reliable (subId : Uuid) (needed : Bool) (hw : w.Reliable) :
    (w.usedBytes subId needed).2 = .ok (if needed then
      (w.db.totalForSubscription subId).1 + (w.db.totalForSubscription subId).2 else 0) := by
  unfold World.usedBytes
  cases needed with
  | false => rfl
  | true => rw [if_pos rfl, if_pos rfl, hw.db.dbRead]

theorem restoreConnectionsBySubscription_of_reliable (subId : Uuid)
    (metered : Option (List String)) (now : DateTime) (hw : w.Reliable) :
    ∃ w', SameBooks w w' ∧ w'.mem = w.mem ∧ w'.db = w.db ∧
      (w.restoreConnectionsBySubscription subId metered now).1 =
        (restoreAll now (w.restorable subId metered) w').1 := by
  unfold restoreConnectionsBySubscription restorable restoreUsed
  dsimp only
  split
  · rename_i hempty
    refine ⟨w, .refl w, rfl, rfl, ?_⟩
    rw [List.isEmpty_iff.mp hempty]
    rfl
  · rw [hw.db.andThen_dbRead]
    generalize (w.mem.deletedConns subId).any _ = needed
    have htick : w.tick.Reliable := hw.of_sameBooks (.tick w)
    refine ⟨(w.tick.usedBytes subId needed).1, (SameBooks.tick w).trans (.usedBytes subId needed _),
      by simp, by simp, ?_⟩
    rw [andThen_ok (usedBytes_of_reliable subId needed htick)]
    simp

theorem life_restore_of_mem {metered : Option (List String)} (hw : w.Reliable)
    (hfree : ∀ item ∈ w.restorable subId metered, w.RestoresFree item.1)
    (hmem : ∃ item ∈ w.restorable subId metered, item.1 = c) :
    (w.restoreConnectionsBySubscription subId metered now).1.life c = (w.life c).restored := by
  obtain ⟨w', hsame, hcache, hdb, hresult⟩ :=
    restoreConnectionsBySubscription_of_reliable subId metered now hw
  have hlife : ∀ c, w'.life c = w.life c := life_congr (by rw [hcache]) (by rw [hdb])
  rw [hresult, ← hlife]
  apply life_restoreAll_of_reliable (hw.of_sameBooks hsame) _ _ hmem
  · intro item hitem
    rw [hlife, cached_of_mem_deletedConns (List.mem_of_mem_filter hitem)]
    rfl
  · intro item hitem
    exact (hfree item hitem).of_sameBooks hsame

end Revived

end World

end Fcore
