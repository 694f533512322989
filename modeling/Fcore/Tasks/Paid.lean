import Fcore.Tasks.Metered

/-!
# What paid time revives

The limit of a subscription whose paid time is running is not enforced, unless it is a
lite one: the balance is for later. A restoration compares all the same. A connection
that was deleted because the bytes were used up comes back only while the bytes booked on
the live connections are below the limit, and never without a limit, whether or not the
time was paid for meanwhile. One that was deleted because the time was over comes back in
any case.
-/

namespace Fcore

def Subscription.paidTimeLeft (sub : Subscription) (now : DateTime) : Bool :=
  !sub.isDeleted && sub.expiresAt.any fun expiresAt => decide (now < expiresAt)

theorem Subscription.isActive_of_paidTimeLeft {sub : Subscription} {now : DateTime}
    (h : sub.paidTimeLeft now = true) : sub.isActive now = true := by
  unfold paidTimeLeft at h
  unfold isActive
  cases hexpires : sub.expiresAt with
  | none => simp [hexpires] at h
  | some expiresAt => simpa [hexpires] using h

def Life.lapsed (subId : Uuid) (reason : String) : Life :=
  ⟨some ⟨true, some subId⟩, some ⟨true, some reason, some subId⟩⟩

def Life.Serving (l : Life) : Prop :=
  l.cached.any (fun conn => !conn.isDeleted) = true ∧
    l.stored.any (fun row => !row.isDeleted) = true

instance (l : Life) : Decidable l.Serving :=
  inferInstanceAs (Decidable (_ ∧ _))

namespace World

section Turn

variable {settings : ServiceSettings} {now : DateTime} {w w' : World} {subId c : Uuid}
  {sub : Subscription}

/-- A deleted connection that a restoration of its subscription would revive, whatever its
protocol. -/
def revives (w : World) (subId c : Uuid) : Bool :=
  decide ((w.life c).cached = some ⟨true, some subId⟩) &&
    connectionRestorable ((w.life c).reason subId) (w.used subId) (w.mem.limitBytes subId)

theorem revives_iff : w.revives subId c = true ↔
    ∃ item ∈ w.restorable subId none, item.1 = c := by
  simp only [revives, Bool.and_eq_true, decide_eq_true_eq, restorable, toRestore,
    List.mem_filter, reasonIn_deletedReasons, Option.all_none, and_true]
  constructor
  · rintro ⟨hcached, hreason⟩
    obtain ⟨conn, hlookup, hlife⟩ := Option.map_eq_some_iff.mp hcached
    have hitem : (c, conn, w.mem.connNodes.lookup c) ∈ w.mem.deletedConns subId :=
      mem_deletedConns.mpr ⟨hlookup, congrArg CachedLife.subscriptionId hlife,
        congrArg CachedLife.isDeleted hlife, rfl⟩
    refine ⟨_, ⟨hitem, ?_⟩, rfl⟩
    rw [← hreason]
    exact connectionRestorable_congr (restoreUsed_eq hitem)
  · rintro ⟨item, ⟨hitem, hreason⟩, rfl⟩
    refine ⟨cached_of_mem_deletedConns hitem, ?_⟩
    rw [← hreason]
    exact connectionRestorable_congr fun h => (restoreUsed_eq hitem h).symm

theorem SameFor.revives_eq (h : SameFor subId w w') (hbooked : w.BookedToOwner)
    (hc : w.Belongs subId c) : w'.revives subId c = w.revives subId c := by
  rw [revives, revives, h.life c hc, h.used_eq hbooked, Cache.limitBytes, Cache.limitBytes,
    h.subscriptions]

theorem ownedBy_of_revives (h : w.revives subId c = true) : w.OwnedBy subId c :=
  ⟨true, of_decide_eq_true (Bool.and_eq_true_iff.mp h).1⟩

theorem life_restoreSubscription_of_active (hw : w.Reliable)
    (hfree : ∀ c, w.revives subId c = true → w.RestoresFree c) (c : Uuid) :
    (w.restoreSubscription settings now (subId, false)).life c =
      if w.revives subId c then (w.life c).restored else w.life c := by
  have hresult : w.restoreSubscription settings now (subId, false) =
      (w.restoreConnectionsBySubscription subId none now).1 := rfl
  rw [hresult]
  split
  · rename_i hrevives
    refine life_restore_of_mem hw ?_ (revives_iff.mp hrevives)
    intro item hitem
    exact hfree item.1 (revives_iff.mpr ⟨item, hitem, rfl⟩)
  · rename_i hrevives
    refine life_restore_of_not_mem ?_
    rintro item hitem rfl
    exact hrevives (revives_iff.mpr ⟨item, hitem, rfl⟩)

theorem mem_revivableSubs_of_active (hlookup : w.mem.subscriptions.lookup subId = some sub)
    (hactive : sub.isActive now = true) : (subId, false) ∈ w.mem.revivableSubs settings now :=
  List.mem_filterMap.mpr ⟨⟨subId, sub⟩, AList.mem_entries_iff.mpr hlookup, if_pos hactive⟩

/-- The restoring pass does the same: the turns of others do not matter. -/
theorem life_restoreSubscriptions_of_active (hw : w.Reliable) (hlives : w.LivesCoherent)
    (hbooked : w.BookedToOwner) (hlookup : w.mem.subscriptions.lookup subId = some sub)
    (hactive : sub.isActive now = true)
    (hfree : ∀ c, w.revives subId c = true → w.RestoresFree c) (hc : w.Belongs subId c) :
    (w.restoreSubscriptions settings now).life c =
      if w.revives subId c then (w.life c).restored else w.life c := by
  have hitem : (subId, false) ∈ w.mem.revivableSubs settings now :=
    mem_revivableSubs_of_active hlookup hactive
  obtain ⟨v, hsame, hcoherent, hlife⟩ := exists_restoreTurn hlives hitem
  have hfreeV : ∀ c, v.revives subId c = true → v.RestoresFree c := by
    intro c' hrev
    have hbelongs : w.Belongs subId c' :=
      ((ownedBy_of_revives hrev).belongs hcoherent).of_sameBooks hsame.toSameBooks.symm
    rw [hsame.revives_eq hbooked hbelongs] at hrev
    exact (hfree c' hrev).of_sameBooks hsame.toSameBooks
  rw [hlife c hc,
    life_restoreSubscription_of_active (hw.of_sameBooks hsame.toSameBooks) hfreeV c,
    hsame.revives_eq hbooked hc, hsame.life c hc]

theorem revives_of_expired (hlife : w.life c = .lapsed subId DeleteReason.expired) :
    w.revives subId c = true := by
  simp [revives, hlife, Life.lapsed, Life.reason, Option.filter, connectionRestorable]

theorem revives_of_exhausted (hlife : w.life c = .lapsed subId DeleteReason.trafficExhausted)
    (hlookup : w.mem.subscriptions.lookup subId = some sub) :
    w.revives subId c = true ↔ ∃ limit, sub.limitBytes = some limit ∧ w.used subId < limit := by
  have hreason : (w.life c).reason subId = some DeleteReason.trafficExhausted := by
    simp [hlife, Life.lapsed, Life.reason, Option.filter]
  have hlimit : w.mem.limitBytes subId = sub.limitBytes := by
    rw [Cache.limitBytes, hlookup, Option.bind_some]
  rw [revives, hreason, hlimit, Bool.and_eq_true, connectionRestorable_trafficExhausted, hlife]
  exact and_iff_right (decide_eq_true rfl)

theorem belongs_of_lapsed {reason : String} (hlife : w.life c = .lapsed subId reason) :
    w.Belongs subId c :=
  ⟨⟨true, some reason, some subId⟩, by rw [hlife]; rfl, rfl⟩

theorem serving_restored_lapsed (subId : Uuid) (reason : String) :
    (Life.lapsed subId reason).restored.Serving :=
  ⟨rfl, rfl⟩

theorem not_serving_lapsed (subId : Uuid) (reason : String) :
    ¬ (Life.lapsed subId reason).Serving := by
  rintro ⟨hcached, -⟩
  cases hcached

/-- One restoring pass makes live what was deleted, for the time or for the bytes, of a
subscription whose paid time is running, exactly when nothing of it was deleted for the
bytes or the bytes now used are below a limit. -/
theorem restoreSubscriptions_paid_iff (settings : ServiceSettings) (subId : Uuid)
    (sub : Subscription) (hw : w.Reliable) (hlives : w.LivesCoherent) (hbooked : w.BookedToOwner)
    (hlookup : w.mem.subscriptions.lookup subId = some sub)
    (hpaid : sub.paidTimeLeft now = true)
    (hfree : ∀ c, w.revives subId c = true → w.RestoresFree c) (conns : Set Uuid)
    (hconns : ∀ c ∈ conns, w.life c = .lapsed subId DeleteReason.expired ∨
      w.life c = .lapsed subId DeleteReason.trafficExhausted) :
    (∀ c ∈ conns, ((w.restoreSubscriptions settings now).life c).Serving) ↔
      ∀ c ∈ conns, w.life c = .lapsed subId DeleteReason.trafficExhausted →
        ∃ limit, sub.limitBytes = some limit ∧ w.used subId < limit := by
  have hactive := Subscription.isActive_of_paidTimeLeft hpaid
  refine forall₂_congr fun c hc => ?_
  have hafter : ∀ reason, w.life c = .lapsed subId reason →
      (((w.restoreSubscriptions settings now).life c).Serving ↔ w.revives subId c = true) := by
    intro reason hlife
    rw [life_restoreSubscriptions_of_active hw hlives hbooked hlookup hactive hfree
      (belongs_of_lapsed hlife)]
    split
    · rename_i hrevives
      rw [hlife]
      exact iff_of_true (serving_restored_lapsed subId reason) hrevives
    · rename_i hrevives
      rw [hlife]
      exact iff_of_false (not_serving_lapsed subId reason) hrevives
  rcases hconns c hc with hexpired | hexhausted
  · have hne : w.life c ≠ .lapsed subId DeleteReason.trafficExhausted := by
      rw [hexpired]
      simp [Life.lapsed, DeleteReason.expired, DeleteReason.trafficExhausted]
    rw [hafter _ hexpired]
    exact iff_of_true (revives_of_expired hexpired) fun h => absurd h hne
  · rw [hafter _ hexhausted, revives_of_exhausted hexhausted hlookup]
    exact ⟨fun h _ => h, fun h => h hexhausted⟩

end Turn

section Runs

open Traffic (hourNanos uplinkStore)

theorem bookedToOwner_of_all {w : World} (h : (w.db.connectionTraffic.entries.all fun e =>
      (w.db.connections.lookup e.1.connectionId).all fun row =>
        decide (row.subscriptionId = some e.2.subscriptionId)) = true) : w.BookedToOwner := by
  intro e he row hrow
  have hall := List.all_eq_true.mp h e he
  rw [hrow] at hall
  exact of_decide_eq_true hall

theorem restoresFree_of_all {w : World} {c : Uuid} (h : ((w.db.connections.lookup c).all fun row =>
      w.db.connections.entries.all fun e => decide (e.1 = c) ||
        !(Db.markConnRestored row).conflicts (Db.markConnRestored e.2)) = true) :
    w.RestoresFree c := by
  intro c' row row' hne hrow hrow'
  obtain ⟨old, hold, rfl⟩ := Option.map_eq_some_iff.mp hrow
  obtain ⟨old', hold', rfl⟩ := Option.map_eq_some_iff.mp hrow'
  rw [hold] at h
  have hall := List.all_eq_true.mp h ⟨c', old'⟩ (AList.mem_entries_iff.mpr hold')
  simpa [hne] using hall

theorem exists_entry_of_revives {w : World} {subId c : Uuid} (h : w.revives subId c = true) :
    ∃ e ∈ w.mem.connections.entries, e.1 = c := by
  obtain ⟨deleted, hcached⟩ := ownedBy_of_revives h
  obtain ⟨conn, hconn, -⟩ := Option.map_eq_some_iff.mp hcached
  exact ⟨⟨c, conn⟩, AList.mem_entries_iff.mpr hconn, rfl⟩

def renewedSub (limit : ℤ) : Subscription :=
  .new 1 "" (some (100 * hourNanos)) (some limit) 0

/-- Its connection 5 has used 100 bytes and is live; its connection 6 was deleted for the
bytes. -/
def renewedWorld (limit : ℤ) : World :=
  let conn (tag : Tag) := Conn.new .production (some 1) (.xray tag) none 0
  let w := ((init (fun _ => false) fun _ => false).addSub (renewedSub limit) 0).1
  let w := (w.addConn 5 (conn .vmess) none none none true).1
  let w := (w.addConn 6 (conn .vlessTcpReality) none none none true).1
  let w := w.persistConnectionTraffic (uplinkStore [(20, 0), (22, 100)]) (23 * hourNanos)
  (w.deleteConnection 6 (conn .vlessTcpReality) (some DeleteReason.trafficExhausted)
    (23 * hourNanos)).1

theorem livesCoherent_renewedWorld (limit : ℤ) : (renewedWorld limit).LivesCoherent := by
  refine LivesCoherent.of_follow ?_ (.deleteConnection _ _ _ _ _)
  refine LivesCoherent.of_follow ?_
    (.of_eq (bookRel_lives.persistConnectionTraffic _ _ _))
  refine LivesCoherent.of_follow ?_ (.addConn _ _ _ _ _ _ _)
  refine LivesCoherent.of_follow ?_ (.addConn _ _ _ _ _ _ _)
  exact (livesCoherent_init _ _).of_follow (.addSub _ _ _)

theorem bookRel_fails : BookRel fun w w' =>
    w'.dbFails = w.dbFails ∧ w'.publishFails = w.publishFails where
  refl _ := ⟨rfl, rfl⟩
  trans _ _ _ h h' := ⟨h'.1.trans h.1, h'.2.trans h.2⟩
  readWatermarks _ := by simp [dbRead]
  book _ _ _ _ _ _ _ _ := by simp
  setWatermark _ _ _ _ _ := by simp [dbExec]

theorem reliable_renewedWorld (limit : ℤ) : (renewedWorld limit).Reliable := by
  refine Reliable.of_sameBooks ?_ (.deleteConnection _ _ _ _ _)
  constructor
  · intro n
    rw [(bookRel_fails.persistConnectionTraffic _ _ _).1]
    rfl
  · intro n
    rw [(bookRel_fails.persistConnectionTraffic _ _ _).2]
    rfl

theorem restoresFree_of_entries {w : World} {subId : Uuid} (h : (w.mem.connections.entries.all
      fun e => (w.db.connections.lookup e.1).all fun row => w.db.connections.entries.all fun e' =>
        decide (e'.1 = e.1) || !(Db.markConnRestored row).conflicts (Db.markConnRestored e'.2)) =
      true) (c : Uuid) (hc : w.revives subId c = true) : w.RestoresFree c := by
  obtain ⟨e, he, rfl⟩ := exists_entry_of_revives hc
  exact restoresFree_of_all (List.all_eq_true.mp h e he)

/-- With 200 bytes to use, the connection comes back. -/
theorem restoreSubscriptions_paid_below_limit :
    (((renewedWorld 200).restoreSubscriptions ⟨true, []⟩ (23 * hourNanos)).life 6).Serving := by
  refine (restoreSubscriptions_paid_iff ⟨true, []⟩ 1 (renewedSub 200)
    (reliable_renewedWorld 200) (livesCoherent_renewedWorld 200)
    (bookedToOwner_of_all (by decide +kernel)) (by decide +kernel) (by decide +kernel)
    (restoresFree_of_entries (by decide +kernel)) {6} ?_).mpr ?_ 6 rfl
  · rintro c rfl
    exact .inr (by decide +kernel)
  · rintro c rfl -
    exact ⟨200, rfl, by decide +kernel⟩

/-- With 100 bytes to use, it does not, although the time is paid for. -/
theorem paid_connection_stays_deleted :
    let w := renewedWorld 100
    w.Reliable ∧ w.LivesCoherent ∧ w.BookedToOwner ∧
      w.mem.subscriptions.lookup 1 = some (renewedSub 100) ∧
      (renewedSub 100).planKind = .standard ∧ (renewedSub 100).paidTimeLeft (23 * hourNanos) ∧
      (∀ c, w.revives 1 c = true → w.RestoresFree c) ∧
      w.life 6 = .lapsed 1 DeleteReason.trafficExhausted ∧
      ¬ ((w.restoreSubscriptions ⟨true, []⟩ (23 * hourNanos)).life 6).Serving :=
  ⟨reliable_renewedWorld 100, livesCoherent_renewedWorld 100,
    bookedToOwner_of_all (by decide +kernel), by decide +kernel, rfl, by decide +kernel,
    restoresFree_of_entries (by decide +kernel), by decide +kernel, by decide +kernel⟩

end Runs

end World

end Fcore
