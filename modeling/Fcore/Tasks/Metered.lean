import Fcore.Tasks.Turn

/-!
# What is served on a traffic balance

A subscription whose paid time is over lives on while bytes are left on its balance, and
then only with the protocols whose traffic is metered. The restoring pass keeps to that.
The clean-up does not: it leaves a subscription with bytes left alone, and with it the
connections that served the paid time, of whatever protocol.

After one turn of each pass, without failures, all that is served on a balance is metered
exactly when it was so before for the subscriptions whose balance is positive also after
the connections that can be revived were counted. The connections of a subscription
without bytes left are all deleted, and come back as far as they are metered.
-/

namespace Fcore

namespace World

section Balance

variable {settings : ServiceSettings} {now : DateTime} {w w' : World} {subId c : Uuid}
  {sub : Subscription} {limit : ℤ}

def Belongs (w : World) (subId c : Uuid) : Prop :=
  ∃ row, (w.life c).stored = some row ∧ row.subscriptionId = some subId

theorem Belongs.of_sameBooks (h : w.Belongs subId c) (hsame : SameBooks w w') :
    w'.Belongs subId c := by
  obtain ⟨stored, hstored, howner⟩ := h
  obtain ⟨row, hrow, rfl⟩ := Option.map_eq_some_iff.mp hstored
  have hrows := hsame.rows c
  rw [hrow] at hrows
  obtain ⟨row', hrow', heq⟩ := Option.map_eq_some_iff.mp hrows
  exact ⟨row'.life, by rw [life, hrow', Option.map_some],
    (congrArg ConnRow.subscriptionId heq).trans howner⟩

theorem OwnedBy.belongs (h : w.OwnedBy subId c) (hw : w.LivesCoherent) : w.Belongs subId c := by
  obtain ⟨deleted, hcached⟩ := h
  obtain ⟨row, hrow, howner, -⟩ := hw c _ hcached
  exact ⟨row, hrow, howner⟩

theorem Belongs.eq {subId' : Uuid} (h : w.Belongs subId c) (h' : w.Belongs subId' c) :
    subId = subId' := by
  obtain ⟨row, hrow, howner⟩ := h
  obtain ⟨row', hrow', howner'⟩ := h'
  rw [hrow] at hrow'
  cases hrow'
  rw [howner] at howner'
  exact Option.some.inj howner'

structure SameFor (subId : Uuid) (w w' : World) : Prop extends SameBooks w w' where
  life : ∀ c, w.Belongs subId c → w'.life c = w.life c

theorem SameFor.refl (subId : Uuid) (w : World) : SameFor subId w w := ⟨.refl w, fun _ _ => rfl⟩

theorem SameFor.trans {w₁ w₂ w₃ : World} (h : SameFor subId w₁ w₂) (h' : SameFor subId w₂ w₃) :
    SameFor subId w₁ w₃ :=
  ⟨h.toSameBooks.trans h'.toSameBooks, fun c hc =>
    (h'.life c (hc.of_sameBooks h.toSameBooks)).trans (h.life c hc)⟩

/-- Traffic is booked under the subscription that a connection belongs to. -/
def BookedToOwner (w : World) : Prop :=
  ∀ e ∈ w.db.connectionTraffic.entries, ∀ row, w.db.connections.lookup e.1.connectionId = some row →
    row.subscriptionId = some e.2.subscriptionId

theorem bytesOf_congr {counted counted' : Uuid → Bool}
    (htraffic : w'.db.connectionTraffic = w.db.connectionTraffic) (hw : w.BookedToOwner)
    (hbelongs : ∀ c, w.Belongs subId c → counted' c = counted c)
    (hmissing : ∀ c, w.db.connections.lookup c = none → counted' c = counted c) :
    w'.bytesOf subId counted' = w.bytesOf subId counted := by
  have hfilter : (w'.db.connectionTraffic.entries.filter fun e =>
      decide (e.2.subscriptionId = subId) && decide (e.1.period = .day) &&
        counted' e.1.connectionId) = w.db.connectionTraffic.entries.filter fun e =>
      decide (e.2.subscriptionId = subId) && decide (e.1.period = .day) &&
        counted e.1.connectionId := by
    rw [htraffic]
    apply List.filter_congr
    intro e he
    by_cases hsub : e.2.subscriptionId = subId
    · suffices counted' e.1.connectionId = counted e.1.connectionId by rw [this]
      cases hrow : w.db.connections.lookup e.1.connectionId with
      | none => exact hmissing _ hrow
      | some row =>
        apply hbelongs
        have howner : row.subscriptionId = some subId := hsub ▸ hw e he row hrow
        exact ⟨row.life, by rw [life, hrow, Option.map_some], howner⟩
    · simp [hsub]
  rw [bytesOf, bytesOf, hfilter]

theorem SameBooks.lookup_eq_none (h : SameBooks w w') (hrow : w.db.connections.lookup c = none) :
    w'.db.connections.lookup c = none := by
  have hrows := h.rows c
  rw [hrow] at hrows
  exact Option.map_eq_none_iff.mp hrows

theorem SameFor.used_eq (h : SameFor subId w w') (hw : w.BookedToOwner) :
    w'.used subId = w.used subId := by
  apply bytesOf_congr h.traffic hw
  · intro c hc
    rw [isLive_eq_life, isLive_eq_life, h.life c hc]
  · intro c hc
    rw [Db.isLive, Db.isLive, h.toSameBooks.lookup_eq_none hc, hc]

theorem BookedToOwner.of_sameBooks (h : w.BookedToOwner) (hsame : SameBooks w w') :
    w'.BookedToOwner := by
  intro e he row hrow
  rw [hsame.traffic] at he
  have hrows := hsame.rows e.1.connectionId
  rw [hrow] at hrows
  obtain ⟨row₀, hrow₀, heq⟩ := Option.map_eq_some_iff.mp hrows.symm
  rw [← h e he row₀ hrow₀]
  exact (congrArg ConnRow.subscriptionId heq).symm

theorem sameFor_cleanupSubscription {other : Uuid} (hw : w.LivesCoherent) (hne : other ≠ subId) :
    SameFor subId w (w.cleanupSubscription settings now other) where
  toSameBooks := deleteRel_sameBooks.cleanupSubscription other w
  life _ hc := life_cleanupSubscription_of_not_owned fun howned =>
    hne ((howned.belongs hw).eq hc)

theorem sameFor_cleanup (hmode : settings.trafficModeEnabled = true) (hw : w.Reliable)
    (hlives : w.LivesCoherent) (hbooked : w.BookedToOwner) (h : OnBalance now w subId sub limit)
    (hleft : w.used subId < limit) :
    SameFor subId w (w.cleanupExpiredSubscriptions settings now) := by
  suffices hI : SameFor subId w (w.cleanupExpiredSubscriptions settings now) ∧
      (w.cleanupExpiredSubscriptions settings now).LivesCoherent from hI.1
  refine Run.invariant_foldl (I := fun w' : World => SameFor subId w w' ∧ w'.LivesCoherent)
    ⟨.refl subId w, hlives⟩ fun w' other _ hw' => ?_
  obtain ⟨hsame, hlives'⟩ := hw'
  refine ⟨hsame.trans ?_, hlives'.of_follow (deleteRel_livesFollow.cleanupSubscription other w')⟩
  by_cases hother : other = subId
  · subst hother
    exact ⟨deleteRel_sameBooks.cleanupSubscription other w', fun c _ =>
      life_cleanupSubscription_of_balance hmode (hw.of_sameBooks hsame.toSameBooks)
        (h.of_sameBooks hsame.toSameBooks) (by rwa [hsame.used_eq hbooked]) c⟩
  · exact sameFor_cleanupSubscription hlives' hother

theorem mem_inactiveSubs (h : OnBalance now w subId sub limit) :
    subId ∈ w.mem.inactiveSubs now :=
  List.mem_map.mpr ⟨⟨subId, sub⟩, List.mem_filter.mpr ⟨AList.mem_entries_iff.mpr h.lookup,
    by simp [h.not_isActive]⟩, rfl⟩

theorem cached_cleanup_of_spent (hmode : settings.trafficModeEnabled = true) (hw : w.Reliable)
    (hlives : w.LivesCoherent) (hbooked : w.BookedToOwner) (h : OnBalance now w subId sub limit)
    (hspent : limit ≤ w.used subId) (howned : w.OwnedBy subId c) :
    ((w.cleanupExpiredSubscriptions settings now).life c).cached = some ⟨true, some subId⟩ := by
  -- Until the subscription is visited its connections are as they were.
  have hkeep : ∀ (w' : World) (other : Uuid), (w'.life c).cached = some ⟨true, some subId⟩ →
      ((w'.cleanupSubscription settings now other).life c).cached = some ⟨true, some subId⟩ := by
    intro w' other hcached
    rw [(deleteRel_deleted c).cleanupSubscription other w' _ hcached]
    exact hcached
  have hvisit : ∀ w' : World, SameFor subId w w' →
      ((w'.cleanupSubscription settings now subId).life c).cached = some ⟨true, some subId⟩ :=
    fun w' hsame => cached_cleanupSubscription_of_spent hmode (hw.of_sameBooks hsame.toSameBooks)
      (h.of_sameBooks hsame.toSameBooks) (by rwa [hsame.used_eq hbooked])
      (howned.of_sameBooks hsame.toSameBooks)
  refine Run.reach_of_invariant (I := fun w' : World => w'.LivesCoherent ∧
      (SameFor subId w w' ∨ (w'.life c).cached = some ⟨true, some subId⟩))
    (Q := fun w' : World => (w'.life c).cached = some ⟨true, some subId⟩) (mem_inactiveSubs h)
    ⟨hlives, .inl (.refl subId w)⟩ ?_ ?_ (fun w' other _ => hkeep w' other)
  · rintro w' other - ⟨hlives', hw'⟩
    refine ⟨hlives'.of_follow (deleteRel_livesFollow.cleanupSubscription other w'), ?_⟩
    rcases hw' with hsame | hcached
    · by_cases hother : other = subId
      · exact .inr (hother ▸ hvisit w' hsame)
      · exact .inl (hsame.trans (sameFor_cleanupSubscription hlives' hother))
    · exact .inr (hkeep w' other hcached)
  · rintro w' ⟨-, hsame | hcached⟩
    · exact hvisit w' hsame
    · exact hkeep w' subId hcached

theorem sameFor_enforce (hw : w.Reliable) (hlives : w.LivesCoherent) (hbooked : w.BookedToOwner)
    (h : OnBalance now w subId sub limit) (hleft : w.used subId < limit) :
    SameFor subId w (w.enforceTrafficLimits settings now) := by
  refine Run.invariant_foldl (I := SameFor subId w) (.refl subId w) fun w' item hitem hsame => ?_
  refine hsame.trans ⟨deleteRel_sameBooks.enforceTrafficLimit item w', fun c hc => ?_⟩
  by_cases hitemSub : item.1 = subId
  · apply life_enforceTrafficLimit_of_balance (hw.of_sameBooks hsame.toSameBooks)
    subst hitemSub
    rwa [hsame.used_eq hbooked, limit_of_mem_enforcedSubs hitem h]
  · apply life_enforceTrafficLimit_of_not_mem
    rintro x hx rfl
    have howned := (ownedBy_of_mem_enforcedSubs hitem hx).belongs hlives
    exact hitemSub ((howned.of_sameBooks hsame.toSameBooks).eq hc)

theorem sameFor_restoreSubscription {item : Uuid × Bool} (hw : w.LivesCoherent)
    (hne : item.1 ≠ subId) : SameFor subId w (w.restoreSubscription settings now item) where
  toSameBooks := restoreRel_sameBooks.restoreSubscription item w
  life _ hc := life_restoreSubscription_of_ne fun hcached =>
    hne ((OwnedBy.belongs ⟨_, hcached⟩ hw).eq hc)

theorem sameFor_restoreOthers (settings : ServiceSettings) (now : DateTime)
    {items : List (Uuid × Bool)} (hw : w.LivesCoherent)
    (hne : ∀ item ∈ items, item.1 ≠ subId) :
    SameFor subId w (items.foldl (restoreSubscription settings now) w) ∧
      (items.foldl (restoreSubscription settings now) w).LivesCoherent := by
  refine Run.invariant_foldl (I := fun w' : World => SameFor subId w w' ∧ w'.LivesCoherent)
    ⟨.refl subId w, hw⟩ fun w' item hitem hw' => ?_
  exact ⟨hw'.1.trans (sameFor_restoreSubscription hw'.2 (hne item hitem)),
    hw'.2.of_follow (restoreRel_livesFollow.restoreSubscription item w')⟩

theorem life_restoreSubscription_of_balance (hw : w.Reliable)
    (h : OnBalance now w subId sub limit) (hleft : w.used subId < limit)
    (hfree : ∀ c, w.revivable settings subId c = true → w.RestoresFree c) (c : Uuid) :
    (w.restoreSubscription settings now (subId, true)).life c =
      if w.revivable settings subId c then (w.life c).restored else w.life c := by
  have hresult : w.restoreSubscription settings now (subId, true) =
      (w.tick.restoreConnectionsBySubscription subId (some settings.meteredConns) now).1 := by
    have hleft : (w.db.totalForSubscription subId).1 + (w.db.totalForSubscription subId).2 <
      limit := hleft
    simp [restoreSubscription, hw.db.dbRead, h.lookup, Subscription.remainingBytes, h.limitBytes,
      hleft]
  have htick : w.tick.Reliable := hw.of_sameBooks (.tick w)
  rw [hresult]
  split
  · rename_i hrevivable
    refine life_restore_of_mem (w := w.tick) htick ?_ (revivable_iff.mp hrevivable)
    intro item hitem
    exact hfree item.1 (revivable_iff.mpr ⟨item, hitem, rfl⟩)
  · rename_i hrevivable
    refine life_restore_of_not_mem (w := w.tick) ?_
    rintro item hitem rfl
    exact hrevivable (revivable_iff.mpr ⟨item, hitem, rfl⟩)

theorem SameFor.revivable_eq (h : SameFor subId w w') (hbooked : w.BookedToOwner)
    (hc : w.Belongs subId c) :
    w'.revivable settings subId c = w.revivable settings subId c := by
  have hlife := h.life c hc
  have hconn : (w'.mem.connections.lookup c).any (fun conn => conn.isDeleted &&
        decide (conn.subscriptionId = some subId) &&
        conn.proto.proto.isMetered settings.meteredConns) =
      (w.mem.connections.lookup c).any fun conn => conn.isDeleted &&
        decide (conn.subscriptionId = some subId) &&
        conn.proto.proto.isMetered settings.meteredConns := by
    have hcached : (w'.mem.connections.lookup c).map Conn.life =
        (w.mem.connections.lookup c).map Conn.life := congrArg Life.cached hlife
    cases hold : w.mem.connections.lookup c with
    | none =>
      rw [hold, Option.map_none, Option.map_eq_none_iff] at hcached
      rw [hcached]
    | some conn =>
      obtain ⟨conn', hconn', howner, hproto⟩ := h.toSameBooks.symm.exists_conn hold
      rw [hold, hconn', Option.map_some, Option.map_some, Option.some.injEq] at hcached
      have hdeleted : conn'.isDeleted = conn.isDeleted := congrArg CachedLife.isDeleted hcached
      rw [hconn', Option.any_some, Option.any_some, hdeleted, howner, hproto]
  rw [revivable, revivable, hconn, hlife, h.used_eq hbooked, Cache.limitBytes, Cache.limitBytes,
    h.subscriptions]

theorem ownedBy_of_revivable (h : w.revivable settings subId c = true) : w.OwnedBy subId c := by
  obtain ⟨item, hitem, rfl⟩ := revivable_iff.mp h
  exact ⟨true, cached_of_mem_deletedConns (List.mem_of_mem_filter hitem)⟩

def runPasses (settings : ServiceSettings) (now : DateTime) (w : World) : World :=
  ((w.cleanupExpiredSubscriptions settings now).enforceTrafficLimits settings
    now).restoreSubscriptions settings now

/-- No call fails, and no unique index refuses what can be revived. -/
structure NoFailures (settings : ServiceSettings) (w : World) : Prop extends Reliable w where
  free : ∀ subId c, w.revivable settings subId c = true → w.RestoresFree c

structure Sound (w : World) : Prop where
  lives : w.LivesCoherent
  booked : w.BookedToOwner
  nonneg : w.db.NonnegTraffic

/-- What a restoring pass does to the connections of a subscription is what its turn does,
in a state where nothing has happened to them. -/
theorem exists_restoreTurn {item : Uuid × Bool} (hlives : w.LivesCoherent)
    (hitem : item ∈ w.mem.revivableSubs settings now) :
    ∃ v, SameFor item.1 w v ∧ v.LivesCoherent ∧ ∀ c, w.Belongs item.1 c →
      (w.restoreSubscriptions settings now).life c =
        (v.restoreSubscription settings now item).life c := by
  have hnodup := nodup_revivableSubs settings now w.mem
  obtain ⟨before, rest, hlist⟩ := List.append_of_mem hitem
  rw [hlist, List.map_append, List.map_cons, List.nodup_append, List.nodup_cons] at hnodup
  have hbefore : ∀ other ∈ before, other.1 ≠ item.1 := fun other hmem =>
    hnodup.2.2 other.1 (List.mem_map_of_mem hmem) item.1 (by simp)
  have hrest : ∀ other ∈ rest, other.1 ≠ item.1 := by
    intro other hmem heq
    exact hnodup.2.1.1 (List.mem_map.mpr ⟨other, hmem, heq⟩)
  rw [restoreSubscriptions, hlist, List.foldl_append]
  -- The turns of the others, before and after, do nothing to the subscription's connections.
  obtain ⟨hsame, hcoherent⟩ := sameFor_restoreOthers settings now hlives hbefore
  generalize before.foldl (restoreSubscription settings now) w = v at hsame hcoherent ⊢
  refine ⟨v, hsame, hcoherent, fun c hc => ?_⟩
  have hcoherent' : (v.restoreSubscription settings now item).LivesCoherent :=
    hcoherent.of_follow (restoreRel_livesFollow.restoreSubscription item v)
  apply (sameFor_restoreOthers settings now hcoherent' hrest).1.life c
  exact hc.of_sameBooks
    (hsame.toSameBooks.trans (restoreRel_sameBooks.restoreSubscription item v))

/-- The restoring pass, in a state where nothing has happened to the connections of a
subscription with bytes left. -/
theorem life_restoreSubscriptions_of_balance (hmode : settings.trafficModeEnabled = true)
    (hfail : w.NoFailures settings) (hsound : w.Sound) (h : OnBalance now w subId sub limit)
    (hleft : w.used subId < limit) (hsame : SameFor subId w w') (hw' : w'.LivesCoherent)
    (hc : w.Belongs subId c) :
    (w'.restoreSubscriptions settings now).life c =
      if w.revivable settings subId c then (w.life c).restored else w.life c := by
  have hitem : (subId, true) ∈ w'.mem.revivableSubs settings now :=
    mem_revivableSubs hmode (h.of_sameBooks hsame.toSameBooks)
  obtain ⟨v, hsameTurn, hcoherent, hlife⟩ := exists_restoreTurn hw' hitem
  have hsameV : SameFor subId w v := hsame.trans hsameTurn
  have hfree : ∀ c, v.revivable settings subId c = true → v.RestoresFree c := by
    intro c' hrev
    have hbelongs : w.Belongs subId c' :=
      ((ownedBy_of_revivable hrev).belongs hcoherent).of_sameBooks hsameV.toSameBooks.symm
    rw [hsameV.revivable_eq hsound.booked hbelongs] at hrev
    exact (hfail.free subId c' hrev).of_sameBooks hsameV.toSameBooks
  have hturn := life_restoreSubscription_of_balance
    (hfail.toReliable.of_sameBooks hsameV.toSameBooks) (h.of_sameBooks hsameV.toSameBooks)
    (by rwa [hsameV.used_eq hsound.booked]) hfree c
  rw [hlife c (hc.of_sameBooks hsame.toSameBooks), hturn, hsameV.revivable_eq hsound.booked hc,
    hsameV.life c hc]

theorem sameBooks_runPasses (settings : ServiceSettings) (now : DateTime) (w : World) :
    SameBooks w (w.runPasses settings now) :=
  ((deleteRel_sameBooks.cleanupExpiredSubscriptions w).trans
    (deleteRel_sameBooks.enforceTrafficLimits _)).trans
      (restoreRel_sameBooks.restoreSubscriptions _)

theorem life_runPasses_of_balance (hmode : settings.trafficModeEnabled = true)
    (hfail : w.NoFailures settings) (hsound : w.Sound) (h : OnBalance now w subId sub limit)
    (hleft : w.used subId < limit) (hc : w.Belongs subId c) :
    (w.runPasses settings now).life c =
      if w.revivable settings subId c then (w.life c).restored else w.life c := by
  have hclean := sameFor_cleanup hmode hfail.toReliable hsound.lives hsound.booked h hleft
  have hlives : (w.cleanupExpiredSubscriptions settings now).LivesCoherent :=
    hsound.lives.of_follow (deleteRel_livesFollow.cleanupExpiredSubscriptions w)
  have henforce : SameFor subId (w.cleanupExpiredSubscriptions settings now)
      ((w.cleanupExpiredSubscriptions settings now).enforceTrafficLimits settings now) :=
    sameFor_enforce (hfail.toReliable.of_sameBooks hclean.toSameBooks) hlives
      (hsound.booked.of_sameBooks hclean.toSameBooks) (h.of_sameBooks hclean.toSameBooks)
      (by rwa [hclean.used_eq hsound.booked])
  exact life_restoreSubscriptions_of_balance hmode hfail hsound h hleft (hclean.trans henforce)
    (hlives.of_follow (deleteRel_livesFollow.enforceTrafficLimits _)) hc

/-- The bytes of a subscription on its live connections and on those that can be
revived. -/
def usedWithRevived (settings : ServiceSettings) (w : World) (subId : Uuid) : ℤ :=
  w.bytesOf subId fun c => w.db.isLive c || w.revivable settings subId c

theorem used_le_usedWithRevived (settings : ServiceSettings) (hnonneg : w.db.NonnegTraffic)
    (subId : Uuid) : w.used subId ≤ w.usedWithRevived settings subId := by
  apply bytesOf_mono hnonneg
  intro c hc
  rw [hc, Bool.true_or]

theorem used_runPasses_of_balance (hmode : settings.trafficModeEnabled = true)
    (hfail : w.NoFailures settings) (hsound : w.Sound) (h : OnBalance now w subId sub limit)
    (hleft : w.used subId < limit) :
    (w.runPasses settings now).used subId = w.usedWithRevived settings subId := by
  have hsame := sameBooks_runPasses settings now w
  rw [used_eq_bytesOf]
  apply bytesOf_congr hsame.traffic hsound.booked
  · intro c hc
    obtain ⟨row, hrow, -⟩ := id hc
    rw [isLive_eq_life, isLive_eq_life, life_runPasses_of_balance hmode hfail hsound h hleft hc]
    split
    · rename_i hrevivable
      simp [hrevivable, Life.restored, hrow]
    · rename_i hrevivable
      simp [hrevivable]
  · intro c hc
    have hrevivable : w.revivable settings subId c = false := by
      by_contra hrev
      obtain ⟨row, hrow, -⟩ :=
        (ownedBy_of_revivable (by simpa using hrev)).belongs hsound.lives
      rw [life, hc] at hrow
      cases hrow
    rw [Db.isLive, hsame.lookup_eq_none hc, hrevivable, Db.isLive, hc]
    rfl

theorem cached_restoreSubscriptions_of_unmetered (h : OnBalance now w subId sub limit)
    (hcached : (w.life c).cached = some ⟨true, some subId⟩)
    (hproto : ∀ conn, w.mem.connections.lookup c = some conn →
      conn.proto.proto.isMetered settings.meteredConns = false) :
    ((w.restoreSubscriptions settings now).life c).cached = some ⟨true, some subId⟩ := by
  suffices hI : SameBooks w (w.restoreSubscriptions settings now) ∧
      ((w.restoreSubscriptions settings now).life c).cached = some ⟨true, some subId⟩ from hI.2
  refine Run.invariant_foldl (I := fun w' : World => SameBooks w w' ∧
    (w'.life c).cached = some ⟨true, some subId⟩) ⟨.refl w, hcached⟩ fun w' item hitem hw' => ?_
  obtain ⟨hsame, hcached'⟩ := hw'
  refine ⟨hsame.trans (restoreRel_sameBooks.restoreSubscription item w'), ?_⟩
  suffices hlife : (w'.restoreSubscription settings now item).life c = w'.life c by rwa [hlife]
  by_cases hsub : item.1 = subId
  · obtain ⟨id, onlyBalance⟩ := item
    obtain rfl : id = subId := hsub
    obtain rfl : onlyBalance = true := onlyBalance_of_mem_revivableSubs hitem h
    apply life_restoreSubscription_of_not_mem
    rintro picked hpicked rfl
    have hmetered : w'.revivable settings id picked.1 = true :=
      revivable_iff.mpr ⟨picked, hpicked, rfl⟩
    obtain ⟨conn', hconn', hpick⟩ :=
      (Option.any_eq_true _ _).mp (Bool.and_eq_true_iff.mp hmetered).1
    obtain ⟨conn, hconn, -, hsameProto⟩ := hsame.exists_conn hconn'
    have hunmetered := hproto conn hconn
    rw [hsameProto] at hunmetered
    simp [hunmetered] at hpick
  · apply life_restoreSubscription_of_ne
    rw [hcached']
    simpa using fun heq => hsub heq.symm

/-- What serves on a traffic balance is metered, with the used bytes given. -/
def ServesMetered (settings : ServiceSettings) (now : DateTime) (used : Uuid → ℤ) (mem : Cache) :
    Prop :=
  ∀ subId sub, mem.subscriptions.lookup subId = some sub → sub.isDeleted = false →
    sub.trafficMode settings.trafficModeEnabled (used subId) now = true →
    ∀ c conn, mem.connections.lookup c = some conn → conn.subscriptionId = some subId →
      conn.isDeleted = false → conn.proto.proto.isMetered settings.meteredConns = true

theorem trafficMode_iff {used : ℤ} (hmode : settings.trafficModeEnabled = true) :
    sub.trafficMode settings.trafficModeEnabled used now = true ↔
      sub.timeExpired now = true ∧ ∃ limit, sub.limitBytes = some limit ∧ used < limit := by
  simp only [Subscription.trafficMode, hmode, Bool.true_and, Bool.and_eq_true, Option.any_eq_true,
    Subscription.remainingBytes, Option.map_eq_some_iff, decide_eq_true_eq]
  constructor
  · rintro ⟨hexpired, _, ⟨limit, hlimit, rfl⟩, hpos⟩
    exact ⟨hexpired, limit, hlimit, sub_pos.mp hpos⟩
  · rintro ⟨hexpired, limit, hlimit, hlt⟩
    exact ⟨hexpired, _, ⟨limit, hlimit, rfl⟩, sub_pos.mpr hlt⟩

/-- A connection that the clean-up leaves deleted, and that is not metered, is not served
after the passes. -/
theorem cached_runPasses_of_unmetered (h : OnBalance now w subId sub limit)
    (hcached : ((w.cleanupExpiredSubscriptions settings now).life c).cached =
      some ⟨true, some subId⟩)
    (hproto : ∀ conn, w.mem.connections.lookup c = some conn →
      conn.proto.proto.isMetered settings.meteredConns = false) :
    ((w.runPasses settings now).life c).cached = some ⟨true, some subId⟩ := by
  have hsame : SameBooks w
      ((w.cleanupExpiredSubscriptions settings now).enforceTrafficLimits settings now) :=
    (deleteRel_sameBooks.cleanupExpiredSubscriptions w).trans
      (deleteRel_sameBooks.enforceTrafficLimits _)
  apply cached_restoreSubscriptions_of_unmetered (h.of_sameBooks hsame)
  · rw [(deleteRel_deleted c).enforceTrafficLimits _ _ hcached]
    exact hcached
  · intro conn' hconn'
    obtain ⟨conn, hconn, -, hsameProto⟩ := hsame.exists_conn hconn'
    rw [← hsameProto]
    exact hproto conn hconn

/-- After one turn of each pass, without failures, all that serves on a traffic balance is
metered exactly when this held before of the subscriptions whose balance is positive with
the connections counted that can be revived. -/
theorem servesMetered_runPasses_iff (hmode : settings.trafficModeEnabled = true)
    (hfail : w.NoFailures settings) (hsound : w.Sound) :
    ServesMetered settings now (w.runPasses settings now).used (w.runPasses settings now).mem ↔
      ServesMetered settings now (w.usedWithRevived settings) w.mem := by
  have hsame := sameBooks_runPasses settings now w
  constructor
  · intro hserves subId sub hlookup hsub htraffic c conn hconn howner hlive
    obtain ⟨hexpired, limit, hlimit, hused⟩ := (trafficMode_iff hmode).mp htraffic
    have h : OnBalance now w subId sub limit := ⟨hlookup, hsub, hexpired, hlimit⟩
    have hleft := (used_le_usedWithRevived settings hsound.nonneg subId).trans_lt hused
    have hcached : (w.life c).cached = some ⟨false, some subId⟩ := by
      rw [life, hconn, Option.map_some, Conn.life, howner, hlive]
    have hrevivable : w.revivable settings subId c = false := by
      simp [revivable, hconn, hlive]
    have hlife := life_runPasses_of_balance hmode hfail hsound h hleft
      (OwnedBy.belongs ⟨_, hcached⟩ hsound.lives)
    rw [if_neg (by simp [hrevivable])] at hlife
    obtain ⟨conn', hconn', howner', hproto⟩ := hsame.symm.exists_conn hconn
    have hlive' : conn'.isDeleted = false := by
      have hcached' := congrArg Life.cached hlife
      rw [hcached, life, hconn'] at hcached'
      exact congrArg CachedLife.isDeleted (Option.some.inj hcached')
    rw [← hproto]
    refine hserves subId sub (by rw [hsame.subscriptions, hlookup]) hsub ?_ c conn' hconn'
      (howner'.trans howner) hlive'
    rwa [used_runPasses_of_balance hmode hfail hsound h hleft]
  · intro hserves subId sub hlookup hsub htraffic c conn hconn howner hlive
    rw [hsame.subscriptions] at hlookup
    obtain ⟨hexpired, limit, hlimit, hused⟩ := (trafficMode_iff hmode).mp htraffic
    have h : OnBalance now w subId sub limit := ⟨hlookup, hsub, hexpired, hlimit⟩
    obtain ⟨conn₀, hconn₀, howner₀, hproto⟩ := hsame.exists_conn hconn
    have howned : (w.life c).cached = some ⟨conn₀.isDeleted, some subId⟩ := by
      rw [life, hconn₀, Option.map_some, Conn.life, howner₀, howner]
    by_contra hunmetered
    -- The clean-up cannot have left the connection deleted, for it is live at the end.
    have hkept : ((w.cleanupExpiredSubscriptions settings now).life c).cached ≠
        some ⟨true, some subId⟩ := by
      intro hcached
      have hend := cached_runPasses_of_unmetered h hcached fun conn' hconn' => by
        rw [hconn₀] at hconn'
        cases hconn'
        rw [hproto]
        simpa using hunmetered
      rw [life, hconn, Option.map_some, Conn.life, hlive] at hend
      cases hend
    cases hdeleted : conn₀.isDeleted with
    | true =>
      rw [hdeleted] at howned
      apply hkept
      rw [(deleteRel_deleted c).cleanupExpiredSubscriptions w _ howned]
      exact howned
    | false =>
      rcases lt_or_ge (w.used subId) limit with hleft | hspent
      · rw [used_runPasses_of_balance hmode hfail hsound h hleft] at htraffic
        apply hunmetered
        rw [← hproto]
        exact hserves subId sub hlookup hsub htraffic c conn₀ hconn₀ (howner₀.trans howner)
          hdeleted
      · exact hkept (cached_cleanup_of_spent hmode hfail.toReliable hsound.lives hsound.booked h
          hspent ⟨_, howned⟩)

end Balance

section Runs

open Traffic (hourNanos)

theorem sound_liteWorld (expiresAt : Option DateTime) : (liteWorld expiresAt).Sound where
  lives := livesCoherent_liteWorld expiresAt
  booked := by
    intro e he
    cases he
  nonneg := nonnegTraffic_liteWorld expiresAt

theorem eq_of_lookup_liteWorld {expiresAt : Option DateTime} {c : Uuid} {conn : Conn}
    (h : (liteWorld expiresAt).mem.connections.lookup c = some conn) :
    Conn.new .production (some 1) (.xray .vmess) none 0 = conn := by
  have hconns : (liteWorld expiresAt).mem.connections = AList.insert 5
    (Conn.new .production (some 1) (.xray .vmess) none 0) ∅ := rfl
  rw [hconns] at h
  exact (AList.eq_of_lookup_single h).2

theorem noFailures_liteWorld (settings : ServiceSettings) (expiresAt : Option DateTime) :
    (liteWorld expiresAt).NoFailures settings where
  db _ := rfl
  publish _ := rfl
  free subId c h := by
    obtain ⟨conn, hconn, hdeleted⟩ := (Option.any_eq_true _ _).mp (Bool.and_eq_true_iff.mp h).1
    cases eq_of_lookup_liteWorld hconn
    cases hdeleted

/-- The connection of a subscription whose time is over is of a metered protocol. -/
theorem servesMetered_runPasses_vmess :
    let settings : ServiceSettings := ⟨true, ["Vmess"]⟩
    let w := (liteWorld (some (12 * hourNanos))).runPasses settings (23 * hourNanos)
    ServesMetered settings (23 * hourNanos) w.used w.mem ∧ w.used 1 < 100 ∧
      (w.life 5).cached = some ⟨false, some 1⟩ := by
  refine ⟨(servesMetered_runPasses_iff rfl (noFailures_liteWorld _ _) (sound_liteWorld _)).mpr ?_,
    by decide +kernel, by decide +kernel⟩
  intro subId sub _ _ _ c conn hconn _ _
  cases eq_of_lookup_liteWorld hconn
  decide

/-- It is not, and it is served all the same: the passes leave it alone. -/
theorem not_servesMetered_runPasses :
    let settings : ServiceSettings := ⟨true, ["Wireguard"]⟩
    let w := (liteWorld (some (12 * hourNanos))).runPasses settings (23 * hourNanos)
    (liteWorld (some (12 * hourNanos))).NoFailures settings ∧
      ¬ ServesMetered settings (23 * hourNanos) w.used w.mem := by
  refine ⟨noFailures_liteWorld _ _, fun h => ?_⟩
  have hmetered := h 1 { Subscription.newLite 1 "" 100 0 with expiresAt := some (12 * hourNanos) }
    rfl rfl (by decide +kernel) 5 (Conn.new .production (some 1) (.xray .vmess) none 0) rfl rfl rfl
  revert hmetered
  decide

end Runs

end World

end Fcore
