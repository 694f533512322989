import Fcore.Postgres.Load
import Fcore.Sync.Durability

/-!
# What a renewal does to access

A renewal counts its days from the present expiry while that lies in the future, and
from now otherwise. The same arithmetic stands in three places: in the update of a
subscription, in the cache part of an extension by days, and in its statement. A
subscription that has time left keeps all of it.

Activation of a key relies on the other branch: a new subscription is stored without
an expiry and its days are then counted from now. Until then, and for every plan that
has no expiry at all, the activity of a subscription without an expiry has no end. Such
a subscription gets one by a renewal of at least a day.
-/

namespace Fcore

/-- What a renewal at `now` makes of a subscription: access that was paid for stays, and
one without an expiry is left with the days it was given. -/
structure Renewed (days : ℤ) (now : DateTime) (before after : Subscription) : Prop where
  kept : before.expiresAt ≠ none → ∀ t, now ≤ t → before.isActive t = true →
    after.isActive t = true
  counted : before.expiresAt = none → 0 < days → ∀ t, now ≤ t →
    (after.isActive t = true ↔ before.isActive t = true ∧ t < now + days * dayNanos)

theorem days_nonneg {days : ℤ} (h : 0 ≤ days) : 0 ≤ days * dayNanos :=
  mul_nonneg h (by decide)

namespace Subscription

theorem isActive_iff {sub : Subscription} {t : DateTime} :
    sub.isActive t = true ↔ sub.isDeleted = false ∧ ∀ e ∈ sub.expiresAt, t < e := by
  simp [isActive, Option.all_eq_true]

theorem le_extensionBase (sub : Subscription) (now : DateTime) : now ≤ sub.extensionBase now := by
  unfold extensionBase
  split
  · split
    · rename_i h
      exact h.le
    · exact le_rfl
  · exact le_rfl

theorem expiresAt_le_extensionBase {sub : Subscription} {e : DateTime} (h : sub.expiresAt = some e)
    (now : DateTime) : e ≤ sub.extensionBase now := by
  simp only [extensionBase, h]
  split
  · exact le_rfl
  · rename_i hlate
    exact not_lt.mp hlate

end Subscription

namespace Renewed

variable {days : ℤ} {now : DateTime} {before after : Subscription}

theorem of_expiresAt (hdays : 0 ≤ days) (hdeleted : after.isDeleted = before.isDeleted)
    (hexpires : after.expiresAt = some (before.extendedExpiry days now)) :
    Renewed days now before after := by
  constructor
  · intro hsome t _ hactive
    obtain ⟨e, he⟩ := Option.ne_none_iff_exists'.mp hsome
    obtain ⟨hlive, hbefore⟩ := Subscription.isActive_iff.mp hactive
    have hlt : t < e := hbefore e he
    have hle : e ≤ before.extendedExpiry days now :=
      (Subscription.expiresAt_le_extensionBase he now).trans
        (le_add_of_nonneg_right (days_nonneg hdays))
    apply Subscription.isActive_iff.mpr
    rw [hdeleted, hexpires]
    exact ⟨hlive, fun e' he' => Option.some.inj he' ▸ hlt.trans_le hle⟩
  · intro hnone _ t _
    have hbase : before.extendedExpiry days now = now + days * dayNanos := by
      simp [Subscription.extendedExpiry, Subscription.extensionBase, hnone]
    rw [Subscription.isActive_iff, Subscription.isActive_iff, hdeleted, hexpires, hnone, hbase]
    simp

theorem of_eq (hdays : days ≤ 0) (h : after = before) : Renewed days now before after := by
  subst h
  constructor
  · intro _ t _ hactive
    exact hactive
  · intro _ hpos
    exact absurd hpos (not_lt.mpr hdays)

end Renewed

theorem renewed_extend {days : ℤ} (hdays : 0 ≤ days) (sub : Subscription) (now : DateTime) :
    Renewed days now sub (sub.extend days now) :=
  .of_expiresAt hdays rfl rfl

/-- The cache part of an extension. A new expiry that is not in the future is dropped, but
then there were no days to add. -/
theorem renewed_extendSub {days : ℤ} (hdays : 0 ≤ days) {mem : Cache} {subId : Uuid}
    {sub : Subscription} (hsub : mem.subscriptions.lookup subId = some sub) (now : DateTime) :
    ∃ sub', (mem.extendSub subId days now).subscriptions.lookup subId = some sub' ∧
      Renewed days now sub sub' ∧ (sub.expiresAt = none → days = 0 → sub' = sub) := by
  simp only [Cache.extendSub, AList.lookup_modify_self, hsub, Option.map_some]
  refine ⟨_, rfl, ?_⟩
  rw [Subscription.setExpiresAt]
  split
  · rename_i sub' hok
    split at hok
    · cases hok
    · rename_i hfuture
      cases hok
      refine ⟨.of_expiresAt hdays rfl rfl, fun hnone hzero => absurd ?_ hfuture⟩
      simp [Subscription.extensionBase, hnone, hzero]
  · rename_i hrefused
    split at hrefused
    · have hbase := sub.le_extensionBase now
      have hzero : days * dayNanos ≤ 0 := by linarith
      exact ⟨.of_eq (nonpos_of_mul_nonpos_left hzero (by decide)) rfl, fun _ _ => rfl⟩
    · cases hrefused

/-- The statement of an extension. -/
theorem renewed_addDays {days : ℤ} (hdays : 0 ≤ days) (lower : String → String) {db : Db}
    {subId : Uuid} {row : SubscriptionRow} (hrow : db.subscriptions.lookup subId = some row)
    (now : DateTime) :
    ∃ db' row', db.addDays subId days now = .ok (db', row') ∧
      db'.subscriptions.lookup subId = some row' ∧
      Renewed days now (row.toSubscription lower subId) (row'.toSubscription lower subId) := by
  refine ⟨_, _, World.updateSubscriptionRow_of_lookup hrow _, AList.lookup_insert _, ?_⟩
  exact .of_expiresAt hdays rfl rfl

/-- A renewal by days never shortens the access of a subscription that has an expiry, and
gives one that has none the days from now, if there are any: in an update, in the cache after
an extension by days, and in the table after its statement. Without days the cache keeps a
subscription that has no expiry as it is. -/
theorem renewal_keeps_access (sub : Subscription) (days : ℤ) (hdays : 0 ≤ days) (now : DateTime) :
    Renewed days now sub (sub.extend days now) ∧
    (∀ (w : World) (subId : Uuid) (later : DateTime),
      w.mem.subscriptions.lookup subId = some sub →
        ∃ sub', (w.addDaysAt subId days now later).1.mem.subscriptions.lookup subId = some sub' ∧
          Renewed days now sub sub' ∧ (sub.expiresAt = none → days = 0 → sub' = sub)) ∧
    ∀ (lower : String → String) (db : Db) (subId : Uuid) (row : SubscriptionRow),
      db.subscriptions.lookup subId = some row → row.toSubscription lower subId = sub →
        ∃ db' row', db.addDays subId days now = .ok (db', row') ∧
          db'.subscriptions.lookup subId = some row' ∧
          Renewed days now sub (row'.toSubscription lower subId) := by
  refine ⟨renewed_extend hdays sub now, ?_, ?_⟩
  · intro w subId later hsub
    rcases w.addDaysAt_cases subId days now later with ⟨hnone, -⟩ | ⟨hmem, -⟩
    · rw [hsub] at hnone
      cases hnone
    · rw [hmem]
      exact renewed_extendSub hdays hsub now
  · intro lower db subId row hrow hsub
    subst hsub
    exact renewed_addDays hdays lower hrow now

/-- A subscription with a day left, renewed by a day. -/
theorem renewal_keeps_access_day :
    Renewed 1 0 (.new 1 "" (some dayNanos) none 0)
      ((Subscription.new 1 "" (some dayNanos) none 0).extend 1 0) :=
  (renewal_keeps_access _ 1 (by decide) 0).1

/-- A subscription that never expires is active after 31 days; renewed by 30 days it is not,
neither where an update writes it nor where an extension does. -/
theorem not_renewal_keeps_never_expiring :
    let sub := Subscription.new 1 "" none none 0
    let w := ((World.init (fun _ => false) fun _ => false).addSub sub 0).1
    sub.isActive (31 * dayNanos) = true ∧
      (sub.extend 30 0).isActive (31 * dayNanos) = false ∧
      ((w.addDays 1 30 0).1.mem.subscriptions.lookup 1).map (·.isActive (31 * dayNanos)) =
        some false ∧
      ((w.addDays 1 30 0).1.db.subscriptions.lookup 1).map (·.expiresAt) =
        some (some (30 * dayNanos)) := by
  decide +kernel

end Fcore
