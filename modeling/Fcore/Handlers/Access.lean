import Fcore.Postgres.Connection
import Fcore.Postgres.Traffic
import Fcore.Sync.World

/-!
# Access of a subscription to the configurations

Every endpoint that hands out client configurations first classifies the
subscription. Time left means full access. A subscription whose time is over may
live on its traffic balance, if the deployment allows that mode, and the balance
is read from the database; a failed read counts as a balance that is left.

`Subscription.isActiveWithTraffic` is the same decision in one place. The two differ on
subscriptions without an expiry: the endpoints give them full access whatever their
balance is, while the method asks for bytes that are left.
-/

namespace Fcore

inductive ServingAccess where
  | full
  | trafficMode
  | expired
  | checkBalance (limit : ℤ)
  deriving DecidableEq, Repr

def servingAccess (sub : Subscription) (trafficModeEnabled : Bool) (now : DateTime) :
    ServingAccess :=
  if sub.isActive now then .full
  else if !trafficModeEnabled || sub.isDeleted || !sub.timeExpired now then .expired
  else
    match sub.limitBytes with
    | some limit => .checkBalance limit
    | none => .expired

namespace World

/-- Settle a pending balance. -/
def resolveServingAccess (subId : Uuid) (access : ServingAccess) (w : World) :
    World × ServingAccess :=
  match access with
  | .checkBalance limit =>
    match w.dbRead (Db.totalForSubscription subId) with
    | (w, .ok (uplink, downlink)) =>
      (w, if 0 < limit - (uplink + downlink) then .trafficMode else .expired)
    | (w, .error _) => (w, .trafficMode)
  | terminal => (w, terminal)

theorem resolveServingAccess_mem (subId : Uuid) (access : ServingAccess) (w : World) :
    (w.resolveServingAccess subId access).1.mem = w.mem := by
  unfold resolveServingAccess
  cases access with
  | checkBalance limit =>
    rcases dbRead_eq (Db.totalForSubscription subId) w with h | h <;> rw [h] <;> rfl
  | _ => rfl

/-- What a subscription is given once its balance is known. -/
theorem resolveServingAccess_servingAccess {w : World} {subId : Uuid} {usedBytes : ℤ}
    (hdb : w.dbFails w.calls = false)
    (hused : (w.db.totalForSubscription subId).1 + (w.db.totalForSubscription subId).2 = usedBytes)
    (sub : Subscription) (now : DateTime) :
    (w.resolveServingAccess subId (servingAccess sub true now)).2 =
      if sub.isActive now then .full
      else if !sub.isDeleted && sub.trafficMode true usedBytes now then .trafficMode
      else .expired := by
  have hread : w.dbRead (Db.totalForSubscription subId) =
      (w.tick, .ok (w.db.totalForSubscription subId)) := by
    simp [dbRead, dbCall, hdb, tick]
  subst hused
  cases hactive : sub.isActive now with
  | true => simp [servingAccess, hactive, resolveServingAccess]
  | false =>
    cases hdeleted : sub.isDeleted with
    | true => simp [servingAccess, hactive, hdeleted, resolveServingAccess]
    | false =>
      cases hexpired : sub.timeExpired now with
      | false =>
        simp [servingAccess, hactive, hexpired, resolveServingAccess,
          Subscription.trafficMode]
      | true =>
        cases hlimit : sub.limitBytes with
        | none =>
          simp [servingAccess, hactive, hdeleted, hexpired, hlimit, resolveServingAccess,
            Subscription.trafficMode, Subscription.remainingBytes]
        | some limit =>
          simp [servingAccess, hactive, hdeleted, hexpired, hlimit, resolveServingAccess,
            hread, Subscription.trafficMode, Subscription.remainingBytes]

end World

namespace Subscription

/-- The one decision in terms of the other: bytes left count for a subscription without an
expiry too. -/
theorem isActiveWithTraffic_iff {sub : Subscription} {usedBytes : ℤ} {now : DateTime} :
    sub.isActiveWithTraffic true usedBytes now = true ↔ sub.isDeleted = false ∧
      ((∃ e ∈ sub.expiresAt, now < e) ∨ (∃ r ∈ sub.remainingBytes usedBytes, 0 < r) ∨
        sub.remainingBytes usedBytes = none ∧ sub.expiresAt = none) := by
  unfold isActiveWithTraffic
  cases sub.isDeleted <;> cases sub.expiresAt <;> cases sub.remainingBytes usedBytes <;> simp

end Subscription

/-- With traffic mode on and the database answering, a subscription is served exactly when
it is active by time or bytes, or has no expiry and is not deleted; it is served in full
exactly when it is not deleted and has time left or no expiry. -/
theorem servingAccess_agrees (w : World) (sub : Subscription) (subId : Uuid) (usedBytes : ℤ)
    (now : DateTime) (hdb : w.dbFails w.calls = false)
    (hused : (w.db.totalForSubscription subId).1 + (w.db.totalForSubscription subId).2 =
      usedBytes) :
    let access := (w.resolveServingAccess subId (servingAccess sub true now)).2
    (access ≠ .expired ↔ sub.isActiveWithTraffic true usedBytes now = true ∨
      sub.isDeleted = false ∧ sub.expiresAt = none) ∧
    (access = .full ↔ sub.isDeleted = false ∧
      ((∃ e ∈ sub.expiresAt, now < e) ∨ sub.expiresAt = none)) := by
  simp only [World.resolveServingAccess_servingAccess hdb hused,
    Subscription.isActiveWithTraffic_iff]
  cases hdeleted : sub.isDeleted with
  | true => simp [Subscription.isActive, hdeleted]
  | false =>
    cases hexpires : sub.expiresAt with
    | none => simp [Subscription.isActive, hdeleted, hexpires]
    | some e =>
      rcases lt_or_ge now e with hlt | hge
      · simp [Subscription.isActive, hdeleted, hexpires, hlt]
      · have hmode : sub.trafficMode true usedBytes now =
            (sub.remainingBytes usedBytes).any fun r => decide (0 < r) := by
          simp [Subscription.trafficMode, Subscription.timeExpired, hexpires, hge]
        cases hleft : sub.remainingBytes usedBytes with
        | none =>
          simp [Subscription.isActive, hdeleted, hexpires, not_lt.mpr hge, hmode, hleft]
        | some left =>
          rcases lt_or_ge 0 left with hpos | hneg
          · simp [Subscription.isActive, hdeleted, hexpires, not_lt.mpr hge, hmode, hleft,
              hpos]
          · simp [Subscription.isActive, hdeleted, hexpires, not_lt.mpr hge, hmode, hleft,
              not_lt.mpr hneg]

/-- Subscription 1 has one live connection, with some bytes booked. -/
def bookedWorld (bytes : ℤ) : World :=
  let w := World.init (fun _ => false) fun _ => false
  { w with db := { w.db with
      connections := AList.singleton 7 (.ofConn (.new .dev (some 1) (.xray .vmess) none 0))
      connectionTraffic := AList.singleton ⟨7, .day, 0⟩ ⟨1, "dev", bytes, 0⟩ } }

/-- With 60 of 100 bytes left, a subscription is served after its time is over, but not in
full. -/
theorem servingAccess_agrees_balance :
    let access := ((bookedWorld 40).resolveServingAccess 1
      (servingAccess (.new 1 "" (some 5) (some 100) 0) true 10)).2
    access ≠ .expired ∧ access ≠ .full := by
  have hagrees := servingAccess_agrees (bookedWorld 40) (.new 1 "" (some 5) (some 100) 0) 1 40 10
    rfl (by decide +kernel)
  exact ⟨hagrees.1.mpr (.inl (by decide)), fun hfull => absurd (hagrees.2.mp hfull) (by decide)⟩

/-- A subscription without an expiry that has used up its bytes is served in full, although
it is not active by time or bytes. -/
theorem not_servingAccess_agrees_exhausted :
    let sub := Subscription.newLite 1 "" 100 0
    (bookedWorld 100).db.totalForSubscription 1 = (100, 0) ∧
      ((bookedWorld 100).resolveServingAccess 1 (servingAccess sub true 10)).2 =
        .full ∧
      sub.isActiveWithTraffic true 100 10 = false ∧ sub.limitBytes = some 100 := by
  decide +kernel

end Fcore
