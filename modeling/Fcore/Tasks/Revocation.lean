import Fcore.Handlers.Share
import Fcore.Tasks

/-!
# Whether a revocation is final

A connection is revoked when it is deleted by hand, or when the share token it was
made for is revoked. Both leave a connection alone that the cache has as deleted
already, and then the stored reason is still that of the earlier deletion. Renewing
the subscription looks at that reason only, so a connection that expired before it
was revoked comes back. A revocation that meets a live connection is final.
-/

namespace Fcore

/-- What the api does to connections and to the subscriptions that pay for them. -/
inductive ApiOp where
  | addSub (sub : Subscription)
  | addConn (connId : Uuid) (conn : Conn) (label : Option String) (nodeId : Option Uuid)
      (issuedVia : Option String) (includeInMain : Bool)
  | deleteConnection (connId : Uuid) (conn : Conn) (reason : Option String)
  | revokeShare (token : String) (subId : Uuid)
  | updateSub (subId : Uuid) (req : SubReq)
  | addDays (subId : Uuid) (days : ℤ)
  | addLimitBytes (subId : Uuid) (bytes : ℤ) (traceId : Uuid)
  | cleanupExpiredConnections
  | cleanupExpiredSubscriptions
  | restoreSubscriptions
  | enforceTrafficLimits
  | persistConnectionTraffic (metrics : MetricStorage)

def DeleteReason.isFinal (reason : Option String) : Bool :=
  reason.any fun reason =>
    decide (reason ≠ DeleteReason.expired) && decide (reason ≠ DeleteReason.trafficExhausted)

theorem connectionRestorable_of_isFinal {reason : Option String}
    (h : DeleteReason.isFinal reason = true) (used : ℤ) (limit : Option ℤ) :
    connectionRestorable reason used limit = false := by
  cases reason with
  | none => cases h
  | some reason =>
    have hreason : reason ≠ DeleteReason.expired ∧ reason ≠ DeleteReason.trafficExhausted := by
      simpa [DeleteReason.isFinal] using h
    simp [connectionRestorable, hreason]

namespace Life

def isCachedLive (l : Life) : Bool := l.cached.any fun conn => !conn.isDeleted

/-- Deleted in both places, and nothing can revive it: it belongs to no
subscription, or the stored reason is a final one. -/
def settled (l : Life) : Bool :=
  match l.cached, l.stored with
  | some conn, some row => conn.isDeleted && row.isDeleted &&
      decide (row.subscriptionId = conn.subscriptionId) &&
      (conn.subscriptionId.isNone || DeleteReason.isFinal row.deletedReason)
  | _, _ => false

variable {l : Life}

theorem settled_iff : l.settled = true ↔ ∃ owner reason,
    l.cached = some ⟨true, owner⟩ ∧ l.stored = some ⟨true, reason, owner⟩ ∧
      (owner = none ∨ DeleteReason.isFinal reason = true) := by
  obtain ⟨cached, stored⟩ := l
  constructor
  · intro h
    match cached, stored with
    | some ⟨deleted, owner⟩, some ⟨deleted', reason, owner'⟩ =>
      simp only [settled, Bool.and_eq_true, decide_eq_true_eq, Bool.or_eq_true,
        Option.isNone_iff_eq_none] at h
      obtain ⟨⟨⟨rfl, rfl⟩, rfl⟩, h⟩ := h
      exact ⟨owner', reason, rfl, rfl, h⟩
  · rintro ⟨owner, reason, rfl, rfl, h⟩
    simpa [settled] using h

theorem not_settled_of_step {l' : Life} (hstep : LifeStep l l') : l.settled = false := by
  refine Bool.eq_false_iff.mpr fun hsettled => ?_
  obtain ⟨owner, reason, hcached, hstored, hfinal⟩ := settled_iff.mp hsettled
  cases hstep with
  | add conn hnew =>
    rw [hnew] at hstored
    cases hstored
  | deleteInTable reason owner hlive | delete reason owner hlive =>
    rw [hlive] at hcached
    cases hcached
  | restore subId used limit hdeleted hreason =>
    rw [hdeleted] at hcached
    cases hcached
    rcases hfinal with hnone | hfinal
    · cases hnone
    · have hfound : l.reason subId = reason := by simp [Life.reason, hstored, Option.filter]
      rw [hfound, connectionRestorable_of_isFinal hfinal] at hreason
      cases hreason

theorem settled_steps {l' : Life} (h : l.settled = true) (hsteps : LifeSteps l l') :
    l'.settled = true := by
  rcases Relation.ReflTransGen.cases_head hsteps with rfl | ⟨_, hstep, -⟩
  · exact h
  · rw [not_settled_of_step hstep] at h
    cases h

theorem not_isLive_of_settled (h : l.settled = true) : ¬ l.IsLive := by
  obtain ⟨owner, reason, hcached, hstored, -⟩ := settled_iff.mp h
  simp [IsLive, hcached, hstored]

end Life

namespace World

/-- The state after an operation at some time. -/
def step (settings : ServiceSettings) (w : World) (event : DateTime × ApiOp) : World :=
  let now := event.1
  match event.2 with
  | .addSub sub => (w.addSub sub now).1
  | .addConn connId conn label nodeId issuedVia includeInMain =>
    (w.addConn connId conn label nodeId issuedVia includeInMain).1
  | .deleteConnection connId conn reason => (w.deleteConnection connId conn reason now).1
  | .revokeShare token subId => (w.revokeShareInner token subId now).1
  | .updateSub subId req => (w.updateSub subId req now).1
  | .addDays subId days => (w.addDays subId days now).1
  | .addLimitBytes subId bytes traceId => (w.addLimitBytes subId bytes traceId now).1
  | .cleanupExpiredConnections => w.cleanupExpiredConnections now
  | .cleanupExpiredSubscriptions => w.cleanupExpiredSubscriptions settings now
  | .restoreSubscriptions => w.restoreSubscriptions settings now
  | .enforceTrafficLimits => w.enforceTrafficLimits settings now
  | .persistConnectionTraffic metrics => w.persistConnectionTraffic metrics now

theorem LivesFollow.step (settings : ServiceSettings) (w : World) (event : DateTime × ApiOp) :
    LivesFollow w (w.step settings event) := by
  obtain ⟨now, op⟩ := event
  cases op with
  | addSub sub => exact .addSub sub now w
  | addConn connId conn label nodeId issuedVia includeInMain =>
    exact .addConn connId conn label nodeId issuedVia includeInMain w
  | deleteConnection connId conn reason => exact .deleteConnection connId conn reason now w
  | revokeShare token subId => exact .revokeShareInner token subId now w
  | updateSub subId req => exact .updateSub subId req now w
  | addDays subId days => exact .addDays subId days now w
  | addLimitBytes subId bytes traceId => exact .addLimitBytes subId bytes traceId now w
  | cleanupExpiredConnections => exact deleteRel_livesFollow.cleanupExpiredConnections w
  | cleanupExpiredSubscriptions => exact deleteRel_livesFollow.cleanupExpiredSubscriptions w
  | restoreSubscriptions => exact restoreRel_livesFollow.restoreSubscriptions w
  | enforceTrafficLimits => exact deleteRel_livesFollow.enforceTrafficLimits w
  | persistConnectionTraffic metrics =>
    exact .of_eq (bookRel_lives.persistConnectionTraffic metrics now w)

/-- Whether an operation revokes a connection: it deletes it by hand and answers
without an error, or it revokes the token the connection was made for. -/
def Revokes (w : World) (event : DateTime × ApiOp) (c : Uuid) : Prop :=
  match event.2 with
  | .deleteConnection connId conn reason => connId = c ∧ reason = some DeleteReason.manual ∧
      ∃ status, (w.deleteConnection connId conn reason event.1).2 = .ok status
  | .revokeShare token subId =>
    (∃ row, w.db.shareTokens.lookup token = some row ∧ row.connectionId = c) ∧
      (w.revokeShareInner token subId event.1).2 = .ok ()
  | _ => False

/-- A revocation comes in time: the cache has the connection as live, or it is
settled already. The deletion of the child of a token is not allowed to fail; its
two calls follow two others. -/
def revokedInTime (w : World) (event : DateTime × ApiOp) : Bool :=
  match event.2 with
  | .deleteConnection connId _ reason =>
    decide (reason ≠ some DeleteReason.manual) || (w.life connId).isCachedLive ||
      (w.life connId).settled
  | .revokeShare token _ => (w.db.shareTokens.lookup token).all fun row =>
    (w.life row.connectionId).isCachedLive && !w.dbFails (w.calls + 2) &&
        !w.publishFails (w.calls + 3) ||
      (w.life row.connectionId).settled
  | _ => true

/-- In a run, what was revoked is never live again. -/
def RevocationsFinal (settings : ServiceSettings) (w₀ : World) (events : List (DateTime × ApiOp)) :
    Prop :=
  ∀ before event after c, events = before ++ event :: after →
    (before.foldl (step settings) w₀).Revokes event c →
      ∀ w ∈ after.scanl (step settings) ((before.foldl (step settings) w₀).step settings event),
        ¬ (w.life c).IsLive

variable {w : World}

theorem LivesCoherent.step (h : w.LivesCoherent) (settings : ServiceSettings)
    (event : DateTime × ApiOp) : (w.step settings event).LivesCoherent :=
  h.of_follow (LivesFollow.step settings w event)

theorem settled_deleted {l : Life} (h : l.Coherent) {owner : Option Uuid}
    (hlive : l.cached = some ⟨false, owner⟩) : (l.deleted (some DeleteReason.manual)).settled := by
  obtain ⟨row, hrow, howner, -⟩ := h _ hlive
  refine Life.settled_iff.mpr ⟨owner, some DeleteReason.manual, ?_, ?_, .inr (by decide)⟩
  · simp [Life.deleted, hlive, Life.deleteCached]
  · simp [Life.deleted, hrow, Life.deleteStored, howner]

theorem exists_owner_of_isCachedLive {l : Life} (h : l.isCachedLive = true) :
    ∃ owner, l.cached = some ⟨false, owner⟩ := by
  obtain ⟨cached, stored⟩ := l
  match cached, h with
  | some ⟨false, owner⟩, _ => exact ⟨owner, rfl⟩

theorem settled_dropChild {childId : Uuid} (now : DateTime) (hw : (w.life childId).Coherent)
    (hlive : (w.life childId).isCachedLive = true) (hdb : w.dbFails w.calls = false)
    (hpublish : w.publishFails (w.calls + 1) = false) :
    ((w.dropChild childId now).life childId).settled = true := by
  obtain ⟨owner, hcached⟩ := exists_owner_of_isCachedLive hlive
  rcases dropChild_cases childId now w with ⟨-, hnot⟩ | ⟨child, -, -, hdelete⟩
  · exact absurd hcached (hnot owner)
  · obtain ⟨status, hok⟩ :=
      deleteConnection_ok childId child (some DeleteReason.manual) now hdb hpublish
    rw [hdelete, deleteChildConnection, life_deleteConnection_of_ok hcached hok]
    exact settled_deleted hw hcached

/-- A successful revocation of the share of a live connection settles it, when the
two calls of the deletion succeed. -/
theorem settled_revokeShareInner {token : String} {subId : Uuid} {now : DateTime}
    {row : ShareTokenRow} (hrow : w.db.shareTokens.lookup token = some row)
    (hok : (w.revokeShareInner token subId now).2 = .ok ())
    (hw : (w.life row.connectionId).Coherent)
    (hlive : (w.life row.connectionId).isCachedLive = true)
    (hdb : w.dbFails (w.calls + 2) = false) (hpublish : w.publishFails (w.calls + 3) = false) :
    ((w.revokeShareInner token subId now).1.life row.connectionId).settled = true := by
  rcases revokeShareInner_cases token subId now w with
    ⟨reply, herror, -⟩ | ⟨row', w', hrow', -, hdrop, hmem, hconns, hdbFails, hpublishFails, hcalls⟩
  · rw [hok] at herror
    cases herror
  · rw [hrow] at hrow'
    cases hrow'
    have hlife := life_congr (congrArg Cache.connections hmem) hconns
    rw [hdrop]
    apply settled_dropChild now
    · rwa [hlife]
    · rwa [hlife]
    · rwa [hdbFails, hcalls]
    · rwa [hpublishFails, hcalls]

theorem settled_of_revokes {settings : ServiceSettings} {event : DateTime × ApiOp} {c : Uuid}
    (hw : w.LivesCoherent) (htime : w.revokedInTime event = true) (hrevokes : w.Revokes event c) :
    ((w.step settings event).life c).settled = true := by
  -- What is settled before the step is settled after it.
  have hsettled : (w.life c).settled = true → ((w.step settings event).life c).settled = true :=
    fun h => Life.settled_steps h (LivesFollow.step settings w event c)
  obtain ⟨now, op⟩ := event
  cases op with
  | deleteConnection connId conn reason =>
    obtain ⟨rfl, rfl, status, hok⟩ := hrevokes
    have htime' : (w.life connId).isCachedLive = true ∨ (w.life connId).settled = true := by
      simpa [revokedInTime] using htime
    rcases htime' with hlive | h
    · obtain ⟨owner, hcached⟩ := exists_owner_of_isCachedLive hlive
      simp only [step]
      rw [life_deleteConnection_of_ok hcached hok]
      exact settled_deleted (hw connId) hcached
    · exact hsettled h
  | revokeShare token subId =>
    obtain ⟨⟨row, hrow, rfl⟩, hok⟩ := hrevokes
    have htime' : ((w.life row.connectionId).isCachedLive = true ∧
        w.dbFails (w.calls + 2) = false ∧ w.publishFails (w.calls + 3) = false) ∨
        (w.life row.connectionId).settled = true := by
      simpa [revokedInTime, hrow, and_assoc] using htime
    rcases htime' with ⟨hlive, hdb, hpublish⟩ | h
    · exact settled_revokeShareInner hrow hok (hw _) hlive hdb hpublish
    · exact hsettled h
  | _ => cases hrevokes

/-- Along every run in which revocations come in time, they are final. -/
theorem revocations_final {settings : ServiceSettings} {w₀ : World}
    {events : List (DateTime × ApiOp)} (hw₀ : w₀.LivesCoherent)
    (htime : Run.Along (step settings) (fun w event => w.revokedInTime event = true) w₀ events) :
    RevocationsFinal settings w₀ events := by
  rintro before event after c rfl hrevokes w hmem
  obtain ⟨-, hevent, -⟩ := Run.along_append.mp htime
  have hcoherent : (before.foldl (step settings) w₀).LivesCoherent :=
    Run.invariant_foldl hw₀ fun w event _ hw => hw.step settings event
  have hsettled : (((before.foldl (step settings) w₀).step settings event).life c).settled = true :=
    settled_of_revokes hcoherent hevent hrevokes
  refine Life.not_isLive_of_settled ?_
  exact Run.invariant_scanl (I := fun w => (w.life c).settled = true)
    (fun w event hw _ => Life.settled_steps hw (LivesFollow.step settings w event c)) hsettled
    (Run.along_true _ _) w hmem

section Runs

def paidTimeOnly : ServiceSettings := ⟨false, []⟩

def oneDaySetup : List (DateTime × ApiOp) :=
  [(0, .addSub (Subscription.new 1 "" (some dayNanos) none 0)),
    (0, .addConn 5 (Conn.new .production (some 1) (.xray .vmess) none 0) none none none true)]

def expiredSetup : List (DateTime × ApiOp) :=
  oneDaySetup ++ [(2 * dayNanos, .cleanupExpiredSubscriptions)]

/-- The connection of `oneDaySetup` is deleted by hand at some time. -/
def deleteByHand (now : DateTime) : DateTime × ApiOp :=
  (now, .deleteConnection 5 (Conn.new .production (some 1) (.xray .vmess) none 0)
    (some DeleteReason.manual))

/-- Deleted by hand while live; expiry and renewal follow. -/
theorem revocations_final_live :
    RevocationsFinal paidTimeOnly (init (fun _ => false) fun _ => false)
      (oneDaySetup ++ [deleteByHand 1, (2 * dayNanos, .cleanupExpiredSubscriptions),
        (2 * dayNanos, .addDays 1 30), (2 * dayNanos, .restoreSubscriptions)]) :=
  revocations_final (livesCoherent_init _ _) (by decide +kernel)

/-- Expired, then deleted by hand, then renewed: the deletion is answered without
an error, and the renewal brings the connection back. -/
theorem not_revocations_final_expired :
    (init (fun _ => false) fun _ => false).LivesCoherent ∧
      ¬ RevocationsFinal paidTimeOnly (init (fun _ => false) fun _ => false)
        (expiredSetup ++ [deleteByHand (2 * dayNanos), (2 * dayNanos, .addDays 1 30)]) := by
  refine ⟨livesCoherent_init _ _, fun h => ?_⟩
  have hrevokes : (expiredSetup.foldl (step paidTimeOnly)
      (init (fun _ => false) fun _ => false)).Revokes (deleteByHand (2 * dayNanos)) 5 :=
    ⟨rfl, rfl, .notModified 5, by decide +kernel⟩
  refine h expiredSetup (deleteByHand (2 * dayNanos)) [(2 * dayNanos, .addDays 1 30)] 5 rfl
    hrevokes _ (List.mem_of_getLast? rfl) ?_
  unfold Life.IsLive
  decide +kernel

end Runs

end World

end Fcore
