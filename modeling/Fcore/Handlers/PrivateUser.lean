import Fcore.Handlers.Connection
import Fcore.Handlers.PrivateNode
import Fcore.Lib.Run
import Fcore.Postgres.Subscription

/-!
# Users of an account

An account invites users: child subscriptions that have connections to the nodes
of the account. A user is created by taking a slot in the tables, caching the
child and creating its connections one by one, all undone if one of them fails.
It is revoked by deleting its connections, marking the child deleted in the cache
and then in the tables.

A revocation that got as far as the cache is not repeated: the next call does not
find the user. So the two places agree after every call of a run exactly if the
tables are written whenever the cache was.
-/

namespace Fcore

namespace Subscription

def isSelfhostedUser (sub : Subscription) : Bool :=
  sub.parentId.isSome && decide (sub.planKind = .selfhosted)

def markDeleted (now : DateTime) (sub : Subscription) : Subscription :=
  { sub with isDeleted := true, updatedAt := now }

end Subscription

def checkUserOwner (ownerId : Uuid) (mem : Cache) : Except Reply Unit :=
  match mem.subscriptions.lookup ownerId with
  | none => .error (.notFound "subscription not found")
  | some owner =>
    if owner.isDeleted then .error (.notFound "subscription not found")
    else if owner.parentId.isSome then
      .error (.badRequest "a user of a selfhosted account cannot invite users")
    else if owner.userLimit ≤ 0 then .error (.badRequest "user limit is 0 for this account")
    else .ok ()

def Cache.markSubDeleted (subId : Uuid) (now : DateTime) (mem : Cache) : Cache :=
  { mem with subscriptions := mem.subscriptions.modify subId (Subscription.markDeleted now) }

theorem World.deleteConnection_subscriptions (connId : Uuid) (conn : Conn) (reason : Option String)
    (now : DateTime) (w : World) :
    (w.deleteConnection connId conn reason now).1.mem.subscriptions = w.mem.subscriptions ∧
      (w.deleteConnection connId conn reason now).1.db.subscriptions = w.db.subscriptions := by
  rcases World.deleteConnection_eq connId conn reason now w with
    ⟨-, _, -, h⟩ | ⟨-, ⟨_, h⟩ | ⟨_, h⟩ | h⟩ <;> rw [h] <;> exact ⟨rfl, rfl⟩

theorem Db.deleteSubscription_ok {subId : Uuid} {now : DateTime} {db db' : Db}
    {row : SubscriptionRow} (h : db.deleteSubscription subId now = .ok (db', row)) :
    db' = { db with subscriptions := AList.insert subId row db.subscriptions } ∧
      row.isDeleted = true := by
  unfold Db.deleteSubscription Db.updateSubscriptionRow at h
  split at h
  · cases h
  · cases h
    exact ⟨rfl, rfl⟩

structure PrivateUserRevokeResponse where
  subscriptionId : Uuid
  deleted : Bool
  connectionsDeleted : ℕ
  deriving DecidableEq

/-- A request to revoke a user, and the time it comes at. -/
structure Revocation where
  childId : Uuid
  ownerId : Uuid
  now : DateTime

namespace Revocation

/-- Only a live user of this account is found. -/
def findUser (call : Revocation) (mem : Cache) : Except Reply (List (Uuid × Conn)) :=
  match checkUserOwner call.ownerId mem with
  | .error reply => .error reply
  | .ok () =>
    match mem.subscriptions.lookup call.childId with
    | none => .error (.notFound "user not found")
    | some child =>
      if child.isDeleted || !child.isSelfhostedUser || child.parentId ≠ some call.ownerId then
        .error (.notFound "user not found")
      else
        .ok (((mem.connections.getBySubscriptionId call.childId).getD []).filter fun c =>
          !c.2.isDeleted)

def deleteConns (call : Revocation) : List (Uuid × Conn) → World → World × Except SyncError Unit
  | [], w => (w, .ok ())
  | c :: rest, w =>
    match w.deleteConnection c.1 c.2 (some DeleteReason.manual) call.now with
    | (w, .error e) => (w, .error e)
    | (w, .ok _) => call.deleteConns rest w

def deletePrivateUserHandler (call : Revocation) (w : World) :
    World × Except Reply PrivateUserRevokeResponse :=
  match call.findUser w.mem with
  | .error reply => (w, .error reply)
  | .ok conns =>
    match call.deleteConns conns w with
    | (w, .error _) => (w, .error (.internalError "delete failed"))
    | (w, .ok ()) =>
      let w := w.writeMem (Cache.markSubDeleted call.childId call.now)
      match w.dbCall (Db.deleteSubscription call.childId call.now) with
      | (w, .error _) => (w, .error (.internalError "delete failed"))
      | (w, .ok _) => (w, .ok ⟨call.childId, true, conns.length⟩)

def step (w : World) (call : Revocation) : World := (call.deletePrivateUserHandler w).1

/-- The call gets as far as marking the child in the cache, and then the table is not
written. -/
def Torn (call : Revocation) (w : World) : Prop :=
  ∃ conns, call.findUser w.mem = .ok conns ∧ (call.deleteConns conns w).2 = .ok () ∧
    ∃ e, (((call.deleteConns conns w).1.writeMem
      (Cache.markSubDeleted call.childId call.now)).dbCall
        (Db.deleteSubscription call.childId call.now)).2 = .error e

variable {call : Revocation} {w : World} {conns : List (Uuid × Conn)} {id : Uuid}

theorem deleteConns_subscriptions (call : Revocation) (conns : List (Uuid × Conn)) (w : World) :
    (call.deleteConns conns w).1.mem.subscriptions = w.mem.subscriptions ∧
      (call.deleteConns conns w).1.db.subscriptions = w.db.subscriptions := by
  induction conns generalizing w with
  | nil => exact ⟨rfl, rfl⟩
  | cons c rest ih =>
    have hone := World.deleteConnection_subscriptions c.1 c.2 (some DeleteReason.manual) call.now w
    rw [deleteConns]
    split <;> rename_i heq <;> rw [heq] at hone
    · exact hone
    · exact ⟨(ih _).1.trans hone.1, (ih _).2.trans hone.2⟩

/-- The child is deleted in the cache exactly if it is in the tables. -/
def Agrees (id : Uuid) (w : World) : Prop :=
  (w.mem.subscriptions.lookup id).any Subscription.isDeleted =
    (w.db.subscriptions.lookup id).any SubscriptionRow.isDeleted

theorem live_of_findUser (h : call.findUser w.mem = .ok conns) :
    ∃ child, w.mem.subscriptions.lookup call.childId = some child ∧ child.isDeleted = false := by
  unfold findUser at h
  split at h
  · cases h
  split at h
  · cases h
  · rename_i child hchild
    split at h
    · cases h
    · rename_i hnot
      refine ⟨child, hchild, ?_⟩
      simp only [Bool.or_eq_true, not_or, Bool.not_eq_true] at hnot
      exact hnot.1.1

/-- What a call does to subscriptions: nothing, or it marks a live child in the cache, and then
in the table too unless it is torn. -/
theorem step_cases (call : Revocation) (w : World) :
    (¬ call.Torn w ∧ (step w call).mem.subscriptions = w.mem.subscriptions ∧
      (step w call).db.subscriptions = w.db.subscriptions) ∨
    ((∃ child, w.mem.subscriptions.lookup call.childId = some child ∧ child.isDeleted = false) ∧
      (step w call).mem.subscriptions =
        w.mem.subscriptions.modify call.childId (Subscription.markDeleted call.now) ∧
      ((¬ call.Torn w ∧ ∃ row, row.isDeleted = true ∧
          (step w call).db.subscriptions = AList.insert call.childId row w.db.subscriptions) ∨
        (call.Torn w ∧ (step w call).db.subscriptions = w.db.subscriptions))) := by
  unfold step deletePrivateUserHandler Torn
  cases hfind : call.findUser w.mem with
  | error reply => exact .inl ⟨(fun ⟨_, h, _⟩ => nomatch h), rfl, rfl⟩
  | ok conns =>
    obtain ⟨hsubs, hrows⟩ := deleteConns_subscriptions call conns w
    simp only [Except.ok.injEq, exists_eq_left']
    rcases hdelete : call.deleteConns conns w with ⟨w₁, _ | _⟩
    · rw [hdelete] at hsubs hrows
      exact .inl ⟨(fun h => nomatch h.1), hsubs, hrows⟩
    · rw [hdelete] at hsubs hrows
      refine .inr ⟨live_of_findUser hfind, ?_⟩
      dsimp only at hsubs hrows ⊢
      rcases World.dbCall_eq (Db.deleteSubscription call.childId call.now)
        (w₁.writeMem (Cache.markSubDeleted call.childId call.now)) with
        ⟨db, row, hdb, hcall⟩ | ⟨e, hcall⟩
      · obtain ⟨rfl, hrow⟩ := Db.deleteSubscription_ok hdb
        rw [hcall]
        refine ⟨by rw [← hsubs]; rfl, .inl ⟨(fun ⟨_, e, he⟩ => nomatch he), row, hrow, ?_⟩⟩
        rw [← hrows]
        rfl
      · rw [hcall]
        exact ⟨by rw [← hsubs]; rfl, .inr ⟨⟨rfl, e, rfl⟩, hrows⟩⟩

/-- A call that starts in agreement ends in it exactly if it is not torn. -/
theorem agrees_step_iff (h : Agrees id w) :
    Agrees id (step w call) ↔ ¬ (call.childId = id ∧ call.Torn w) := by
  unfold Agrees at *
  rcases step_cases call w with ⟨hwhole, hsubs, hrows⟩ | ⟨⟨child, hchild, hlive⟩, hsubs, hrest⟩
  · rw [hsubs, hrows]
    exact iff_of_true h fun htorn => hwhole htorn.2
  · rw [hsubs]
    by_cases hid : call.childId = id
    · subst hid
      rw [AList.lookup_modify_self, hchild]
      rcases hrest with ⟨hwhole, row, hrow, hrows⟩ | ⟨htorn, hrows⟩
      · rw [hrows, AList.lookup_insert]
        exact iff_of_true hrow.symm fun htorn => hwhole htorn.2
      · rw [hrows, ← h, hchild]
        refine iff_of_false ?_ (not_not.mpr ⟨rfl, htorn⟩)
        simp [Subscription.markDeleted, hlive]
    · rw [AList.lookup_modify_ne (Ne.symm hid)]
      refine iff_of_true ?_ fun htorn => hid htorn.1
      rcases hrest with ⟨-, row, -, hrows⟩ | ⟨-, hrows⟩
      · rw [hrows, AList.lookup_insert_ne (Ne.symm hid), h]
      · rw [hrows, h]

/-- After every call of a run a child is deleted in the cache exactly if it is in the tables,
if and only if no call for this child is torn. -/
theorem revocations_agree_iff {calls : List Revocation} (h : Agrees id w) :
    (∀ w' ∈ calls.scanl step w, Agrees id w') ↔
      Run.Along step (fun w call => ¬ (call.childId = id ∧ call.Torn w)) w calls :=
  Run.forall_scanl_iff (J := fun _ => True)
    (fun _ _ _ _ hagrees => ⟨trivial, agrees_step_iff hagrees⟩) trivial h

/-- An account with one user, that has no connections. -/
def accountWithUser (dbFails : ℕ → Bool) : World :=
  let w := World.init dbFails fun _ => false
  let owner := Subscription.new 1 "" none none 0
  let user := Subscription.newUserChild 2 "" 1 0
  { w with
    mem := { w.mem with subscriptions := AList.insert 1 owner (AList.insert 2 user ∅) }
    db := { w.db with
      subscriptions := AList.insert 1 (owner.toRow 0) (AList.insert 2 (user.toRow 0) ∅) } }

/-- The table is not written the first time, and the next call does not find the user. -/
theorem not_agrees_of_torn :
    ¬ (∀ w' ∈ [⟨2, 1, 5⟩].scanl step (accountWithUser fun n => n == 0), Agrees 2 w') ∧
      (deletePrivateUserHandler ⟨2, 1, 6⟩
        (step (accountWithUser fun n => n == 0) ⟨2, 1, 5⟩)).2 =
          .error (.notFound "user not found") := by
  refine ⟨fun h => ?_, by decide⟩
  have htorn := h (step (accountWithUser fun n => n == 0) ⟨2, 1, 5⟩) (by simp [List.scanl])
  exact absurd htorn (by unfold Agrees; decide)

theorem agrees_of_whole :
    Agrees 2 ([⟨2, 1, 5⟩, ⟨2, 1, 6⟩].foldl step (accountWithUser fun _ => false)) := by
  have hrun : ∀ w' ∈ [⟨2, 1, 5⟩, ⟨2, 1, 6⟩].scanl step (accountWithUser fun _ => false),
      Agrees 2 w' := by
    refine (revocations_agree_iff ?_).mpr ⟨?_, ?_, trivial⟩
    · rfl
    · rintro ⟨-, conns, hfind, -, e, he⟩
      cases hfind
      cases he
    · rintro ⟨-, conns, hfind, -⟩
      cases hfind
  exact hrun _ (by simp [List.scanl])

end Revocation

end Fcore
