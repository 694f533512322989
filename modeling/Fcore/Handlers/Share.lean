import Fcore.Http.Reply
import Fcore.Sync.Life

/-!
# Share tokens

A share token stands for one child connection. Revoking a token marks its row and
then deletes the child, unless the cache has it as deleted already; whether that
deletion worked does not show in the answer.
-/

namespace Fcore

def shareKindSub : String := "sub"

namespace Db

def shareToken (token : String) (db : Db) : Option ShareTokenRow := db.shareTokens.lookup token

def revokeShareToken (token : String) (now : DateTime) (db : Db) : Db :=
  { db with shareTokens := db.shareTokens.modify token fun row =>
      if row.revokedAt.isNone then { row with revokedAt := some now } else row }

end Db

def shareNotFound : Reply := .notFound "share_not_found"

namespace World

def deleteChildConnection (childId : Uuid) (child : Conn) (now : DateTime) (w : World) : World :=
  (w.deleteConnection childId child (some DeleteReason.manual) now).1

def dropChild (childId : Uuid) (now : DateTime) (w : World) : World :=
  match w.mem.connections.lookup childId with
  | none => w
  | some child => if child.isDeleted then w else w.deleteChildConnection childId child now

def revokeShareInner (token : String) (subId : Uuid) (now : DateTime) (w : World) :
    World × Except Reply Unit :=
  match w.dbRead (Db.shareToken token) with
  | (w, .error _) => (w, .error (.internalError "share revoke failed"))
  | (w, .ok none) => (w, .error shareNotFound)
  | (w, .ok (some row)) =>
    if row.revokedAt.isSome || decide (row.subscriptionId ≠ subId) then (w, .error shareNotFound)
    else
      match w.dbExec (Db.revokeShareToken token now) with
      | (w, .error _) => (w, .error (.internalError "share revoke failed"))
      | (w, .ok ()) => (w.dropChild row.connectionId now, .ok ())

theorem connections_revokeShareToken (token : String) (now : DateTime) (w : World) :
    (w.dbExec (Db.revokeShareToken token now)).1.db.connections = w.db.connections := by
  rcases dbExec_cases (Db.revokeShareToken token now) w with ⟨-, hdb⟩ | ⟨-, hdb⟩
  · rw [hdb]
  · rw [hdb]
    rfl

/-- What revoking a token does: nothing to the connections, or it was a usable
token, and its child is dropped after two calls of the database. -/
theorem revokeShareInner_cases (token : String) (subId : Uuid) (now : DateTime) (w : World) :
    (∃ reply, (w.revokeShareInner token subId now).2 = .error reply ∧
      (w.revokeShareInner token subId now).1.mem = w.mem ∧
      (w.revokeShareInner token subId now).1.db.connections = w.db.connections) ∨
    ∃ (row : ShareTokenRow) (w' : World), w.db.shareTokens.lookup token = some row ∧
      (w.revokeShareInner token subId now).2 = .ok () ∧
      (w.revokeShareInner token subId now).1 = w'.dropChild row.connectionId now ∧
      w'.mem = w.mem ∧ w'.db.connections = w.db.connections ∧ w'.dbFails = w.dbFails ∧
      w'.publishFails = w.publishFails ∧ w'.calls = w.calls + 2 := by
  have hmem := dbRead_mem (Db.shareToken token) w
  have hdb := congrArg Db.connections (dbRead_db (Db.shareToken token) w)
  unfold revokeShareInner
  cases hresult : w.dbRead (Db.shareToken token) with
  | mk w₁ result =>
    have hw₁ : w₁ = (w.dbCall fun db => .ok (db, db.shareToken token)).1 :=
      (congrArg Prod.fst hresult).symm
    rw [hresult] at hmem hdb
    match result with
    | .error e => exact .inl ⟨_, rfl, hmem, hdb⟩
    | .ok none => exact .inl ⟨_, rfl, hmem, hdb⟩
    | .ok (some row) =>
      have hrow : some row = w.db.shareToken token := dbRead_ok (congrArg Prod.snd hresult)
      dsimp only
      split
      · exact .inl ⟨_, rfl, hmem, hdb⟩
      have hmem' := (dbExec_mem (Db.revokeShareToken token now) w₁).trans hmem
      have hdb' := (connections_revokeShareToken token now w₁).trans hdb
      cases hmarked : w₁.dbExec (Db.revokeShareToken token now) with
      | mk w₂ marked =>
        have hw₂ : w₂ = (w₁.dbCall fun db => .ok (db.revokeShareToken token now, ())).1 :=
          (congrArg Prod.fst hmarked).symm
        rw [hmarked] at hmem' hdb'
        match marked with
        | .error e => exact .inl ⟨_, rfl, hmem', hdb'⟩
        | .ok () =>
          refine .inr ⟨row, w₂, hrow.symm, rfl, rfl, hmem', hdb', ?_, ?_, ?_⟩ <;>
            simp [hw₂, hw₁]

theorem dropChild_cases (childId : Uuid) (now : DateTime) (w : World) :
    w.dropChild childId now = w ∧
        (∀ owner, (w.life childId).cached ≠ some ⟨false, owner⟩) ∨
      ∃ child owner, (w.life childId).cached = some ⟨false, owner⟩ ∧
        w.dropChild childId now = w.deleteChildConnection childId child now := by
  unfold dropChild
  cases hlookup : w.mem.connections.lookup childId with
  | none => exact .inl ⟨rfl, by simp [life, hlookup]⟩
  | some child =>
    cases hdeleted : child.isDeleted with
    | true => exact .inl ⟨by simp [hdeleted], by simp [life, hlookup, Conn.life, hdeleted]⟩
    | false =>
      exact .inr ⟨child, child.subscriptionId, by simp [life, hlookup, Conn.life, hdeleted],
        by simp [hdeleted]⟩

theorem LivesFollow.revokeShareInner (token : String) (subId : Uuid) (now : DateTime)
    (w : World) : LivesFollow w (w.revokeShareInner token subId now).1 := by
  rcases revokeShareInner_cases token subId now w with
    ⟨_, -, hmem, hdb⟩ | ⟨row, w', -, -, hdrop, hmem, hdb, -⟩
  · exact .of_eq (life_congr (by rw [hmem]) hdb)
  · rw [hdrop]
    refine (LivesFollow.of_eq (life_congr (by rw [hmem]) hdb)).trans ?_
    rcases dropChild_cases row.connectionId now w' with ⟨hsame, -⟩ | ⟨child, owner, -, hdelete⟩
    · rw [hsame]
      exact .refl w'
    · rw [hdelete]
      exact .deleteConnection _ _ _ now w'

end World

end Fcore
