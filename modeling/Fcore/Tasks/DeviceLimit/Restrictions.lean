import Fcore.Tasks.DeviceLimit

/-!
# What a replacement inherits

The replacement of a connection that is over the device limit is created without a label,
a pin or an origin, and in the main feed. Share tokens go on referring to the connection that
was deleted. So the restrictions of a connection survive exactly if it has none.
-/

namespace Fcore

/-- The replacement has what was kept beside the old connection, in the cache and in the
table, and the share tokens of the old one are its own. -/
structure World.RestrictionsKept (w w' : World) (c c' : Uuid) : Prop where
  sides : w'.mem.sides c' = w.mem.sides c
  row : ∀ row, w.db.connections.lookup c = some row →
    ∃ row', w'.db.connections.lookup c' = some row' ∧ row'.label = row.label ∧
      row'.nodeId = row.nodeId ∧ row'.issuedVia = row.issuedVia ∧
      row'.includeInMain = row.includeInMain
  tokens : ∀ token share, w.db.shareTokens.lookup token = some share → share.connectionId = c →
    share.revokedAt = none →
      (w'.db.shareTokens.lookup token).map ShareTokenRow.connectionId = some c'

/-- A connection of the main feed without label, pin, origin and share token. -/
structure World.Unrestricted (w : World) (c : Uuid) : Prop where
  sides : w.mem.sides c = Sides.bare
  row : ∀ row, w.db.connections.lookup c = some row →
    row.label = none ∧ row.nodeId = none ∧ row.issuedVia = none ∧ row.includeInMain = true
  tokens : ∀ token share, w.db.shareTokens.lookup token = some share → share.connectionId = c →
    share.revokedAt ≠ none

namespace DevicePass

variable {networks : WgNetworks} {maxTicks : ℕ} {pass : DevicePass} {s : World × Strikes}
  {c subId : Uuid} {conn : Conn}

/-- A pass deletes a stored connection after it created another one, with an identifier
nothing was known of. -/
structure Reissues (networks : WgNetworks) (maxTicks : ℕ) (pass : DevicePass)
    (s : World × Strikes) (c subId : Uuid) (conn : Conn) : Prop where
  visited : (c, subId, conn) ∈ s.1.mem.liteConns
  stored : (s.1.view c).row.isSome = true
  online : 2 ≤ pass.metrics.getConnectionOnlineCount c
  enough : maxTicks ≤ countAt s.2 c
  created : ∃ made, (pass.create networks (c, subId, conn)
    (pass.atTurn networks maxTicks s c).1).2 = .ok made
  deleted : ((pass.create networks (c, subId, conn)
    (pass.atTurn networks maxTicks s c).1).1.deleteConnection c conn
      (some DeleteReason.deviceKick) pass.now).2 = .ok (.ok c)
  fresh : ((pass.atTurn networks maxTicks s c).1.view (pass.generated c).connId).conn = none ∧
    ((pass.atTurn networks maxTicks s c).1.view (pass.generated c).connId).sides = Sides.bare

namespace Reissues

variable (h : Reissues networks maxTicks pass s c subId conn)
include h

theorem visit_eq :
    pass.visit networks maxTicks (pass.atTurn networks maxTicks s c) (c, subId, conn) =
      (((pass.create networks (c, subId, conn)
          (pass.atTurn networks maxTicks s c).1).1.deleteConnection c conn
          (some DeleteReason.deviceKick) pass.now).1,
        AList.erase c (AList.insert c (countAt (pass.atTurn networks maxTicks s c).2 c)
          (pass.atTurn networks maxTicks s c).2)) := by
  have hcount : countAt (pass.atTurn networks maxTicks s c).2 c = countAt s.2 c := by
    rw [countAt, countAt, (keeps_turn networks maxTicks pass h.visited).1.strikes]
  rcases visit_cases networks maxTicks pass (pass.atTurn networks maxTicks s c)
    (c, subId, conn) with
    ⟨honline, -⟩ | ⟨-, hless, -⟩ | ⟨-, -, ⟨msg, hmsg⟩, -⟩ | ⟨-, -, -, hvisit⟩
  · exact absurd (h.online.trans honline) (by decide)
  · rw [hcount] at hless
    exact absurd (h.enough.trans_lt hless) (lt_irrefl _)
  · obtain ⟨made, hmade⟩ := h.created
    exact absurd (hmade.symm.trans hmsg) (by simp)
  · exact hvisit

theorem shareTokens_eq :
    (pass.enforceDeviceLimit networks maxTicks s).1.db.shareTokens = s.1.db.shareTokens := by
  obtain ⟨hbefore, hafter⟩ := keeps_turn networks maxTicks pass h.visited
  rw [(hafter c (.inl rfl)).tokens, h.visit_eq, shareTokens_deleteConnection, shareTokens_create,
    hbefore.tokens]

theorem view_create_replacement :
    ((pass.atTurn networks maxTicks s c).1.view (pass.generated c).connId).row = none ∧
      ∃ made, (pass.create networks (c, subId, conn)
        (pass.atTurn networks maxTicks s c).1).1.view (pass.generated c).connId =
          ⟨some made, some (World.newRow made none none none true), Sides.bare⟩ := by
  rcases World.view_createConnectionInner networks (reissue subId conn) (pass.generated c)
    pass.now (pass.atTurn networks maxTicks s c).1 with
    ⟨⟨msg, hmsg⟩, -⟩ | ⟨made, -, -, hnew, hadded⟩
  · obtain ⟨made, hmade⟩ := h.created
    exact absurd (hmade.symm.trans hmsg) (by simp)
  · refine ⟨hnew, made, (hadded _).trans ((if_pos rfl).trans ?_)⟩
    rw [ConnView.added, h.fresh.1, h.fresh.2]
    rfl

theorem connId_ne : (pass.generated c).connId ≠ c := by
  intro heq
  have hnew := h.view_create_replacement.1
  rw [heq, (keeps_turn networks maxTicks pass h.visited).1.view h.stored] at hnew
  exact absurd h.stored (by rw [hnew]; simp)

theorem view_replacement :
    ∃ made, (pass.enforceDeviceLimit networks maxTicks s).1.view (pass.generated c).connId =
      ⟨some made, some (World.newRow made none none none true), Sides.bare⟩ := by
  obtain ⟨-, hafter⟩ := keeps_turn networks maxTicks pass h.visited
  obtain ⟨-, made, hmade⟩ := h.view_create_replacement
  have hview : (pass.visit networks maxTicks (pass.atTurn networks maxTicks s c)
      (c, subId, conn)).1.view (pass.generated c).connId =
        ⟨some made, some (World.newRow made none none none true), Sides.bare⟩ := by
    rw [h.visit_eq, view_deleteConnection_of_ne h.connId_ne]
    exact hmade
  refine ⟨made, ?_⟩
  rw [(hafter _ (.inr (not_cached_of_atTurn h.fresh.1))).view (by rw [hview]; rfl), hview]

end Reissues

/-- The replacement of a connection keeps its restrictions exactly if there are none. -/
theorem restrictionsKept_iff (h : Reissues networks maxTicks pass s c subId conn) :
    s.1.RestrictionsKept (pass.enforceDeviceLimit networks maxTicks s).1 c
        (pass.generated c).connId ↔ s.1.Unrestricted c := by
  obtain ⟨made, hview⟩ := h.view_replacement
  have hrow : (pass.enforceDeviceLimit networks maxTicks s).1.db.connections.lookup
      (pass.generated c).connId = some (World.newRow made none none none true) :=
    congrArg ConnView.row hview
  have hsides : (pass.enforceDeviceLimit networks maxTicks s).1.mem.sides
      (pass.generated c).connId = Sides.bare := congrArg ConnView.sides hview
  constructor
  · intro hkept
    refine ⟨hkept.sides.symm.trans hsides, fun row hold => ?_,
      fun token share htoken hchild hactive => ?_⟩
    · obtain ⟨row', hrow', hlabel, hpin, hvia, hmain⟩ := hkept.row row hold
      rw [hrow] at hrow'
      cases hrow'
      exact ⟨hlabel.symm, hpin.symm, hvia.symm, hmain.symm⟩
    · have hrefers := hkept.tokens token share htoken hchild hactive
      rw [h.shareTokens_eq, htoken, Option.map_some, hchild] at hrefers
      exact h.connId_ne (Option.some.inj hrefers).symm
  · intro hfree
    refine ⟨hsides.trans hfree.sides.symm, fun row hold => ?_,
      fun token share htoken hchild hactive => ?_⟩
    · obtain ⟨hlabel, hpin, hvia, hmain⟩ := hfree.row row hold
      exact ⟨_, hrow, hlabel.symm, hpin.symm, hvia.symm, hmain.symm⟩
    · exact absurd hactive (hfree.tokens token share htoken hchild)

section Runs

open DeviceTick

/-- The connection of a friend, made for a share: with a label, on node 9 only, and out of the
main feed. -/
def sharedWorld : World :=
  { phonesWorld wireguardPhone with
    mem := { (phonesWorld wireguardPhone).mem with
      connLabels := AList.insert 5 "friend" ∅
      connNodes := AList.insert 5 9 ∅
      shareConns := [5]
      mainFeedExcludedConns := [5] }
    db := { (phonesWorld wireguardPhone).db with
      connections := AList.insert 5
        (World.newRow (phonesConn wireguardPhone) (some "friend") (some 9) (some "share") false) ∅
      shareTokens :=
        AList.insert "token" ⟨1, 5, some 9, none, "conn", "friend", 0, none, none⟩ ∅ } }

theorem reissues_phonesWorld : Reissues phonesNetworks 1 twoPhones.pass
    (phonesWorld wireguardPhone, ∅) 5 1 (phonesConn wireguardPhone) where
  visited := List.mem_singleton.mpr rfl
  stored := rfl
  online := online_twoPhones
  enough := by decide
  created := ⟨_, rfl⟩
  deleted := rfl
  fresh := ⟨rfl, rfl⟩

theorem reissues_sharedWorld : Reissues phonesNetworks 1 twoPhones.pass
    (sharedWorld, ∅) 5 1 (phonesConn wireguardPhone) where
  visited := List.mem_singleton.mpr rfl
  stored := rfl
  online := online_twoPhones
  enough := by decide
  created := ⟨_, rfl⟩
  deleted := rfl
  fresh := ⟨rfl, rfl⟩

/-- An own connection in the main feed loses nothing. -/
theorem restrictionsKept_own :
    Reissues phonesNetworks 1 twoPhones.pass (phonesWorld wireguardPhone, ∅) 5 1
        (phonesConn wireguardPhone) ∧
      (phonesWorld wireguardPhone).RestrictionsKept
        (twoPhones.pass.enforceDeviceLimit phonesNetworks 1 (phonesWorld wireguardPhone, ∅)).1
          5 6 := by
  refine ⟨reissues_phonesWorld, (restrictionsKept_iff reissues_phonesWorld).mpr ⟨rfl, ?_, ?_⟩⟩
  · intro row hrow
    cases hrow
    exact ⟨rfl, rfl, rfl, rfl⟩
  · intro token share htoken
    cases htoken

/-- The replacement of the friend's connection is in the main feed, and on every node. -/
theorem not_restrictionsKept_shared :
    Reissues phonesNetworks 1 twoPhones.pass (sharedWorld, ∅) 5 1 (phonesConn wireguardPhone) ∧
      ¬ sharedWorld.RestrictionsKept
        (twoPhones.pass.enforceDeviceLimit phonesNetworks 1 (sharedWorld, ∅)).1 5 6 := by
  refine ⟨reissues_sharedWorld, fun hkept => ?_⟩
  have hbare : (twoPhones.pass.enforceDeviceLimit phonesNetworks 1 (sharedWorld, ∅)).1.mem.sides 6 =
      Sides.bare := by decide +kernel
  have hsides := hkept.sides
  rw [hbare] at hsides
  exact absurd hsides (by decide)

end Runs

end DevicePass

end Fcore
