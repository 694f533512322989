import Fcore.Sync.View

/-!
# The cache beside the table

A cache that was just loaded has, beside each connection, exactly what the row of the
connection says. This module is about how far that stays so while connections are
added, deleted and restored by calls that succeed.

The exclusion from the main feed always follows the row. The label, the pin and the
share mark are dropped by a deletion and come back with the next load only; each of them
follows the row unless a restoration finds it dropped. The share mark of a new connection
is set by the caller after the insertion, so it also needs that the connection is not
added as a share child.
-/

namespace Fcore

/-- The calls that write connections. -/
inductive ConnOp where
  | add (connId : Uuid) (conn : Conn) (label : Option String) (nodeId : Option Uuid)
      (issuedVia : Option String) (includeInMain : Bool)
  | delete (connId : Uuid) (conn : Conn) (reason : Option String) (now : DateTime)
  | restore (connId : Uuid) (now : DateTime)
  deriving DecidableEq, Repr

namespace ConnOp

def call (w : World) : ConnOp → World × Except SyncError Status
  | add connId conn label nodeId issuedVia includeInMain =>
    w.addConn connId conn label nodeId issuedVia includeInMain
  | delete connId conn reason now => w.deleteConnection connId conn reason now
  | restore connId now => w.restoreConnection connId now

def step (w : World) (op : ConnOp) : World := (op.call w).1

def Succeeds (w : World) (op : ConnOp) : Prop := ∃ status, (op.call w).2 = .ok status

instance (w : World) (op : ConnOp) : Decidable (op.Succeeds w) :=
  match h : (op.call w).2 with
  | .ok status => isTrue ⟨status, h⟩
  | .error _ => isFalse fun ⟨status, hok⟩ => by simp [h] at hok

/-- The connection is added as a share child. -/
def addsShare (c : Uuid) : ConnOp → Bool
  | add connId _ _ _ issuedVia _ =>
    decide (connId = c) && decide (issuedVia = some issuedViaShare)
  | _ => false

end ConnOp

namespace ConnView

/-- The cache has what a load of the row would give. -/
def Loaded (v : ConnView) : Prop :=
  match v.row with
  | none => v.conn = none ∧ v.sides = Sides.bare
  | some row => (∃ conn, v.conn = some conn ∧ conn.isDeleted = row.isDeleted) ∧ v.sides = row.sides

/-- What every successful call keeps: a connection is cached as long as it is stored,
with the flag of the row, and in the main feed or out of it as the row says. -/
def Follows (v : ConnView) : Prop :=
  match v.row with
  | none => v.conn = none ∧ v.sides = Sides.bare
  | some row => (∃ conn, v.conn = some conn ∧ conn.isDeleted = row.isDeleted) ∧
      v.sides.excluded = row.sides.excluded

/-- One of the sides is the row's, as long as the row is live. -/
def SideFollows {β : Type} (side : Sides → β) (v : ConnView) : Prop :=
  ∀ row, v.row = some row → row.isDeleted = false → side v.sides = side row.sides

end ConnView

namespace World

/-- A call that keeps a side of a connection with the row: it does not restore the
connection after the side was dropped. -/
def keepsSide {β : Type} [DecidableEq β] (side : Sides → β) (c : Uuid) (w : World) :
    ConnOp → Bool
  | .restore connId _ =>
    decide (connId ≠ c) || (w.db.connections.lookup c).all fun row =>
      !row.isDeleted || decide (side (w.mem.sides c) = side row.sides)
  | _ => true

end World

namespace ConnView

variable {v : ConnView}

theorem Loaded.follows (h : v.Loaded) : v.Follows := by
  unfold Loaded at h
  unfold Follows
  cases hrow : v.row with
  | none =>
    rw [hrow] at h
    exact h
  | some row =>
    rw [hrow] at h
    exact ⟨h.1, by rw [h.2]⟩

theorem Loaded.sideFollows {β : Type} (h : v.Loaded) (side : Sides → β) : v.SideFollows side := by
  intro row hrow _
  rw [Loaded, hrow] at h
  rw [h.2]

theorem Follows.of_none (h : v.Follows) (hrow : v.row = none) :
    v.conn = none ∧ v.sides = Sides.bare := by
  rwa [Follows, hrow] at h

theorem Follows.of_some (h : v.Follows) {row : ConnRow} (hrow : v.row = some row) :
    (∃ conn, v.conn = some conn ∧ conn.isDeleted = row.isDeleted) ∧
      v.sides.excluded = row.sides.excluded := by
  rwa [Follows, hrow] at h

variable {conn : Conn}

theorem Follows.stored (h : v.Follows) (hconn : v.conn = some conn) :
    ∃ row, v.row = some row ∧ conn.isDeleted = row.isDeleted := by
  cases hrow : v.row with
  | none =>
    rw [(h.of_none hrow).1] at hconn
    cases hconn
  | some row =>
    obtain ⟨⟨conn', hconn', hflag⟩, -⟩ := h.of_some hrow
    rw [hconn'] at hconn
    cases hconn
    exact ⟨row, rfl, hflag⟩

theorem Follows.added (h : v.Follows) (hrow : v.row = none) {label : Option String}
    {nodeId : Option Uuid} {issuedVia : Option String} {includeInMain : Bool} :
    (v.added conn (World.newRow conn label nodeId issuedVia includeInMain)).Follows := by
  obtain ⟨hconn, -⟩ := h.of_none hrow
  refine ⟨⟨conn, ?_, rfl⟩, rfl⟩
  rw [ConnView.added, hconn, Option.getD_none]

theorem Follows.deleted (h : v.Follows) (hlive : v.CachedLive) {reason : Option String}
    {now : DateTime} : (v.deleted reason now).Follows := by
  obtain ⟨conn, hconn, -⟩ := hlive
  obtain ⟨row, hrow, -⟩ := h.stored hconn
  rw [ConnView.deleted, hrow, hconn]
  exact ⟨⟨_, rfl, rfl⟩, (h.of_some hrow).2⟩

theorem Follows.restored (h : v.Follows) (hconn : v.conn = some conn) {now : DateTime} :
    (v.restored now).Follows := by
  obtain ⟨row, hrow, -⟩ := h.stored hconn
  rw [ConnView.restored, hrow, hconn]
  exact ⟨⟨_, rfl, rfl⟩, (h.of_some hrow).2⟩

end ConnView

namespace World

/-- All that a call can do to the view of a connection. -/
theorem view_call (w : World) (op : ConnOp) (c : Uuid) :
    (op.step w).view c = w.view c ∨
    (∃ conn label nodeId issuedVia includeInMain,
      op = .add c conn label nodeId issuedVia includeInMain ∧ (w.view c).row = none ∧
      (op.step w).view c =
        (w.view c).added conn (newRow conn label nodeId issuedVia includeInMain)) ∨
    (∃ conn reason now e, op = .delete c conn reason now ∧ (op.call w).2 = .error e ∧
      (op.step w).view c = (w.view c).deletedInTable reason) ∨
    (∃ conn reason now, op = .delete c conn reason now ∧ (w.view c).CachedLive ∧
      (op.step w).view c = (w.view c).deleted reason now) ∨
    ∃ now conn, op = .restore c now ∧ (w.view c).conn = some conn ∧
      (op.step w).view c = (w.view c).restored now := by
  cases op with
  | add connId conn label nodeId issuedVia includeInMain =>
    rcases view_addConn connId conn label nodeId issuedVia includeInMain w with
      ⟨-, hview⟩ | ⟨-, hnew, hview⟩
    · exact .inl (hview c)
    · by_cases hc : c = connId
      · subst hc
        exact .inr (.inl ⟨_, _, _, _, _, rfl, hnew, (hview c).trans (if_pos rfl)⟩)
      · exact .inl ((hview c).trans (if_neg hc))
  | delete connId conn reason now =>
    rcases view_deleteConnection connId conn reason now w with
      ⟨-, -, hsame⟩ | ⟨-, ⟨e, he⟩, hview | hview⟩ | ⟨hlive, -, hview⟩
    · exact .inl (congrArg (fun w => view w c) hsame)
    · exact .inl (hview c)
    · by_cases hc : c = connId
      · subst hc
        exact .inr (.inr (.inl ⟨_, _, _, e, rfl, he, (hview c).trans (if_pos rfl)⟩))
      · exact .inl ((hview c).trans (if_neg hc))
    · by_cases hc : c = connId
      · subst hc
        exact .inr (.inr (.inr (.inl ⟨_, _, _, rfl, hlive, (hview c).trans (if_pos rfl)⟩)))
      · exact .inl ((hview c).trans (if_neg hc))
  | restore connId now =>
    rcases view_restoreConnection connId now w with
      ⟨-, -, hsame⟩ | ⟨-, hview⟩ | ⟨⟨conn, hconn⟩, -, hview⟩
    · exact .inl (congrArg (fun w => view w c) hsame)
    · exact .inl (hview c)
    · by_cases hc : c = connId
      · subst hc
        exact .inr (.inr (.inr (.inr ⟨_, conn, rfl, hconn, (hview c).trans (if_pos rfl)⟩)))
      · exact .inl ((hview c).trans (if_neg hc))

variable {w : World} {op : ConnOp}

/-- All that a successful call can do to the view of a connection. -/
theorem view_step (hok : op.Succeeds w) (c : Uuid) :
    (op.step w).view c = w.view c ∨
    (∃ conn label nodeId issuedVia includeInMain,
      op = .add c conn label nodeId issuedVia includeInMain ∧ (w.view c).row = none ∧
      (op.step w).view c =
        (w.view c).added conn (newRow conn label nodeId issuedVia includeInMain)) ∨
    (∃ conn reason now, op = .delete c conn reason now ∧ (w.view c).CachedLive ∧
      (op.step w).view c = (w.view c).deleted reason now) ∨
    ∃ now conn, op = .restore c now ∧ (w.view c).conn = some conn ∧
      (op.step w).view c = (w.view c).restored now := by
  rcases view_call w op c with hsame | hadded | ⟨_, _, _, e, -, he, -⟩ | hdeleted | hrestored
  · exact .inl hsame
  · exact .inr (.inl hadded)
  · obtain ⟨status, hok⟩ := hok
    rw [hok] at he
    cases he
  · exact .inr (.inr (.inl hdeleted))
  · exact .inr (.inr (.inr hrestored))

theorem follows_step (hok : op.Succeeds w) {c : Uuid} (h : (w.view c).Follows) :
    ((op.step w).view c).Follows := by
  rcases view_step hok c with hview | ⟨_, _, _, _, _, -, hnew, hview⟩ | ⟨_, _, _, -, hlive, hview⟩ |
    ⟨_, conn, -, hconn, hview⟩
  · rwa [hview]
  · rw [hview]
    exact h.added hnew
  · rw [hview]
    exact h.deleted hlive
  · rw [hview]
    exact h.restored hconn

section Side

variable {β : Type} [DecidableEq β] {side : Sides → β} {c : Uuid}

/-- An insertion that writes the side as the row has it. -/
def AddsSide (side : Sides → β) (c : Uuid) (op : ConnOp) : Prop :=
  ∀ conn label nodeId issuedVia includeInMain,
    op = .add c conn label nodeId issuedVia includeInMain →
      side ⟨label, nodeId, false, !includeInMain⟩ =
        side (newRow conn label nodeId issuedVia includeInMain).sides

theorem sideFollows_step (hok : op.Succeeds w) (hadds : AddsSide side c op)
    (hkeeps : w.keepsSide side c op = true) (hfollows : (w.view c).Follows)
    (h : (w.view c).SideFollows side) : ((op.step w).view c).SideFollows side := by
  intro row' hrow' hlive'
  rcases view_step hok c with
    hview | ⟨conn, label, nodeId, issuedVia, includeInMain, hop, hnew, hview⟩ |
    ⟨_, _, _, -, -, hview⟩ | ⟨now, conn, rfl, hconn, hview⟩
  · rw [hview] at hrow' ⊢
    exact h row' hrow' hlive'
  · rw [hview] at hrow' ⊢
    cases hrow'
    rw [ConnView.added, (hfollows.of_none hnew).2, ← hadds _ _ _ _ _ hop]
    simp [newRow, Sides.bare]
  · rw [hview] at hrow'
    obtain ⟨row, -, rfl⟩ := Option.map_eq_some_iff.mp hrow'
    cases hlive'
  · rw [hview] at hrow' ⊢
    obtain ⟨row, hrow, rfl⟩ := Option.map_eq_some_iff.mp hrow'
    have hside : side (w.view c).sides = side row.sides := by
      by_cases hdeleted : row.isDeleted = true
      · have hlookup : w.db.connections.lookup c = some row := hrow
        have hmem : side (w.mem.sides c) = side row.sides := by
          simpa [keepsSide, hlookup, hdeleted] using hkeeps
        exact hmem
      · exact h row hrow (by simpa using hdeleted)
    exact hside

theorem sideFollows_run {w₀ : World} {ops : List ConnOp} (hstart : (w₀.view c).Loaded)
    (hok : Run.Along ConnOp.step (fun w op => op.Succeeds w) w₀ ops)
    (hadds : ∀ op ∈ ops, AddsSide side c op)
    (hkeeps : Run.Along ConnOp.step (fun w op => w.keepsSide side c op = true) w₀ ops) :
    ((ops.foldl ConnOp.step w₀).view c).SideFollows side := by
  have hadds' : Run.Along ConnOp.step (fun _ op => AddsSide side c op) w₀ ops :=
    Run.along_of_forall (fun op hop _ => hadds op hop) w₀
  have hboth := Run.invariant_end
    (I := fun w : World => (w.view c).Follows ∧ (w.view c).SideFollows side)
    (fun w op h hop => ⟨follows_step hop.1 h.1, sideFollows_step hop.1 hop.2.1 hop.2.2 h.1 h.2⟩)
    ⟨hstart.follows, hstart.sideFollows side⟩ (Run.along_and hok (Run.along_and hadds' hkeeps))
  exact hboth.2

theorem addsSide_label (op : ConnOp) : AddsSide Sides.label c op := fun _ _ _ _ _ _ => rfl

theorem addsSide_pin (op : ConnOp) : AddsSide Sides.pin c op := fun _ _ _ _ _ _ => rfl

theorem addsSide_share {op : ConnOp} (h : op.addsShare c = false) : AddsSide Sides.share c op := by
  rintro conn label nodeId issuedVia includeInMain rfl
  have hvia : issuedVia ≠ some issuedViaShare := by simpa [ConnOp.addsShare] using h
  simp [ConnRow.sides, newRow, hvia]

end Side

def Loaded (w : World) : Prop := ∀ c, (w.view c).Loaded

/-- After every run of successful calls, a live connection is in the main feed or out of
it as a load would have it. Its label, its pin and its share mark are those of a load if no
restoration found them dropped, and for the share mark, if the connection was not added as
a share child. -/
theorem sides_eq_rebuild {lower : String → String} {w₀ : World} {ops : List ConnOp} {mem : Cache}
    {c : Uuid} (hstart : w₀.Loaded)
    (hok : Run.Along ConnOp.step (fun w op => op.Succeeds w) w₀ ops)
    (hrebuild : (ops.foldl ConnOp.step w₀).db.rebuild lower = .ok mem)
    (hlive : ((ops.foldl ConnOp.step w₀).view c).CachedLive) :
    ((ops.foldl ConnOp.step w₀).mem.sides c).excluded = (mem.sides c).excluded ∧
      (Run.Along ConnOp.step (fun w op => w.keepsSide Sides.label c op = true) w₀ ops →
        ((ops.foldl ConnOp.step w₀).mem.sides c).label = (mem.sides c).label) ∧
      (Run.Along ConnOp.step (fun w op => w.keepsSide Sides.pin c op = true) w₀ ops →
        ((ops.foldl ConnOp.step w₀).mem.sides c).pin = (mem.sides c).pin) ∧
      (Run.Along ConnOp.step (fun w op => w.keepsSide Sides.share c op = true) w₀ ops →
        (∀ op ∈ ops, op.addsShare c = false) →
        ((ops.foldl ConnOp.step w₀).mem.sides c).share = (mem.sides c).share) := by
  have hfollows : ((ops.foldl ConnOp.step w₀).view c).Follows :=
    Run.invariant_end (I := fun w : World => (w.view c).Follows)
      (fun w op h hop => follows_step hop h) (hstart c).follows hok
  obtain ⟨conn, hconn, hdeleted⟩ := hlive
  obtain ⟨row, hrow, hflag⟩ := hfollows.stored hconn
  obtain ⟨-, -, -, hsides⟩ := Db.rebuild_conn hrebuild hrow
  have hrowLive : row.isDeleted = false := by rw [← hflag, hdeleted]
  rw [hsides]
  refine ⟨(hfollows.of_some hrow).2, fun hkeeps => ?_, fun hkeeps => ?_, fun hkeeps hadds => ?_⟩
  · exact sideFollows_run (hstart c) hok (fun op _ => addsSide_label op) hkeeps row hrow hrowLive
  · exact sideFollows_run (hstart c) hok (fun op _ => addsSide_pin op) hkeeps row hrow hrowLive
  · exact sideFollows_run (hstart c) hok (fun op hop => addsSide_share (hadds op hop)) hkeeps row
      hrow hrowLive

section Runs

def addPhone (issuedVia : Option String) : ConnOp :=
  .add 5 (Conn.new .production none (.xray .vmess) none 0) (some "phone") (some 9) issuedVia false

def phoneRevived : List ConnOp :=
  [addPhone none, .delete 5 (Conn.new .production none (.xray .vmess) none 0) none 1, .restore 5 2]

def reliable : World := init (fun _ => false) fun _ => false

theorem loaded_reliable : reliable.Loaded := fun _ => ⟨rfl, rfl⟩

/-- The connection of the phone, added as a share child and restored without having been
deleted, keeps its label and its pin; added by the plan it has all its sides. -/
theorem sides_eq_rebuild_phone :
    reliable.Loaded ∧
      (∃ mem,
        ([addPhone (some "share"), .restore 5 1].foldl ConnOp.step reliable).db.rebuild id =
          .ok mem ∧
        (([addPhone (some "share"), .restore 5 1].foldl ConnOp.step reliable).mem.sides 5).label =
          (mem.sides 5).label ∧
        (([addPhone (some "share"), .restore 5 1].foldl ConnOp.step reliable).mem.sides 5).pin =
          (mem.sides 5).pin) ∧
      ∃ mem, ([addPhone none, .restore 5 1].foldl ConnOp.step reliable).db.rebuild id = .ok mem ∧
        (([addPhone none, .restore 5 1].foldl ConnOp.step reliable).mem.sides 5).share =
          (mem.sides 5).share := by
  have hshare := sides_eq_rebuild (c := 5) loaded_reliable
    (show Run.Along ConnOp.step (fun w op => op.Succeeds w) reliable
      [addPhone (some "share"), .restore 5 1] by decide +kernel)
    (show Db.rebuild id _ = .ok _ from rfl) ⟨_, rfl, rfl⟩
  have hplan := sides_eq_rebuild (c := 5) loaded_reliable
    (show Run.Along ConnOp.step (fun w op => op.Succeeds w) reliable
      [addPhone none, .restore 5 1] by decide +kernel)
    (show Db.rebuild id _ = .ok _ from rfl) ⟨_, rfl, rfl⟩
  exact ⟨loaded_reliable,
    ⟨_, rfl, hshare.2.1 (by decide +kernel), hshare.2.2.1 (by decide +kernel)⟩,
    _, rfl, hplan.2.2.2 (by decide +kernel) (by decide)⟩

/-- After a deletion and a restoration the label and the pin are missing until the next
load. And a connection added as a share child is not marked as one. -/
theorem not_sides_eq_rebuild_revived :
    reliable.Loaded ∧
      (Run.Along ConnOp.step (fun w op => op.Succeeds w) reliable phoneRevived ∧
        ∃ mem, (phoneRevived.foldl ConnOp.step reliable).db.rebuild id = .ok mem ∧
          ((phoneRevived.foldl ConnOp.step reliable).view 5).CachedLive ∧
          (phoneRevived.foldl ConnOp.step reliable).mem.sides 5 ≠ mem.sides 5) ∧
      Run.Along ConnOp.step (fun w op => op.Succeeds w) reliable [addPhone (some "share")] ∧
        ∃ mem, ([addPhone (some "share")].foldl ConnOp.step reliable).db.rebuild id = .ok mem ∧
          (([addPhone (some "share")].foldl ConnOp.step reliable).view 5).CachedLive ∧
          ([addPhone (some "share")].foldl ConnOp.step reliable).mem.sides 5 ≠ mem.sides 5 :=
  ⟨loaded_reliable, ⟨by decide +kernel, _, rfl, ⟨_, rfl, rfl⟩, by decide +kernel⟩,
    by decide +kernel, _, rfl, ⟨_, rfl, rfl⟩, by decide +kernel⟩

end Runs

end World

end Fcore
