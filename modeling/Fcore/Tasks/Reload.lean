import Fcore.Sync.View

/-!
# Reloading the cache

The periodic reload runs four queries, builds a new cache from the answers, and puts
it in the place of the old one. When a query fails or a row cannot be read, the old
cache stays. Here nothing else happens meanwhile.

After a reload the view of a connection is that of its row: what the operations had
cached beside it, and the times they had stamped on it, are gone.
-/

namespace Fcore

inductive LoadError where
  | database
  | row (message : String)
  deriving DecidableEq, Repr

namespace World

def getStateFromDb (lower : String → String) (w : World) : World × Except LoadError Unit :=
  match w.dbRead (Db.allNodes lower) with
  | (w, .error _) => (w, .error .database)
  | (w, .ok nodes) =>
    match w.dbRead Db.allConnections with
    | (w, .error _) => (w, .error .database)
    | (w, .ok conns) =>
      match w.dbRead (Db.allSubscriptions lower) with
      | (w, .error _) => (w, .error .database)
      | (w, .ok subs) =>
        match Cache.load lower nodes conns subs with
        | .error message => (w, .error (.row message))
        | .ok mem =>
          match w.dbRead Db.privateNodeFeed with
          | (w, .error _) => (w, .error .database)
          | (w, .ok feed) =>
            (w.writeMem fun _ => { mem with mainFeedNodes := feed }, .ok ())

/-- A reload fails and leaves everything, or replaces the cache by a rebuilt one. -/
theorem getStateFromDb_cases (lower : String → String) (w : World) :
    ((∃ e, (w.getStateFromDb lower).2 = .error e) ∧ (w.getStateFromDb lower).1.mem = w.mem ∧
      (w.getStateFromDb lower).1.db = w.db ∧ (w.getStateFromDb lower).1.bus = w.bus) ∨
    ((w.getStateFromDb lower).2 = .ok () ∧ (w.getStateFromDb lower).1.db = w.db ∧
      (w.getStateFromDb lower).1.bus = w.bus ∧
      w.db.rebuild lower = .ok (w.getStateFromDb lower).1.mem) := by
  unfold getStateFromDb
  rcases dbRead_eq (Db.allNodes lower) w with hnodes | hnodes
  · rw [hnodes]
    dsimp only
    rcases dbRead_eq Db.allConnections w.tick with hconns | hconns
    · rw [hconns]
      dsimp only
      rcases dbRead_eq (Db.allSubscriptions lower) w.tick.tick with hsubs | hsubs
      · rw [hsubs]
        dsimp only
        cases hload : Cache.load lower (Db.allNodes lower w.db) (Db.allConnections w.tick.db)
          (Db.allSubscriptions lower w.tick.tick.db) with
        | error message => exact .inl ⟨⟨_, rfl⟩, rfl, rfl, rfl⟩
        | ok mem =>
          rcases dbRead_eq Db.privateNodeFeed w.tick.tick.tick with hfeed | hfeed
          · rw [hfeed]
            refine .inr ⟨rfl, rfl, rfl, ?_⟩
            rw [Db.rebuild, show Cache.load lower (w.db.allNodes lower) w.db.allConnections
              (w.db.allSubscriptions lower) = .ok mem from hload]
            rfl
          · rw [hfeed]
            exact .inl ⟨⟨_, rfl⟩, rfl, rfl, rfl⟩
      · rw [hsubs]
        exact .inl ⟨⟨_, rfl⟩, rfl, rfl, rfl⟩
    · rw [hconns]
      exact .inl ⟨⟨_, rfl⟩, rfl, rfl, rfl⟩
  · rw [hnodes]
    exact .inl ⟨⟨_, rfl⟩, rfl, rfl, rfl⟩

/-- The view of a connection after a reload that succeeded. -/
theorem view_getStateFromDb {lower : String → String} {w : World}
    (h : (w.getStateFromDb lower).2 = .ok ()) (c : Uuid) :
    ((w.getStateFromDb lower).1.view c).row = (w.view c).row ∧
      ((w.view c).row = none → ((w.getStateFromDb lower).1.view c).conn = none ∧
        ((w.getStateFromDb lower).1.view c).sides = Sides.bare) ∧
      ∀ row, (w.view c).row = some row →
        (∃ conn, row.toConn lower = .ok conn ∧
          ((w.getStateFromDb lower).1.view c).conn = some conn) ∧
        ((w.getStateFromDb lower).1.view c).sides = row.sides := by
  rcases getStateFromDb_cases lower w with ⟨⟨e, he⟩, -⟩ | ⟨-, hdb, -, hrebuild⟩
  · rw [h] at he
    cases he
  · refine ⟨by rw [view, hdb]; rfl, fun hrow => ?_, fun row hrow => ?_⟩
    · exact Db.rebuild_conn_none hrebuild hrow
    · obtain ⟨conn, hconn, hlookup, hsides⟩ := Db.rebuild_conn hrebuild hrow
      exact ⟨⟨conn, hconn, hlookup⟩, hsides⟩

end World

end Fcore
