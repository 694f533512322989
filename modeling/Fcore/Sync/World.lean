import Fcore.Postgres.Db

/-!
# The state of the api process

`World` is what an operation of the api reads and writes: the in-memory cache,
the database, and the messages published to the nodes so far. Calls to the
database and to the publisher can fail. Which of them fail is decided by two
oracles indexed by the number of calls made, so a statement about every world is
a statement about every pattern of failures.

A failed database call has no effect on the tables.
-/

namespace Fcore

structure World where
  mem : Cache
  db : Db
  bus : List (Topic × Message)
  dbFails : ℕ → Bool
  publishFails : ℕ → Bool
  calls : ℕ

namespace World

def init (dbFails publishFails : ℕ → Bool) : World where
  mem := .empty
  db := .empty
  bus := []
  dbFails := dbFails
  publishFails := publishFails
  calls := 0

def DbReliable (w : World) : Prop := ∀ n, w.dbFails n = false

def tick (w : World) : World := { w with calls := w.calls + 1 }

/-- One call to the database. -/
def dbCall {α : Type*} (f : Db → Except SyncError (Db × α)) (w : World) :
    World × Except SyncError α :=
  if w.dbFails w.calls then (w.tick, .error .database)
  else
    match f w.db with
    | .error e => (w.tick, .error e)
    | .ok (db, a) => ({ w.tick with db := db }, .ok a)

def dbRead {α : Type*} (f : Db → α) (w : World) : World × Except SyncError α :=
  w.dbCall fun db => .ok (db, f db)

def dbExec (f : Db → Db) (w : World) : World × Except SyncError Unit :=
  w.dbCall fun db => .ok (f db, ())

def publish (topic : Topic) (message : Message) (w : World) :
    World × Except SyncError Unit :=
  if w.publishFails w.calls then (w.tick, .error .publish)
  else ({ w.tick with bus := w.bus ++ [(topic, message)] }, .ok ())

/-- Go on with the result of a step, unless it failed. -/
def andThen {α β : Type*} (r : World × Except SyncError α)
    (k : World → α → World × Except SyncError β) : World × Except SyncError β :=
  match r with
  | (w, .error e) => (w, .error e)
  | (w, .ok a) => k w a

def writeMem (f : Cache → Cache) (w : World) : World := { w with mem := f w.mem }

variable {α β : Type*} {w : World}

theorem andThen_error {r : World × Except SyncError α} {e : SyncError} (h : r.2 = .error e)
    (k : World → α → World × Except SyncError β) : andThen r k = (r.1, .error e) := by
  obtain ⟨w, result⟩ := r
  cases h
  rfl

theorem andThen_ok {r : World × Except SyncError α} {a : α} (h : r.2 = .ok a)
    (k : World → α → World × Except SyncError β) : andThen r k = k r.1 a := by
  obtain ⟨w, result⟩ := r
  cases h
  rfl

/-- What relates the ends of both parts of a chain, and is transitive, relates the
ends of the chain. -/
theorem andThen_rel {R : World → World → Prop} (htrans : ∀ w₁ w₂ w₃, R w₁ w₂ → R w₂ w₃ → R w₁ w₃)
    {r : World × Except SyncError α} {k : World → α → World × Except SyncError β} (hr : R w r.1)
    (hk : ∀ a, R r.1 (k r.1 a).1) : R w (andThen r k).1 := by
  obtain ⟨w', result⟩ := r
  cases result with
  | error e => exact hr
  | ok a => exact htrans _ _ _ hr (hk a)

@[simp] theorem tick_mem (w : World) : w.tick.mem = w.mem := rfl

@[simp] theorem tick_db (w : World) : w.tick.db = w.db := rfl

@[simp] theorem writeMem_mem (f : Cache → Cache) (w : World) : (w.writeMem f).mem = f w.mem := rfl

@[simp] theorem writeMem_db (f : Cache → Cache) (w : World) : (w.writeMem f).db = w.db := rfl

theorem dbCall_fst (f : Db → Except SyncError (Db × α)) (w : World) :
    (w.dbCall f).1 = { w.tick with db := (w.dbCall f).1.db } := by
  unfold dbCall
  split
  · rfl
  · split <;> rfl

@[simp] theorem dbCall_mem (f : Db → Except SyncError (Db × α)) (w : World) :
    (w.dbCall f).1.mem = w.mem := by
  rw [dbCall_fst]
  rfl

@[simp] theorem dbCall_bus (f : Db → Except SyncError (Db × α)) (w : World) :
    (w.dbCall f).1.bus = w.bus := by
  rw [dbCall_fst]
  rfl

@[simp] theorem dbCall_dbFails (f : Db → Except SyncError (Db × α)) (w : World) :
    (w.dbCall f).1.dbFails = w.dbFails := by
  rw [dbCall_fst]
  rfl

@[simp] theorem dbCall_publishFails (f : Db → Except SyncError (Db × α)) (w : World) :
    (w.dbCall f).1.publishFails = w.publishFails := by
  rw [dbCall_fst]
  rfl

@[simp] theorem dbCall_calls (f : Db → Except SyncError (Db × α)) (w : World) :
    (w.dbCall f).1.calls = w.calls + 1 := by
  rw [dbCall_fst]
  rfl

@[simp] theorem publish_mem (t : Topic) (m : Message) (w : World) :
    (w.publish t m).1.mem = w.mem := by
  unfold publish
  split <;> rfl

@[simp] theorem publish_db (t : Topic) (m : Message) (w : World) :
    (w.publish t m).1.db = w.db := by
  unfold publish
  split <;> rfl

theorem mem_bus_publish {t : Topic} {m : Message} {e : Topic × Message}
    (h : e ∈ (w.publish t m).1.bus) : e ∈ w.bus ∨ e = (t, m) := by
  unfold publish at h
  split at h
  · exact .inl h
  · simpa using h

theorem dbCall_cases (f : Db → Except SyncError (Db × α)) (w : World) :
    ((∃ e, (w.dbCall f).2 = .error e) ∧ (w.dbCall f).1.db = w.db) ∨
      ∃ db a, f w.db = .ok (db, a) ∧ (w.dbCall f).2 = .ok a ∧ (w.dbCall f).1.db = db := by
  unfold dbCall
  split
  · exact .inl ⟨⟨_, rfl⟩, rfl⟩
  · split
    · exact .inl ⟨⟨_, rfl⟩, rfl⟩
    · rename_i db a h
      exact .inr ⟨db, a, h, rfl, rfl⟩

theorem dbFails_eq_false_of_ok {f : Db → Except SyncError (Db × α)} {a : α}
    (h : (w.dbCall f).2 = .ok a) : w.dbFails w.calls = false := by
  cases hfails : w.dbFails w.calls with
  | false => rfl
  | true => simp [dbCall, hfails] at h

theorem dbCall_of_fails {f : Db → Except SyncError (Db × α)} (h : w.dbFails w.calls = true) :
    w.dbCall f = (w.tick, .error .database) := by
  simp [dbCall, h]

theorem dbCall_of_error {f : Db → Except SyncError (Db × α)} {e : SyncError}
    (h : w.dbFails w.calls = false) (hf : f w.db = .error e) : w.dbCall f = (w.tick, .error e) := by
  simp [dbCall, h, hf]

theorem dbCall_of_ok {f : Db → Except SyncError (Db × α)} {db : Db} {a : α}
    (h : w.dbFails w.calls = false) (hf : f w.db = .ok (db, a)) :
    w.dbCall f = ({ w.tick with db := db }, .ok a) := by
  simp [dbCall, h, hf]

/-- A call in full: an error leaves nothing but a count, and otherwise the statement
ran. -/
theorem dbCall_eq (f : Db → Except SyncError (Db × α)) (w : World) :
    (∃ db a, f w.db = .ok (db, a) ∧ w.dbCall f = ({ w.tick with db := db }, .ok a)) ∨
      ∃ e, w.dbCall f = (w.tick, .error e) := by
  unfold dbCall
  split
  · exact .inr ⟨_, rfl⟩
  · split
    · exact .inr ⟨_, rfl⟩
    · rename_i db a h
      exact .inl ⟨db, a, h, rfl⟩

/-- A query answers from the tables or fails, and changes nothing but the number of
calls. -/
theorem dbRead_eq (f : Db → α) (w : World) :
    w.dbRead f = (w.tick, .ok (f w.db)) ∨ w.dbRead f = (w.tick, .error .database) := by
  cases hfails : w.dbFails w.calls with
  | false => exact .inl (dbCall_of_ok hfails rfl)
  | true => exact .inr (dbCall_of_fails hfails)

theorem dbCall_rel {R : Db → Db → Prop} {f : Db → Except SyncError (Db × α)} (hrefl : R w.db w.db)
    (h : ∀ db a, f w.db = .ok (db, a) → R w.db db) : R w.db (w.dbCall f).1.db := by
  rcases dbCall_cases f w with ⟨-, hdb⟩ | ⟨db, a, hf, -, hdb⟩
  · rwa [hdb]
  · rw [hdb]
    exact h db a hf

@[simp] theorem dbRead_db (f : Db → α) (w : World) : (w.dbRead f).1.db = w.db := by
  unfold dbRead dbCall
  split <;> rfl

@[simp] theorem dbRead_mem (f : Db → α) (w : World) : (w.dbRead f).1.mem = w.mem :=
  dbCall_mem _ w

theorem dbRead_ok {f : Db → α} {a : α} (h : (w.dbRead f).2 = .ok a) : a = f w.db := by
  unfold dbRead dbCall at h
  split at h
  · cases h
  · simpa using h.symm

theorem dbRead_cases (f : Db → α) (w : World) :
    (∃ e, (w.dbRead f).2 = .error e) ∨ (w.dbRead f).2 = .ok (f w.db) := by
  cases h : (w.dbRead f).2 with
  | error e => exact .inl ⟨e, rfl⟩
  | ok a => exact .inr (by rw [dbRead_ok h])

theorem DbReliable.dbRead (hw : w.DbReliable) (f : Db → α) :
    w.dbRead f = (w.tick, .ok (f w.db)) := by
  simp [World.dbRead, dbCall, hw w.calls, tick]

theorem DbReliable.andThen_dbRead (hw : w.DbReliable) (f : Db → α)
    (k : World → α → World × Except SyncError β) : andThen (w.dbRead f) k = k w.tick (f w.db) := by
  rw [hw.dbRead, andThen]

theorem DbReliable.tick (hw : w.DbReliable) : w.tick.DbReliable := hw

@[simp] theorem dbExec_mem (f : Db → Db) (w : World) : (w.dbExec f).1.mem = w.mem :=
  dbCall_mem _ w

theorem dbExec_cases (f : Db → Db) (w : World) :
    ((∃ e, (w.dbExec f).2 = .error e) ∧ (w.dbExec f).1.db = w.db) ∨
      ((w.dbExec f).2 = .ok () ∧ (w.dbExec f).1.db = f w.db) := by
  unfold dbExec dbCall
  split
  · exact .inl ⟨⟨_, rfl⟩, rfl⟩
  · exact .inr ⟨rfl, rfl⟩

end World

end Fcore
