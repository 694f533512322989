import Fcore.Postgres.Db

/-!
# The key table

Marking a key as activated does not look at whether it is marked already.
-/

namespace Fcore

namespace Db

def getKey (code : String) (db : Db) : Option Key :=
  (db.keys.entries.find? fun e => decide (e.2.code = code)).map fun e => e.2

def activateKey (keyId subscriptionId : Uuid) (now : DateTime) (db : Db) : Db :=
  { db with keys := db.keys.modify keyId fun key =>
      { key with activated := true, subscriptionId := some subscriptionId, modifiedAt := now } }

/-- The row of a key with a code of its own. -/
structure KeyStored (key : Key) (activated : Bool) (db : Db) : Prop where
  row : ∃ row, db.keys.lookup key.id = some row ∧ row.activated = activated ∧
    row.id = key.id ∧ row.code = key.code ∧ row.days = key.days ∧ row.kind = key.kind ∧
    row.trafficBytes = key.trafficBytes
  unique : ∀ id row, db.keys.lookup id = some row → row.code = key.code → id = key.id

variable {key : Key} {activated : Bool} {db : Db}

theorem KeyStored.getKey (h : db.KeyStored key activated) :
    ∃ row, db.getKey key.code = some row ∧ row.activated = activated ∧ row.id = key.id ∧
      row.days = key.days ∧ row.kind = key.kind ∧ row.trafficBytes = key.trafficBytes := by
  obtain ⟨row, hrow, hactivated, hid, hcode, hvalue⟩ := h.row
  have hmem := AList.mem_entries_iff.mpr hrow
  cases hfind : db.keys.entries.find? fun e => decide (e.2.code = key.code) with
  | none =>
    have := List.find?_eq_none.mp hfind ⟨key.id, row⟩ hmem
    simp [hcode] at this
  | some e =>
    have hcode' : e.2.code = key.code := by simpa using List.find?_some hfind
    have hlookup := AList.lookup_of_mem_entries (List.mem_of_find?_eq_some hfind)
    have he := h.unique e.1 e.2 hlookup hcode'
    rw [he, hrow] at hlookup
    cases hlookup
    exact ⟨e.2, by rw [Db.getKey, hfind]; rfl, hactivated, hid, hvalue⟩

theorem KeyStored.activateKey (h : db.KeyStored key activated) (subscriptionId : Uuid)
    (now : DateTime) : (db.activateKey key.id subscriptionId now).KeyStored key true := by
  obtain ⟨row, hrow, -, hrest⟩ := h.row
  refine ⟨⟨{ row with
    activated := true
    subscriptionId := some subscriptionId
    modifiedAt := now }, by simp [Db.activateKey, hrow], rfl, hrest⟩, ?_⟩
  intro id row' hrow' hcode
  rw [Db.activateKey, AList.lookup_modify] at hrow'
  obtain ⟨old, hold, rfl⟩ := Option.map_eq_some_iff.mp hrow'
  refine h.unique id old hold ?_
  rw [← hcode]
  split <;> rfl

theorem KeyStored.congr {db' : Db} (h : db.KeyStored key activated) (hkeys : db'.keys = db.keys) :
    db'.KeyStored key activated :=
  ⟨hkeys ▸ h.row, hkeys ▸ h.unique⟩

end Db

end Fcore
