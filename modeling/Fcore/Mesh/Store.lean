import Mathlib.Order.Defs.LinearOrder
import Fcore.Lib.Except
import Fcore.Lib.RowTable
import Fcore.Lib.Text
import Fcore.Memory.Env

/-!
# The mesh store

The relay of the mesh messenger keeps three tables: identities, the devices of
each identity, and the slots. A slot is one sealed message for one device; it is
handed out once and expires after a week. Requests are signed by a device of the
identity they speak for.

Every statement of the store may fail, and a call takes a function that says which
of its statements do and with which text. A statement that fails changes nothing.
The verification of signatures is a parameter. Times are seconds in the wrapping
arithmetic of 64-bit integers, and the clock is read before the connection is
locked, so a call carries its own reading.
-/

namespace Fcore

namespace Mesh

def slotTtlSecs : Int64 := 7 * 24 * 3600

def maxSlots : ℕ := 100

def tsSkewSecs : Int64 := 300

inductive MeshError where
  | badInput (msg : String)
  | unknownUin
  | badSignature
  | badTimestamp
  | inboxFull
  | conflict
  | subscriptionRejected
  | internal (msg : String)
  deriving DecidableEq, Repr

structure Envelope where
  devicePubkey : String
  ciphertext : String
  deriving DecidableEq, Repr

/-! ### Tables -/

structure Identity where
  uin : String
  subscriptionId : Uuid
  name : String
  createdAt : Int64
  deriving DecidableEq, Repr

structure Device where
  uin : String
  noisePubkey : String
  signingPubkey : String
  lastSeen : Int64
  createdAt : Int64
  deriving DecidableEq, Repr

structure Slot where
  uin : String
  devicePubkey : String
  fromUin : String
  ciphertext : String
  expiresAt : Int64
  deriving DecidableEq, Repr

namespace Slot

def isFor (uin device : String) (slot : Slot) : Bool :=
  slot.uin == uin && slot.devicePubkey == device

def isLive (now : Int64) (slot : Slot) : Bool := decide (now < slot.expiresAt)

def isPending (uin device : String) (now : Int64) (slot : Slot) : Bool :=
  slot.isFor uin device && slot.isLive now

end Slot

structure Db where
  identities : List Identity
  devices : List Device
  slots : RowTable Slot
  deriving DecidableEq

def stmt {α : Type} (fault : Option String) (value : α) : Except MeshError α :=
  match fault with
  | some msg => .error (.internal msg)
  | none => .ok value

/-- Return with an error unless a condition is met. -/
def require (c : Bool) (e : MeshError) : Except MeshError Unit := if c then .ok () else .error e

variable {fault : Option String} {now ts : Int64} {uin sig : String}

@[simp] theorem stmt_eq_ok_iff {α : Type} {value a : α} :
    stmt fault value = .ok a ↔ fault = none ∧ a = value := by
  cases fault <;> simp [stmt, eq_comm]

@[simp] theorem require_eq_ok_iff {c : Bool} {e : MeshError} {u : Unit} :
    require c e = .ok u ↔ c = true := by
  cases c <;> simp [require]

@[simp] theorem pure_eq_ok_iff {α : Type} {a b : α} :
    (pure a : Except MeshError α) = .ok b ↔ b = a := by
  simp [pure, Except.pure, eq_comm]

namespace Db

def empty : Db := ⟨[], [], .empty⟩

def identityMissing (db : Db) (uin : String) : Bool :=
  !db.identities.any fun i => i.uin == uin

def devicesOf (db : Db) (uin : String) : List (String × String) :=
  (db.devices.filter fun d => d.uin == uin).map fun d => (d.noisePubkey, d.signingPubkey)

def touch (now : Int64) (noise : String) (db : Db) : Db :=
  { db with devices := db.devices.map fun d =>
      if d.noisePubkey = noise then { d with lastSeen := now } else d }

end Db

/-! ### Checks -/

def isHexDigit (c : Char) : Bool :=
  c.isDigit || decide ('a' ≤ c ∧ c ≤ 'f') || decide ('A' ≤ c ∧ c ≤ 'F')

def normalDigits (raw : String) : List Char :=
  ((raw.toList.dropWhile Text.isWhitespace).rdropWhile Text.isWhitespace).map Char.toLower

/-- A key of 32 bytes in hexadecimal. No proof looks inside. -/
@[irreducible] def normalizePubkey (raw : String) : Except MeshError String :=
  let digits := normalDigits raw
  if digits.all isHexDigit && digits.length % 2 == 0 then
    if digits.length / 2 = 32 then .ok (String.ofList digits)
    else .error (.badInput "pubkey must be 32 bytes (64 hex chars)")
  else .error (.badInput "pubkey must be hex")

def checkTs (ts now : Int64) : Except MeshError Unit :=
  if tsSkewSecs < (now - ts).abs then .error .badTimestamp else .ok ()

/-! ### Signed requests -/

def sendCanonical (toUin : String) (ts : Int64) (envelopes : List Envelope) : String :=
  envelopes.foldl (fun msg env => msg ++ "\n" ++ env.ciphertext)
    ("send\n" ++ toUin ++ "\n" ++ toString ts)

def pullCanonical (uin : String) (ts : Int64) : String :=
  "pull\n" ++ uin ++ "\n" ++ toString ts

def pollCanonical (uin : String) (ts : Int64) : String :=
  "poll\n" ++ uin ++ "\n" ++ toString ts

variable {fails : PullStmt → Option String}
variable {db : Db}

section Calls

-- whether a signature of a text verifies under a key
variable (verify : String → String → String → Bool)

def matchDevice (devices : List (String × String)) (msg sig : String) :
    Except MeshError String :=
  match devices.find? fun d => verify d.2 msg sig with
  | some d => .ok d.1
  | none => .error .badSignature

inductive AuthStmt where
  | identity
  | devices
  deriving DecidableEq, Repr

def authedDevice (fails : AuthStmt → Option String) (db : Db) (uin msg sig : String) :
    Except MeshError String := do
  let missing ← stmt (fails .identity) (db.identityMissing uin)
  require (!missing) .unknownUin
  let devices ← stmt (fails .devices) (db.devicesOf uin)
  matchDevice verify devices msg sig

/-! ### Sending -/

structure SendRequest where
  fromUin : String
  toUin : String
  envelopes : List Envelope
  ts : Int64
  sig : String
  deriving DecidableEq, Repr

/-- The statements of a send; two of them run once per envelope. -/
inductive SendStmt where
  | fromMissing
  | toMissing
  | fromDevices
  | toDevices
  | pending (i : ℕ)
  | insert (i : ℕ)
  | lastSeen
  deriving DecidableEq, Repr

structure Sending where
  fromUin : String
  toUin : String
  senderPk : String
  targetKeys : List String
  now : Int64
  deriving DecidableEq, Repr

/-- Whether an end of the request is not known; the recipient is only asked for when the
sender is known. -/
def partyMissing (fails : SendStmt → Option String) (req : SendRequest) (db : Db) :
    Except MeshError Bool := do
  let missing ← stmt (fails .fromMissing) (db.identityMissing req.fromUin)
  if missing then return true
  stmt (fails .toMissing) (db.identityMissing req.toUin)

/-- The part of a send before its envelopes. -/
def sendCheck (fails : SendStmt → Option String) (req : SendRequest) (now : Int64) (db : Db) :
    Except MeshError Sending := do
  require (!req.envelopes.isEmpty) (.badInput "envelopes required")
  checkTs req.ts now
  let missing ← partyMissing fails req db
  require (!missing) .unknownUin
  let sender ← stmt (fails .fromDevices) (db.devicesOf req.fromUin)
  let senderPk ← matchDevice verify sender (sendCanonical req.toUin req.ts req.envelopes) req.sig
  let targets ← stmt (fails .toDevices) (db.devicesOf req.toUin)
  return ⟨req.fromUin, req.toUin, senderPk, targets.map Prod.fst, now⟩

theorem sendCheck_eq_ok {verify : String → String → String → Bool}
    {fails : SendStmt → Option String} {req : SendRequest} {sending : Sending}
    (h : sendCheck verify fails req now db = .ok sending) :
    checkTs req.ts now = .ok () ∧
      ∃ senderPk, matchDevice verify (db.devicesOf req.fromUin)
          (sendCanonical req.toUin req.ts req.envelopes) req.sig = .ok senderPk ∧
        sending = ⟨req.fromUin, req.toUin, senderPk, (db.devicesOf req.toUin).map Prod.fst,
          now⟩ := by
  simp only [sendCheck, bind_eq_ok_iff, stmt_eq_ok_iff, pure_eq_ok_iff] at h
  obtain ⟨-, -, ⟨⟩, hts, -, -, -, -, sender, ⟨-, rfl⟩, senderPk, hmatch, targets, ⟨-, rfl⟩,
    rfl⟩ := h
  exact ⟨hts, senderPk, hmatch, rfl⟩

def Sending.slot (sending : Sending) (pk : String) (env : Envelope) : Slot where
  uin := sending.toUin
  devicePubkey := pk
  fromUin := sending.fromUin
  ciphertext := env.ciphertext
  expiresAt := sending.now + slotTtlSecs

/-- One envelope: the device to wake, and the table with its slot. -/
def storeEnvelope (pendingFault insertFault : Option String) (sending : Sending) (env : Envelope)
    (slots : RowTable Slot) : Except MeshError (String × RowTable Slot) := do
  let pk ← normalizePubkey env.devicePubkey
  require (!env.ciphertext.isEmpty) (.badInput "empty ciphertext")
  require (sending.targetKeys.contains pk) (.badInput "device is not on the recipient")
  let pending ← stmt pendingFault (slots.count (Slot.isPending sending.toUin pk sending.now))
  require (!decide (maxSlots ≤ pending)) .inboxFull
  let slots ← stmt insertFault (slots.insert (sending.slot pk env))
  return (pk, slots)

theorem storeEnvelope_eq_ok_iff {pendingFault insertFault : Option String} {sending : Sending}
    {env : Envelope} {slots : RowTable Slot} {r : String × RowTable Slot} :
    storeEnvelope pendingFault insertFault sending env slots = .ok r ↔
      ∃ pk, normalizePubkey env.devicePubkey = .ok pk ∧ env.ciphertext.isEmpty = false ∧
        pk ∈ sending.targetKeys ∧ pendingFault = none ∧
        slots.count (Slot.isPending sending.toUin pk sending.now) < maxSlots ∧
        insertFault = none ∧ r = (pk, slots.insert (sending.slot pk env)) := by
  simp only [storeEnvelope, bind_eq_ok_iff]
  simp

/-- The loop over the envelopes: it ends with the first error. -/
def storeEnvelopes (fails : SendStmt → Option String) (sending : Sending) :
    ℕ → List Envelope → RowTable Slot → Option MeshError × RowTable Slot
  | _, [], slots => (none, slots)
  | i, env :: envelopes, slots =>
    match storeEnvelope (fails (.pending i)) (fails (.insert i)) sending env slots with
    | .error e => (some e, slots)
    | .ok r => storeEnvelopes fails sending (i + 1) envelopes r.2

def send (fails : SendStmt → Option String) (req : SendRequest) (now : Int64) (db : Db) :
    Except MeshError Unit × Db :=
  match sendCheck verify fails req now db with
  | .error e => (.error e, db)
  | .ok sending =>
    match storeEnvelopes fails sending 0 req.envelopes db.slots with
    | (some e, slots) => (.error e, { db with slots := slots })
    | (none, slots) =>
      match fails .lastSeen with
      | some msg => (.error (.internal msg), { db with slots := slots })
      | none => (.ok (), Db.touch now sending.senderPk { db with slots := slots })

/-! ### Taking slots -/

/-- The slots waiting for a device leave the table in the order of their rows. They are
deleted in a transaction, so a failure changes nothing. -/
def takeSlots (fault : Option String) (uin device : String) (now : Int64)
    (slots : RowTable Slot) : Except MeshError (List (ℕ × Slot) × RowTable Slot) :=
  let rows := slots.select (Slot.isPending uin device now)
  stmt fault (rows, slots.deleteRows (rows.map Prod.fst))

theorem takeSlots_eq_ok_iff {device : String} {slots : RowTable Slot}
    {r : List (ℕ × Slot) × RowTable Slot} :
    takeSlots fault uin device now slots = .ok r ↔
      fault = none ∧ r = (slots.select (Slot.isPending uin device now),
        slots.deleteWhere (Slot.isPending uin device now)) := by
  rw [← RowTable.deleteRows_select]
  exact stmt_eq_ok_iff

inductive PullStmt where
  | auth (s : AuthStmt)
  | take
  | lastSeen
  deriving DecidableEq, Repr

/-- The part of a pull before it takes slots: the device it pulls for. -/
def pullAuth (fails : PullStmt → Option String) (uin : String) (ts : Int64) (sig : String)
    (now : Int64) (db : Db) : Except MeshError String := do
  checkTs ts now
  authedDevice verify (fun s => fails (.auth s)) db uin (pullCanonical uin ts) sig

def pull (fails : PullStmt → Option String) (uin : String) (ts : Int64) (sig : String)
    (now : Int64) (db : Db) : Except MeshError (List (ℕ × Slot)) × Db :=
  match pullAuth verify fails uin ts sig now db with
  | .error e => (.error e, db)
  | .ok device =>
    match takeSlots (fails .take) uin device now db.slots with
    | .error e => (.error e, db)
    | .ok (rows, slots) =>
      match fails .lastSeen with
      | some msg => (.error (.internal msg), { db with slots := slots })
      | none => (.ok rows, Db.touch now device { db with slots := slots })

theorem pull_of_refused {verify : String → String → String → Bool} {e : MeshError}
    (h : pullAuth verify fails uin ts sig now db = .error e) :
    pull verify fails uin ts sig now db = (.error e, db) := by
  simp only [pull, h]

/-- A pull that is let in for a device takes its slots. -/
theorem pull_of_accepted {verify : String → String → String → Bool} {device : String}
    (hfails : ∀ s, fails s = none) (h : pullAuth verify fails uin ts sig now db = .ok device) :
    pull verify fails uin ts sig now db =
      (.ok (db.slots.select (Slot.isPending uin device now)),
        Db.touch now device
          { db with slots := db.slots.deleteWhere (Slot.isPending uin device now) }) := by
  have htake := takeSlots_eq_ok_iff.mpr ⟨hfails .take, Eq.refl (db.slots.select
    (Slot.isPending uin device now), db.slots.deleteWhere (Slot.isPending uin device now))⟩
  simp only [pull, h, htake, hfails .lastSeen]

theorem rows_pull_subset {verify : String → String → String → Bool} :
    ∀ r ∈ (pull verify fails uin ts sig now db).2.slots.rows, r ∈ db.slots.rows := by
  intro r hr
  unfold pull at hr
  split at hr
  · exact hr
  · split at hr
    · exact hr
    · rename_i htake
      obtain ⟨-, heq⟩ := takeSlots_eq_ok_iff.mp htake
      cases heq
      split at hr
      · exact List.mem_of_mem_filter hr
      · exact List.mem_of_mem_filter hr

/-- The part of a poll before it waits for slots: the device it polls for. -/
def pollAuth (fails : PullStmt → Option String) (uin : String) (ts : Int64) (sig : String)
    (now : Int64) (db : Db) : Except MeshError (String × Db) := do
  checkTs ts now
  let device ←
    authedDevice verify (fun s => fails (.auth s)) db uin (pollCanonical uin ts) sig
  stmt (fails .lastSeen) (device, db.touch now device)

theorem pollAuth_slots {verify : String → String → String → Bool} {authed : String × Db}
    (h : pollAuth verify fails uin ts sig now db = .ok authed) : authed.2.slots = db.slots := by
  simp only [pollAuth, bind_eq_ok_iff, stmt_eq_ok_iff] at h
  obtain ⟨-, -, device, -, -, rfl⟩ := h
  rfl

def gc (fault : Option String) (now : Int64) (db : Db) : Db :=
  match fault with
  | some _ => db
  | none => { db with slots := db.slots.deleteWhere fun slot => !slot.isLive now }

theorem rows_gc_subset : ∀ r ∈ (gc fault now db).slots.rows, r ∈ db.slots.rows := by
  intro r hr
  cases fault with
  | none => exact List.mem_of_mem_filter hr
  | some msg => exact hr

end Calls

end Mesh

end Fcore
