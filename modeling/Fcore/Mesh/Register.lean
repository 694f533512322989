import Fcore.Mesh.Store

/-!
# Registration of mesh devices

A device registers for a subscription. A known device is refreshed, a new device of
a known subscription joins its identity, and a new subscription is issued a number
of its own. The statements of a registration are not one transaction: a failure
leaves what the earlier ones did.
-/

namespace Fcore

namespace Mesh

inductive RegisterStmt where
  | deviceOwner
  | updateDevice
  | updateName
  | identityForSub
  | insertDevice
  | widthCount (width : ℕ)
  | taken (i : ℕ)
  | insertIdentity
  deriving DecidableEq, Repr

/-- A call: the request, the answer of the subscription source, the clock, the random
draws and the statements that fail. -/
structure RegisterCall where
  subscriptionId : String
  subscriptionSecret : String
  noisePubkey : String
  signingPubkey : String
  name : Option String
  allows : Except String Bool
  now : Int64
  draw : ℕ → ℕ
  fails : RegisterStmt → Option String

structure Admitted where
  sub : Uuid
  noise : String
  signing : String
  name : Option String
  deriving DecidableEq, Repr

def parseSubscription (parseUuid : String → Option Uuid) (id secret : String) :
    Except MeshError Uuid :=
  match parseUuid (Text.trim id) with
  | none => .error (.badInput "subscription_id must be a uuid")
  | some id =>
    match parseUuid (Text.trim secret) with
    | none => .error .subscriptionRejected
    | some secret => if id = secret then .ok id else .error .subscriptionRejected

def isControl (c : Char) : Bool :=
  decide (c.toNat < 0x20) || decide (0x7F ≤ c.toNat ∧ c.toNat < 0xA0)

def cleanName (name : String) : Except MeshError String :=
  if decide (32 < name.toList.length) || name.toList.any isControl then
    .error (.badInput "name must be at most 32 printable characters")
  else .ok name

def RegisterCall.admitted (parseUuid : String → Option Uuid) (call : RegisterCall) :
    Except MeshError Admitted := do
  let sub ← parseSubscription parseUuid call.subscriptionId call.subscriptionSecret
  let allowed ←
    match call.allows with
    | .error msg => .error (.internal msg)
    | .ok allowed => .ok allowed
  require allowed .subscriptionRejected
  let noise ← normalizePubkey call.noisePubkey
  let signing ← normalizePubkey call.signingPubkey
  let name ←
    match call.name with
    | some name => (cleanName name).map some
    | none => .ok none
  return ⟨sub, noise, signing, name⟩

namespace Db

def deviceOwner (db : Db) (noise : String) : Option (String × Uuid) :=
  (db.devices.find? fun d => d.noisePubkey == noise).bind fun d =>
    (db.identities.find? fun i => i.uin == d.uin).map fun i => (d.uin, i.subscriptionId)

def identityForSub (db : Db) (sub : Uuid) : Option String :=
  (db.identities.find? fun i => i.subscriptionId == sub).map Identity.uin

def updateDevice (signing : String) (now : Int64) (noise : String) (db : Db) : Db :=
  { db with devices := db.devices.map fun d =>
      if d.noisePubkey = noise then { d with signingPubkey := signing, lastSeen := now } else d }

def updateName (name uin : String) (db : Db) : Db :=
  { db with identities := db.identities.map fun i =>
      if i.uin = uin then { i with name := name } else i }

def insertDevice (d : Device) (db : Db) : Except String Db :=
  if db.devices.any fun d' => d'.noisePubkey == d.noisePubkey then
    .error "UNIQUE constraint failed: devices.noise_pubkey"
  else .ok { db with devices := db.devices ++ [d] }

def insertIdentity (i : Identity) (db : Db) : Except String Db :=
  if db.identities.any fun i' => i'.uin == i.uin then
    .error "UNIQUE constraint failed: identities.uin"
  else if db.identities.any fun i' => i'.subscriptionId == i.subscriptionId then
    .error "UNIQUE constraint failed: identities.subscription_id"
  else .ok { db with identities := db.identities ++ [i] }

end Db

/-! ### Numbers -/

def chooseWidth (countAtWidth width : ℕ) : ℕ :=
  if 10 ≤ width then width
  else if 9 * 10 ^ (width - 1) * 8 < countAtWidth * 10 then width + 1
  else width

/-- Widen until the numbers of a width are not too many. The first argument bounds the
number of widths tried; from width 10 on there is no widening. -/
def settleWidth (fails : RegisterStmt → Option String) (db : Db) :
    ℕ → ℕ → Except MeshError ℕ
  | 0, width => .ok width
  | fuel + 1, width => do
      let count ← stmt (fails (.widthCount width))
        (db.identities.countP fun i => i.uin.toList.length == width)
      if chooseWidth count width = width then return width
      settleWidth fails db fuel (chooseWidth count width)

/-- Draw until a number is free, at most as often as the first argument says. -/
def drawUin (fails : RegisterStmt → Option String) (candidate : ℕ → ℕ) (db : Db) :
    ℕ → ℕ → Except MeshError String
  | 0, _ => .error (.internal "uin space exhausted")
  | fuel + 1, i => do
      let free ← stmt (fails (.taken i)) (db.identityMissing (toString (candidate i)))
      if free then return toString (candidate i)
      drawUin fails candidate db fuel (i + 1)

def issueUin (fails : RegisterStmt → Option String) (draw : ℕ → ℕ) (db : Db) :
    Except MeshError String := do
  let width ← settleWidth fails db 6 5
  let lo := 10 ^ (width - 1)
  let hi := 10 ^ width - 1
  drawUin fails (fun i => lo + draw i % (hi - lo + 1)) db 64 0

/-! ### The call -/

/-- One changing statement. -/
def exec (fault : Option String) (change : Db → Except String Db) (db : Db) :
    Except MeshError Unit × Db :=
  match fault with
  | some msg => (.error (.internal msg), db)
  | none =>
    match change db with
    | .error msg => (.error (.internal msg), db)
    | .ok db' => (.ok (), db')

/-- Go on unless there was an error; what was done stays done. -/
def andThen {α : Type} (r : Except MeshError Unit × Db) (next : Db → Except MeshError α × Db) :
    Except MeshError α × Db :=
  match r.1 with
  | .error e => (.error e, r.2)
  | .ok () => next r.2

namespace RegisterCall

variable (call : RegisterCall) (a : Admitted)

def rename (uin : String) (db : Db) : Except MeshError Unit × Db :=
  match a.name with
  | none => (.ok (), db)
  | some name => exec (call.fails .updateName) (fun db => .ok (db.updateName name uin)) db

def device (uin : String) : Device := ⟨uin, a.noise, a.signing, call.now, call.now⟩

/-- The device is known. -/
def refresh (uin : String) (db : Db) : Except MeshError String × Db :=
  andThen (exec (call.fails .updateDevice)
      (fun db => .ok (db.updateDevice a.signing call.now a.noise)) db) fun db =>
    andThen (call.rename a uin db) fun db => (.ok uin, db)

def join (uin : String) (db : Db) : Except MeshError String × Db :=
  andThen (exec (call.fails .insertDevice) (Db.insertDevice (call.device a uin)) db) fun db =>
    andThen (call.rename a uin db) fun db => (.ok uin, db)

/-- Neither is known. -/
def found (db : Db) : Except MeshError String × Db :=
  match issueUin call.fails call.draw db with
  | .error e => (.error e, db)
  | .ok uin =>
    andThen (exec (call.fails .insertIdentity)
        (Db.insertIdentity ⟨uin, a.sub, a.name.getD "", call.now⟩) db) fun db =>
      andThen (exec (call.fails .insertDevice) (Db.insertDevice (call.device a uin)) db)
        fun db => (.ok uin, db)

def proceed (db : Db) : Except MeshError String × Db :=
  match stmt (call.fails .deviceOwner) (db.deviceOwner a.noise) with
  | .error e => (.error e, db)
  | .ok (some (uin, bound)) =>
    if bound = a.sub then call.refresh a uin db else (.error .conflict, db)
  | .ok none =>
    match stmt (call.fails .identityForSub) (db.identityForSub a.sub) with
    | .error e => (.error e, db)
    | .ok (some uin) => call.join a uin db
    | .ok none => call.found a db

end RegisterCall

def register (parseUuid : String → Option Uuid) (call : RegisterCall) (db : Db) :
    Except MeshError String × Db :=
  match call.admitted parseUuid with
  | .error e => (.error e, db)
  | .ok a => call.proceed a db

def sampleKey (c : Char) : String := String.ofList (List.replicate 64 c)

/-- The registration of one device; every text counts as a subscription. -/
def sampleRegistration : RegisterCall where
  subscriptionId := "s"
  subscriptionSecret := "s"
  noisePubkey := sampleKey 'c'
  signingPubkey := sampleKey 'd'
  name := none
  allows := .ok true
  now := 1000
  draw := fun _ => 0
  fails := fun _ => none

end Mesh

end Fcore
