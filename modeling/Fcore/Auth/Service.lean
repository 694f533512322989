import Fcore.Handlers.ConnectionSync
import Fcore.Node.Tasks

/-!
# The auth service

A proxy node asks the auth service whether a Hysteria2 token is good. The service keeps a
copy of the connections in memory, fed by the messages on the auth topic and on its own
init topic, and writes it to a snapshot from time to time. When it starts it loads the
snapshot and asks the api for what changed since.
-/

namespace Fcore

namespace Auth

open NodeTasks (Base)

abbrev Memory := Table Uuid Base

def validateToken (token : Uuid) (mem : Memory) : Option Uuid :=
  (mem.entries.find? fun e => decide (e.2.proto.token = some token)).map fun e => e.1

def add (connId : Uuid) (conn : Base) (mem : Memory) : Memory :=
  match mem.lookup connId with
  | some _ => mem
  | none => AList.insert connId conn mem

def handleMessage (now : DateTime) (mem : Memory) (msg : Message) : Memory :=
  match msg.action with
  | .create | .update =>
    match msg.token with
    | some token =>
      add msg.connId (.new (.hysteria2 token) msg.expiresAt msg.subscriptionId now) mem
    | none => mem
  | .delete => AList.erase msg.connId mem
  | .resetStat => mem

def handleMessagesBatch (now : DateTime) (messages : List Message) (mem : Memory) : Memory :=
  messages.foldl (handleMessage now) mem

structure Service where
  uuid : Uuid
  env : Env
  deriving DecidableEq, Repr

def Service.accepts (service : Service) : Topic → Bool
  | .metrics => false
  | .updates _ => false
  | .init id => decide (id = service.uuid)
  | .auth | .entries => true

structure Snapshot where
  timestamp : ℕ
  memory : Memory

def createSnapshot (mem : Memory) (now : DateTime) : Option Snapshot :=
  if mem.entries.isEmpty then none else some ⟨timestampU64 now, mem⟩

def Service.getConnections (service : Service) (lastUpdate : Option ℕ) : ConnType :=
  ⟨.hysteria2, lastUpdate, service.env, .init service.uuid⟩

/-- The memory after a start: the snapshot is loaded, and the messages the api publishes
for what changed since are handled. Without a snapshot everything is asked for. -/
def Service.start (service : Service) (auth : ConnectionsSyncAuth) (snapshot : Option Snapshot)
    (api : Cache) (now : DateTime) : Memory :=
  let mem := (snapshot.map Snapshot.memory).getD ∅
  let request := service.getConnections (snapshot.map Snapshot.timestamp)
  match getConnectionsHandler auth request api false with
  | .ok (_, some (topic, messages)) =>
    if service.accepts topic then handleMessagesBatch now messages mem else mem
  | _ => mem

section Tokens

variable {mem : Memory} {token : Uuid}

def HasToken (mem : Memory) (token : Uuid) : Prop :=
  ∃ id conn, mem.lookup id = some conn ∧ conn.proto.token = some token

theorem validateToken_isSome_iff : (validateToken token mem).isSome ↔ HasToken mem token := by
  rw [validateToken, Option.isSome_map, List.find?_isSome]
  constructor
  · rintro ⟨e, he, htoken⟩
    exact ⟨e.1, e.2, AList.lookup_of_mem_entries he, of_decide_eq_true htoken⟩
  · rintro ⟨id, conn, hlookup, htoken⟩
    exact ⟨⟨id, conn⟩, AList.mem_entries_iff.mpr hlookup, decide_eq_true htoken⟩

theorem hasToken_add {id : Uuid} {conn : Base}
    (hsame : ∀ old, mem.lookup id = some old → old.proto.token = conn.proto.token) :
    HasToken (add id conn mem) token ↔ HasToken mem token ∨ conn.proto.token = some token := by
  unfold add
  cases hlookup : mem.lookup id with
  | some old =>
    constructor
    · exact .inl
    · rintro (h | h)
      · exact h
      · exact ⟨id, old, hlookup, (hsame old hlookup).trans h⟩
  | none =>
    constructor
    · rintro ⟨id', conn', h, htoken⟩
      rcases AList.lookup_insert_cases h with ⟨-, rfl⟩ | hold
      · exact .inr htoken
      · exact .inl ⟨id', conn', hold, htoken⟩
    · rintro (⟨id', conn', h, htoken⟩ | htoken)
      · refine ⟨id', conn', ?_, htoken⟩
        rw [AList.lookup_insert_eq_ite, if_neg, h]
        rintro rfl
        rw [hlookup] at h
        cases h
      · exact ⟨id, conn, AList.lookup_insert _, htoken⟩

/-- Creations that agree with the memory on the tokens add their tokens to it. -/
theorem hasToken_handleMessagesBatch {tokenOf : Uuid → Option Uuid} {now : DateTime}
    {messages : List Message}
    (hmem : ∀ id conn, mem.lookup id = some conn → conn.proto.token = tokenOf id)
    (hcreate : ∀ msg ∈ messages, msg.action = .create ∧ msg.token = tokenOf msg.connId) :
    HasToken (handleMessagesBatch now messages mem) token ↔
      HasToken mem token ∨ ∃ msg ∈ messages, msg.token = some token := by
  induction messages generalizing mem with
  | nil => simp [handleMessagesBatch]
  | cons msg messages ih =>
    obtain ⟨haction, htoken⟩ := hcreate msg (by simp)
    have hcreate' := fun m hm => hcreate m (List.mem_cons_of_mem msg hm)
    rw [handleMessagesBatch, List.foldl_cons]
    cases hcarried : msg.token with
    | none =>
      have hskip : handleMessage now mem msg = mem := by simp [handleMessage, haction, hcarried]
      have hrest := ih hmem hcreate'
      rw [handleMessagesBatch] at hrest
      rw [hskip, hrest]
      simp [hcarried]
    | some carried =>
      let conn : Base := .new (.hysteria2 carried) msg.expiresAt msg.subscriptionId now
      have hadd : handleMessage now mem msg = add msg.connId conn mem := by
        simp [handleMessage, haction, hcarried, conn]
      have hconn : conn.proto.token = tokenOf msg.connId := by rw [← htoken, hcarried]; rfl
      have hnext : ∀ id old, (add msg.connId conn mem).lookup id = some old →
          old.proto.token = tokenOf id := by
        intro id old hold
        unfold add at hold
        split at hold
        · exact hmem id old hold
        · rcases AList.lookup_insert_cases hold with ⟨rfl, rfl⟩ | hold
          · exact hconn
          · exact hmem id old hold
      have hrest := ih hnext hcreate'
      rw [handleMessagesBatch] at hrest
      rw [hadd, hrest, hasToken_add fun old hold => (hmem _ old hold).trans hconn.symm,
        or_assoc, hconn, ← htoken]
      simp [hcarried]

end Tokens

end Auth

end Fcore
