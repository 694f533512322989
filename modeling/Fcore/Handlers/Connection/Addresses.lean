import Fcore.Handlers.Connection
import Fcore.Lib.Interleave

/-!
# Whether tunnel addresses are unique

A call that creates a connection chooses its address under the read lock and lets the
lock go. It then stores the connection, and only after that caches it, and the table has
no index on addresses. Between the choice and the caching another call for the same tag
sees the same largest address and chooses the same next one.

Calls are threads here, with a turn for each stretch between two suspension points.
Addresses of a tag stay unique in every interleaving in which no call chooses an address
for a tag while another call has one for that tag that is not cached yet.
-/

namespace Fcore

/-- A call of one of the two functions, with its random values. -/
inductive CreateCall where
  | inner (networks : WgNetworks) (req : CreateConnection) (generated : Generated)
  | premium (networks : WgNetworks) (parent : Subscription) (childId : Uuid)
      (req : PremiumConnectionCreateRequest) (generated : Generated)
  deriving DecidableEq, Repr

namespace CreateCall

def connId : CreateCall → Uuid
  | inner _ _ generated => generated.connId
  | premium _ _ _ _ generated => generated.connId

def label : CreateCall → Option String
  | inner _ req _ => req.label
  | premium .. => none

def nodeId : CreateCall → Option Uuid
  | inner _ req _ => req.nodeId
  | premium .. => none

def issuedVia : CreateCall → Option String
  | inner _ req _ => req.issuedVia
  | premium .. => none

def includeInMain : CreateCall → Bool
  | inner _ req _ => req.includeInMain
  | premium .. => true

/-- What the call does under the read lock. -/
def prepare (now : DateTime) (mem : Cache) : CreateCall → Option Conn
  | inner networks req generated => (prepareConnection networks req generated now mem).toOption
  | premium networks parent childId req generated =>
    (premiumPrepare networks parent childId req generated now mem).toOption

def row (call : CreateCall) (conn : Conn) : ConnRow :=
  { ConnRow.ofConn conn with
    label := call.label
    nodeId := call.nodeId
    issuedVia := call.issuedVia
    includeInMain := call.includeInMain }

end CreateCall

/-- How far a call has come: its connection is chosen, stored, and cached. -/
inductive CreateThread where
  | waiting (call : CreateCall)
  | prepared (call : CreateCall) (conn : Conn)
  | stored (call : CreateCall) (conn : Conn)
  | cached (call : CreateCall) (conn : Conn)
  | done
  deriving DecidableEq, Repr

namespace CreateThread

/-- One turn, from a suspension point to the next. -/
def advance (now : DateTime) (thread : CreateThread) (w : World) : World × CreateThread :=
  match thread with
  | waiting call =>
    match call.prepare now w.mem with
    | some conn => (w, prepared call conn)
    | none => (w, done)
  | prepared call conn =>
    match w.dbCall (Db.insertConnection call.connId (call.row conn)) with
    | (w, .error _) => (w, done)
    | (w, .ok ()) => (w, stored call conn)
  | stored call conn =>
    (w.writeMem (Cache.addConn call.connId conn call.label call.nodeId call.includeInMain),
      cached call conn)
  | cached call conn =>
    (w.tell (createTopic conn call.nodeId) (conn.asCreateMessage call.connId), done)
  | done => (w, done)

def pending : CreateThread → Option Conn
  | prepared _ conn => some conn
  | stored _ conn => some conn
  | _ => none

def holds (thread : CreateThread) : Option Tag :=
  thread.pending.bind fun conn => conn.proto.wg.map fun _ => conn.proto.proto

end CreateThread

abbrev CreatePool := Pool World CreateThread

namespace CreatePool

/-- A call chooses a connection of a tag only while no other has an address for the
tag that is not cached yet. -/
def choosesAlone (p : CreatePool) (turn : ℕ × DateTime) : Bool :=
  match p.threads[turn.1]? with
  | some (.waiting call) =>
    (call.prepare turn.2 p.shared.mem).all fun conn =>
      p.threads.all fun thread => decide (thread.holds ≠ some conn.proto.proto)
  | _ => true

end CreatePool

/-- No two connections of a tag have the same address. -/
def Connections.AddressesUnique (connections : Connections) : Prop :=
  ∀ c c' conn conn' wg wg', connections.lookup c = some conn → connections.lookup c' = some conn' →
    conn.proto.proto = conn'.proto.proto → conn.proto.wg = some wg → conn'.proto.wg = some wg' →
      wg.address.address = wg'.address.address → c = c'

namespace CreateCall

/-- What is prepared is live, and its parameters are new. -/
theorem prepare_inv {call : CreateCall} {now : DateTime} {mem : Cache} {conn : Conn}
    (h : call.prepare now mem = some conn) : (∃ networks tag generated,
      newProto networks mem.connections tag generated = .ok conn.proto) ∧
        conn.isDeleted = false := by
  cases call with
  | inner networks req generated =>
    cases hresult : prepareConnection networks req generated now mem with
    | error msg => simp [prepare, hresult, Except.toOption] at h
    | ok conn' =>
      obtain rfl : conn' = conn := by simpa [prepare, hresult, Except.toOption] using h
      obtain ⟨-, hproto, hconn⟩ := prepareConnection_inv hresult
      exact ⟨⟨_, _, _, hproto⟩, by rw [hconn]; rfl⟩
  | premium networks parent childId req generated =>
    cases hresult : premiumPrepare networks parent childId req generated now mem with
    | error msg => simp [prepare, hresult, Except.toOption] at h
    | ok conn' =>
      obtain rfl : conn' = conn := by simpa [prepare, hresult, Except.toOption] using h
      obtain ⟨hproto, hlive⟩ := premiumPrepare_ok hresult
      exact ⟨⟨_, _, _, hproto⟩, hlive⟩

theorem addressFree_of_prepare {call : CreateCall} {now : DateTime} {mem : Cache} {conn : Conn}
    (h : call.prepare now mem = some conn) {wg : WgParam} (hwg : conn.proto.wg = some wg) :
    mem.connections.AddressFree conn.proto.proto wg.address.address := by
  obtain ⟨⟨networks, tag, generated, hnew⟩, -⟩ := prepare_inv h
  obtain ⟨rfl, hfree⟩ := newProto_ok hnew
  exact hfree wg hwg

end CreateCall

namespace CreateThread

/-- What a turn does to the cache and to the pending connection: it caches what was
pending; or it leaves the cache alone, and nothing new is pending, unless it was the turn
that chooses. -/
theorem advance_cases (now : DateTime) (thread : CreateThread) (w : World) :
    (∃ call conn, thread = stored call conn ∧
      (advance now thread w).1.mem =
        w.mem.addConn call.connId conn call.label call.nodeId call.includeInMain ∧
      (advance now thread w).2.pending = none) ∨
    ((advance now thread w).1.mem = w.mem ∧
      ∀ conn, (advance now thread w).2.pending = some conn → thread.pending = some conn ∨
        ∃ call, thread = waiting call ∧ call.prepare now w.mem = some conn) := by
  cases thread with
  | waiting call =>
    refine .inr ?_
    dsimp only [advance]
    cases hprepare : call.prepare now w.mem with
    | none => exact ⟨rfl, fun conn h => by cases h⟩
    | some conn =>
      exact ⟨rfl, fun conn' h => .inr ⟨call, rfl, hprepare.trans h⟩⟩
  | prepared call conn =>
    refine .inr ?_
    have hmem := World.dbCall_mem (Db.insertConnection call.connId (call.row conn)) w
    dsimp only [advance]
    cases hcall : w.dbCall (Db.insertConnection call.connId (call.row conn)) with
    | mk w' result =>
      rw [hcall] at hmem
      cases result with
      | error e => exact ⟨hmem, fun conn' h => by cases h⟩
      | ok _ => exact ⟨hmem, fun conn' h => .inl h⟩
  | stored call conn => exact .inl ⟨call, conn, rfl, rfl, rfl⟩
  | cached call conn =>
    refine .inr ⟨?_, fun conn' h => by cases h⟩
    dsimp only [advance, World.tell]
    split
    · exact World.publish_mem ..
    · rfl
  | done => exact .inr ⟨rfl, fun conn h => by cases h⟩

/-- The turns of a call that no other call interrupts. -/
def alone (now : DateTime) (call : CreateCall) (w : World) : World × CreateThread :=
  [now, now, now, now].foldl (fun s t => advance t s.2 s.1) (w, waiting call)

theorem alone_of_none {now : DateTime} {call : CreateCall} {w : World}
    (h : call.prepare now w.mem = none) : alone now call w = (w, done) := by
  simp [alone, advance, h]

theorem alone_of_some {now : DateTime} {call : CreateCall} {w : World} {conn : Conn}
    (h : call.prepare now w.mem = some conn) : alone now call w =
      (match w.addConn call.connId conn call.label call.nodeId call.issuedVia
          call.includeInMain with
        | (w', .ok _) => w'.tell (createTopic conn call.nodeId) (conn.asCreateMessage call.connId)
        | (w', .error _) => w', done) := by
  simp only [alone, List.foldl_cons, List.foldl_nil, advance, h, World.addConn, World.andThen,
    CreateCall.row]
  generalize w.dbCall _ = r
  obtain ⟨w', result | result⟩ := r
  · rfl
  · rfl

/-- A call that is not interrupted does what the whole function does. -/
theorem alone_inner (networks : WgNetworks) (req : CreateConnection) (generated : Generated)
    (now : DateTime) (w : World) : alone now (.inner networks req generated) w =
      ((w.createConnectionInner networks req generated now).1, done) := by
  unfold World.createConnectionInner
  cases hprepare : prepareConnection networks req generated now w.mem with
  | error msg => exact alone_of_none (by rw [CreateCall.prepare, hprepare]; rfl)
  | ok conn =>
    rw [alone_of_some (by rw [CreateCall.prepare, hprepare]; rfl)]
    rcases World.addConn_eq generated.connId conn w req.label req.nodeId req.issuedVia
      req.includeInMain with ⟨e, h⟩ | ⟨db, -, h⟩ <;>
      simp only [World.createPrepared, CreateCall.connId, CreateCall.label, CreateCall.nodeId,
        CreateCall.issuedVia, CreateCall.includeInMain, h]

theorem alone_premium (networks : WgNetworks) (errorText : SyncError → String)
    (parent : Subscription) (childId : Uuid) (req : PremiumConnectionCreateRequest)
    (generated : Generated) (now : DateTime) (w : World) :
    alone now (.premium networks parent childId req generated) w =
      ((w.premiumCreateConnectionHandler networks errorText parent childId req generated now).1,
        done) := by
  unfold World.premiumCreateConnectionHandler
  cases hprepare : premiumPrepare networks parent childId req generated now w.mem with
  | error msg => exact alone_of_none (by rw [CreateCall.prepare, hprepare]; rfl)
  | ok conn =>
    rw [alone_of_some (by rw [CreateCall.prepare, hprepare]; rfl)]
    rcases World.addConn_eq generated.connId conn w none none none true with
      ⟨e, h⟩ | ⟨db, -, h⟩ <;>
      simp only [World.premiumCreatePrepared, CreateCall.connId, CreateCall.label,
        CreateCall.nodeId, CreateCall.issuedVia, CreateCall.includeInMain, h]

end CreateThread

namespace Connections

variable {connections : Connections} {connId : Uuid} {conn : Conn}

theorem AddressesUnique.insert (h : connections.AddressesUnique)
    (hfree : ∀ wg, conn.proto.wg = some wg →
      connections.AddressFree conn.proto.proto wg.address.address) :
    AddressesUnique (AList.insert connId conn connections) := by
  intro c c' conn₁ conn₂ wg₁ wg₂ h₁ h₂ htag hwg₁ hwg₂ haddress
  rcases AList.lookup_insert_cases h₁ with ⟨rfl, rfl⟩ | hold <;>
    rcases AList.lookup_insert_cases h₂ with ⟨rfl, rfl⟩ | hold'
  · rfl
  · exact absurd haddress.symm (hfree wg₁ hwg₁ c' conn₂ wg₂ hold' htag.symm hwg₂)
  · exact absurd haddress (hfree wg₂ hwg₂ c conn₁ wg₁ hold htag hwg₁)
  · exact h c c' conn₁ conn₂ wg₁ wg₂ hold hold' htag hwg₁ hwg₂ haddress

theorem AddressFree.insert {tag : Tag} {address : IpAddr} (h : connections.AddressFree tag address)
    (htag : ∀ wg, conn.proto.wg = some wg → conn.proto.proto ≠ tag) :
    AddressFree (AList.insert connId conn connections) tag address := by
  intro c conn' wg hconn' htag' hwg
  rcases AList.lookup_insert_cases hconn' with ⟨-, rfl⟩ | hold
  · exact absurd htag' (htag wg hwg)
  · exact h c conn' wg hold htag' hwg

end Connections

namespace CreatePool

/-- Cached addresses are unique, addresses that are to be cached are free, and no two
calls have one for the same tag. -/
structure Inv (p : CreatePool) : Prop where
  unique : p.shared.mem.connections.AddressesUnique
  free : ∀ (i : ℕ) t conn wg, p.threads[i]? = some t → t.pending = some conn →
    conn.proto.wg = some wg →
      p.shared.mem.connections.AddressFree conn.proto.proto wg.address.address
  apart : p.HeldApart CreateThread.holds

variable {p : CreatePool}

variable {conn : Conn} {i : ℕ} {u t : CreateThread}

theorem holds_of_pending {thread : CreateThread} {wg : WgParam}
    (hpending : thread.pending = some conn) (hwg : conn.proto.wg = some wg) :
    thread.holds = some conn.proto.proto := by
  simp [CreateThread.holds, hpending, hwg]

/-- What is pending after a turn that leaves nothing pending was pending before, in
another thread. -/
theorem pending_of_set {j : ℕ} (hu : u.pending = none) (ht : (p.threads.set i u)[j]? = some t)
    (hpending : t.pending = some conn) : j ≠ i ∧ p.threads[j]? = some t := by
  rcases Pool.eq_or_of_getElem?_set ht with ⟨-, rfl⟩ | hother
  · rw [hu] at hpending
    cases hpending
  · exact hother

theorem Inv.cache (h : p.Inv) {w : World} (ht : p.threads[i]? = some t)
    (hpending : t.pending = some conn) (hu : u.pending = none) {connId : Uuid}
    {label : Option String} {nodeId : Option Uuid} {includeInMain : Bool}
    (hmem : w.mem = p.shared.mem.addConn connId conn label nodeId includeInMain) :
    Inv ⟨w, p.threads.set i u⟩ := by
  have hapart : Pool.HeldApart CreateThread.holds ⟨w, p.threads.set i u⟩ := by
    apply h.apart.set ht
    intro tag htag
    simp [CreateThread.holds, hu] at htag
  have hconnections : w.mem.connections = p.shared.mem.connections ∨
      w.mem.connections = AList.insert connId conn p.shared.mem.connections := by
    rw [hmem]
    unfold Cache.addConn
    split
    · exact .inl rfl
    · exact .inr rfl
  refine ⟨?_, ?_, hapart⟩
  · rcases hconnections with hsame | hinsert
    · rw [hsame]
      exact h.unique
    · rw [hinsert]
      exact h.unique.insert fun wg hwg => h.free i t conn wg ht hpending hwg
  · intro j t' conn' wg' ht' hpending' hwg'
    obtain ⟨hj, hbefore⟩ := pending_of_set hu ht' hpending'
    have hfree := h.free j t' conn' wg' hbefore hpending' hwg'
    rcases hconnections with hsame | hinsert
    · rw [hsame]
      exact hfree
    · rw [hinsert]
      apply hfree.insert
      -- the two calls have addresses for different tags
      intro wg hwg htag
      apply h.apart i j t t' _ (Ne.symm hj) ht hbefore (holds_of_pending hpending hwg)
      rw [htag]
      exact holds_of_pending hpending' hwg'

/-- A turn that leaves the cache alone, where what is newly pending was chosen alone. -/
theorem Inv.keep (h : p.Inv) {w : World} (ht : p.threads[i]? = some t)
    (hmem : w.mem = p.shared.mem) (hu : ∀ conn, u.pending = some conn → t.pending = some conn ∨
      (∀ wg, conn.proto.wg = some wg →
        p.shared.mem.connections.AddressFree conn.proto.proto wg.address.address) ∧
      ∀ (j : ℕ) t', p.threads[j]? = some t' → t'.holds ≠ some conn.proto.proto) :
    Inv ⟨w, p.threads.set i u⟩ := by
  refine ⟨by rw [hmem]; exact h.unique, ?_, ?_⟩
  · intro j t' conn wg ht' hpending hwg
    rw [hmem]
    rcases Pool.eq_or_of_getElem?_set ht' with ⟨-, rfl⟩ | ⟨-, hbefore⟩
    · rcases hu conn hpending with hpending | ⟨hfree, -⟩
      · exact h.free i t conn wg ht hpending hwg
      · exact hfree wg hwg
    · exact h.free j t' conn wg hbefore hpending hwg
  · apply h.apart.set ht
    intro tag htag
    obtain ⟨conn, hpending, hholds⟩ := Option.bind_eq_some_iff.mp htag
    obtain ⟨wg, hwg, rfl⟩ := Option.map_eq_some_iff.mp hholds
    rcases hu conn hpending with hbefore | ⟨-, halone⟩
    · exact .inl (holds_of_pending hbefore hwg)
    · exact .inr halone

theorem Inv.step (h : p.Inv) {turn : ℕ × DateTime} (hturn : p.choosesAlone turn = true) :
    Inv (p.step CreateThread.advance turn) := by
  refine Pool.step_keeps h fun t ht => ?_
  rcases t.advance_cases turn.2 p.shared with ⟨call, conn, rfl, hmem, hnone⟩ | ⟨hmem, hpending⟩
  · exact h.cache ht rfl hnone hmem
  · apply h.keep ht hmem
    intro conn hconn
    rcases hpending conn hconn with hbefore | ⟨call, rfl, hprepare⟩
    · exact .inl hbefore
    · refine .inr ⟨fun wg hwg => CreateCall.addressFree_of_prepare hprepare hwg, ?_⟩
      have halone : ∀ t' ∈ p.threads, t'.holds ≠ some conn.proto.proto := by
        simpa [choosesAlone, ht, hprepare] using hturn
      intro j t' ht'
      exact halone t' (List.mem_of_getElem? ht')

end CreatePool

/-- In every interleaving in which addresses of a tag are chosen one call at a time, the
cached addresses are unique in every state. At the start no call has begun. -/
theorem addresses_unique_interleaved {p : CreatePool} {turns : List (ℕ × DateTime)}
    (hstart : ∀ t ∈ p.threads, ∃ call, t = .waiting call)
    (hunique : p.shared.mem.connections.AddressesUnique)
    (halone : Run.Along (Pool.step CreateThread.advance)
      (fun p turn => CreatePool.choosesAlone p turn = true) p turns) :
    ∀ p' ∈ turns.scanl (Pool.step CreateThread.advance) p,
      p'.shared.mem.connections.AddressesUnique := by
  have hnone : ∀ (i : ℕ) t, p.threads[i]? = some t → t.pending = none := by
    intro i t ht
    obtain ⟨call, rfl⟩ := hstart t (List.mem_of_getElem? ht)
    rfl
  have hinv : CreatePool.Inv p := by
    refine ⟨hunique, ?_, ?_⟩
    · intro i t conn wg ht hpending
      rw [hnone i t ht] at hpending
      cases hpending
    · intro i j t t' tag _ ht _ hholds
      simp [CreateThread.holds, hnone i t ht] at hholds
  intro p' hp'
  exact (Run.invariant_scanl (I := fun p : CreatePool => p.Inv) (fun _ _ h hturn => h.step hturn)
    hinv halone p' hp').unique

section Runs

def wireguardCall (connId : Uuid) : CreateCall :=
  .inner ⟨⟨.v4 0x0a000000, 24⟩, ⟨.v4 0x0a400000, 24⟩, none⟩
    ⟨.production, .wireguard, none, none, none, none, none, true⟩ ⟨connId, ⟨""⟩, "", 0, ""⟩

def twoCalls : CreatePool :=
  ⟨.init (fun _ => false) fun _ => false, [.waiting (wireguardCall 1), .waiting (wireguardCall 2)]⟩

theorem twoCalls_waiting : ∀ t ∈ twoCalls.threads, ∃ call, t = .waiting call := by
  simp [twoCalls]

theorem twoCalls_unique : twoCalls.shared.mem.connections.AddressesUnique := by
  intro c c' conn conn' wg wg' h
  cases h

/-- The second call chooses when the first has cached its connection. -/
theorem addresses_unique_one_by_one :
    (∀ t ∈ twoCalls.threads, ∃ call, t = .waiting call) ∧
      ∀ p' ∈ [(0, 0), (0, 0), (0, 0), (1, 0), (0, 0), (1, 0), (1, 0)].scanl
        (Pool.step CreateThread.advance) twoCalls, p'.shared.mem.connections.AddressesUnique :=
  ⟨twoCalls_waiting, addresses_unique_interleaved twoCalls_waiting twoCalls_unique
    (by decide +kernel)⟩

def bothChooseFirst : List (ℕ × DateTime) := [(0, 0), (1, 0), (0, 0), (1, 0), (0, 0), (1, 0)]

/-- Both connections get the address 10.0.0.51. -/
theorem not_addresses_unique :
    (∀ t ∈ twoCalls.threads, ∃ call, t = .waiting call) ∧
      twoCalls.shared.mem.connections.AddressesUnique ∧
      ¬ ∀ p' ∈ bothChooseFirst.scanl (Pool.step CreateThread.advance) twoCalls,
        p'.shared.mem.connections.AddressesUnique := by
  refine ⟨twoCalls_waiting, twoCalls_unique, fun h => ?_⟩
  have hlast := h _ (List.mem_of_getLast? rfl)
  have hfirst : ((bothChooseFirst.foldl (Pool.step CreateThread.advance)
      twoCalls).shared.mem.connections.lookup 1).map Conn.proto =
        some (.wireguard ⟨⟨""⟩, ⟨.v4 0x0a000033, 32⟩⟩) := by decide +kernel
  have hsecond : ((bothChooseFirst.foldl (Pool.step CreateThread.advance)
      twoCalls).shared.mem.connections.lookup 2).map Conn.proto =
        some (.wireguard ⟨⟨""⟩, ⟨.v4 0x0a000033, 32⟩⟩) := by decide +kernel
  obtain ⟨conn, hconn, hproto⟩ := Option.map_eq_some_iff.mp hfirst
  obtain ⟨conn', hconn', hproto'⟩ := Option.map_eq_some_iff.mp hsecond
  have hsame : (1 : Uuid) = 2 := by
    apply hlast 1 2 conn conn' _ _ hconn hconn' (by rw [hproto, hproto'])
    · rw [hproto]
      rfl
    · rw [hproto']
      rfl
    · rfl
  exact absurd hsame (by decide)

end Runs

end Fcore
