import Mathlib.Data.Finset.Insert
import Fcore.Node.Tasks

/-!
# Memory and the interfaces

The connections of the WireGuard family that a node has in memory should be those whose
peers are on its interfaces. A deletion takes the peer off first and then forgets the
connection, so a failure leaves both. A creation remembers the connection first, and when
the peer cannot be put on the interface then, the connection stays in memory without it.
The result of the module is that this is the only way in which the two come apart.
-/

namespace Fcore

namespace NodeTasks

/-- The connections of the WireGuard family with their tags and keys. Different connections
have different public keys. -/
structure Directory (setup : Setup) where
  ids : Finset Uuid
  tag : Uuid → Tag
  param : Uuid → WgParam
  ifaceOf : Uuid → Iface
  pub : Uuid → String
  family : ∀ x ∈ ids, iface (tag x) = some (ifaceOf x)
  derived : ∀ x ∈ ids, setup.pubkey (param x).keys = .ok (pub x)
  distinct : ∀ x ∈ ids, ∀ y ∈ ids, ifaceOf x = ifaceOf y → pub x = pub y → x = y

def Cell.Agrees (c : Cell) : Prop :=
  (∃ conn, c.conn = some conn ∧ (iface conn.proto.proto).isSome) ↔ c.peer.isSome

namespace Directory

variable {setup : Setup} (dir : Directory setup)

structure Describes (msg : Message) : Prop where
  mem : msg.connId ∈ dir.ids
  tag : msg.tag = dir.tag msg.connId
  wg : msg.wg = some (dir.param msg.connId)

def peer (x : Uuid) : Iface × String := (dir.ifaceOf x, dir.pub x)

def Tagged (s : State) : Prop :=
  ∀ x ∈ dir.ids, ∀ conn, s.memory.lookup x = some conn → conn.proto.proto = dir.tag x

/-- The connections of the family in memory are those whose peers are on the interfaces. -/
def Agrees (s : State) : Prop :=
  ∀ x, (∃ conn, s.memory.lookup x = some conn ∧ (iface conn.proto.proto).isSome) ↔
    x ∈ dir.ids ∧ dir.peer x ∈ s.peers

/-- A deletion, a connection that is in memory already, or a creation whose backend calls
succeed. WireGuard goes on when its interface cannot be read. -/
def CarriedOut (s : State) (m : Message × Backend) : Prop :=
  m.1.action = .delete ∨ m.1.connId ∈ s.memory ∨
    setup.clients (dir.ifaceOf m.1.connId) = true ∧ m.2.add = none ∧
      (m.1.tag = .wireguard ∨ m.2.read = none)

variable {dir} {msg : Message} {b : Backend} {s : State}

theorem Describes.peerKey_eq (h : dir.Describes msg) :
    peerKey setup msg = some (dir.peer msg.connId) := by
  simp only [peerKey, h.tag, dir.family _ h.mem, h.wg, dir.derived _ h.mem, peer]

theorem Describes.peer_ne (h : dir.Describes msg) {x : Uuid} (hx : x ∈ dir.ids)
    (hne : x ≠ msg.connId) : peerKey setup msg ≠ some (dir.peer x) := by
  intro heq
  rw [h.peerKey_eq, Option.some.injEq, Prod.mk.injEq] at heq
  exact hne (dir.distinct x hx _ h.mem heq.1.symm heq.2.symm)

theorem Describes.cell_peer (h : dir.Describes msg) (s : State) :
    (s.cell setup msg).peer = s.peers.lookup (dir.peer msg.connId) := by
  simp only [State.cell, h.peerKey_eq, Option.bind_some]

theorem agrees_iff_of_frame {s' : State} (h : dir.Describes msg) (ha : dir.Agrees s)
    (hmemory : ∀ x ≠ msg.connId, s'.memory.lookup x = s.memory.lookup x)
    (hpeers : ∀ x ∈ dir.ids, x ≠ msg.connId →
      s'.peers.lookup (dir.peer x) = s.peers.lookup (dir.peer x)) :
    dir.Agrees s' ↔ (s'.cell setup msg).Agrees := by
  have hmem : ∀ (s : State) x, dir.peer x ∈ s.peers ↔ (s.peers.lookup (dir.peer x)).isSome :=
    fun s x => (AList.lookup_isSome).symm
  simp only [Cell.Agrees, h.cell_peer, conn_cell]
  constructor
  · intro h'
    have hat := h' msg.connId
    rw [hmem] at hat
    simpa [h.mem] using hat
  · intro hat x
    by_cases hx : x = msg.connId
    · subst hx
      rw [hmem]
      simpa [h.mem] using hat
    · rw [hmemory x hx, ha x]
      refine and_congr_right fun hids => ?_
      rw [hmem, hmem, hpeers x hids hx]

theorem cell_agrees (h : dir.Describes msg) (ha : dir.Agrees s) : (s.cell setup msg).Agrees :=
  (agrees_iff_of_frame h ha (fun _ _ => rfl) fun _ _ _ => rfl).mp ha

/-- Without the peer of a connection, a creation puts it on its interface exactly when its
backend calls succeed. -/
theorem Describes.putsPeer_iff (h : dir.Describes msg) :
    putsPeer setup b (dir.ifaceOf msg.connId) none = true ↔
      setup.clients (dir.ifaceOf msg.connId) = true ∧ b.add = none ∧
        (msg.tag = .wireguard ∨ b.read = none) := by
  have hiface := dir.family _ h.mem
  rw [← h.tag] at hiface
  cases htag : msg.tag with
  | wireguard | amneziaWg | amneziaWgMobile =>
    rw [htag, iface, Option.some.injEq] at hiface
    rw [← hiface]
    simp [putsPeer, and_assoc]
  | _ =>
    rw [htag] at hiface
    cases hiface

theorem agrees_create_iff (h : dir.Describes msg)
    (haction : msg.action = .create ∨ msg.action = .update) (ht : dir.Tagged s)
    (ha : dir.Agrees s) :
    (∀ conn, (Handler.steps setup b 3 (.start msg, s.cell setup msg)).2.conn = some conn →
        conn.proto.proto = msg.tag) ∧
      ((Handler.steps setup b 3 (.start msg, s.cell setup msg)).2.Agrees ↔
        dir.CarriedOut s (msg, b)) := by
  have hfamily : iface msg.tag = some (dir.ifaceOf msg.connId) := by
    rw [h.tag, dir.family _ h.mem]
  have hat := cell_agrees h ha
  obtain ⟨conn, result, hsteps, hproto, -, -⟩ :=
    steps_create (b := b) haction hfamily h.wg (dir.derived _ h.mem) (s.cell setup msg)
  rw [hsteps]
  simp only [Cell.created, Cell.addConn, conn_cell, CarriedOut, Cell.Agrees] at hat ⊢
  have hnot : msg.action ≠ .delete := by
    rcases haction with haction | haction <;> simp [haction]
  cases hconn : s.memory.lookup msg.connId with
  | some old =>
    have hold : old.proto.proto = msg.tag := (ht _ h.mem old hconn).trans h.tag.symm
    have hpeer : (s.cell setup msg).peer.isSome = true := by
      rw [← hat]
      exact ⟨old, hconn, by simp [hold, hfamily]⟩
    have hmem : msg.connId ∈ s.memory := by
      rw [← AList.lookup_isSome, hconn]
      rfl
    refine ⟨by simpa using hold, ?_⟩
    simp [hold, hfamily, hmem, apply_ite Option.isSome, hpeer]
  | none =>
    have hpeer : (s.cell setup msg).peer = none := by
      rw [← Option.not_isSome_iff_eq_none, ← hat, hconn]
      simp
    have hmem : msg.connId ∉ s.memory := by
      rw [← AList.lookup_isSome, hconn]
      simp
    refine ⟨by simpa using hproto, ?_⟩
    simp [hproto, hfamily, hpeer, hmem, hnot, apply_ite Option.isSome, h.putsPeer_iff]

theorem agrees_delete (h : dir.Describes msg) (haction : msg.action = .delete)
    (ht : dir.Tagged s) (ha : dir.Agrees s) :
    (∀ conn, (Handler.steps setup b 3 (.start msg, s.cell setup msg)).2.conn = some conn →
        conn.proto.proto = msg.tag) ∧
      (Handler.steps setup b 3 (.start msg, s.cell setup msg)).2.Agrees := by
  have hfamily : iface msg.tag = some (dir.ifaceOf msg.connId) := by
    rw [h.tag, dir.family _ h.mem]
  have hsteps := steps_delete (b := b) haction hfamily h.wg (dir.derived _ h.mem)
    (s.cell setup msg)
  split at hsteps
  · rw [hsteps]
    simp [Cell.Agrees]
  · obtain ⟨e, hsteps⟩ := hsteps
    rw [hsteps]
    exact ⟨fun conn hconn => (ht _ h.mem conn hconn).trans h.tag.symm, cell_agrees h ha⟩

theorem agrees_handleMessage_iff (h : dir.Describes msg) (haction : msg.action ≠ .resetStat)
    (ht : dir.Tagged s) (ha : dir.Agrees s) :
    dir.Tagged (handleMessage setup b msg s).2 ∧
      (dir.Agrees (handleMessage setup b msg s).2 ↔ dir.CarriedOut s (msg, b)) := by
  have hmemory : ∀ x ≠ msg.connId,
      (handleMessage setup b msg s).2.memory.lookup x = s.memory.lookup x :=
    fun x hx => memory_advances_ne 3 hx
  have hpeers : ∀ x ∈ dir.ids, x ≠ msg.connId →
      (handleMessage setup b msg s).2.peers.lookup (dir.peer x) = s.peers.lookup (dir.peer x) :=
    fun x hids hx => peers_advances_ne 3 (h.peer_ne hids hx)
  have hcell : (handleMessage setup b msg s).2.cell setup msg =
      (Handler.steps setup b 3 (.start msg, s.cell setup msg)).2 :=
    (handleMessage_eq setup b msg s).2
  rw [agrees_iff_of_frame h ha hmemory hpeers, hcell]
  have hlocal : (∀ conn, (Handler.steps setup b 3 (.start msg, s.cell setup msg)).2.conn =
        some conn → conn.proto.proto = msg.tag) ∧
      ((Handler.steps setup b 3 (.start msg, s.cell setup msg)).2.Agrees ↔
        dir.CarriedOut s (msg, b)) := by
    cases hact : msg.action with
    | create => exact agrees_create_iff h (.inl hact) ht ha
    | update => exact agrees_create_iff h (.inr hact) ht ha
    | delete =>
      obtain ⟨htags, hagrees⟩ := agrees_delete (b := b) h hact ht ha
      exact ⟨htags, iff_of_true hagrees (.inl hact)⟩
    | resetStat => exact absurd hact haction
  refine ⟨fun x hids conn hconn => ?_, hlocal.2⟩
  by_cases hx : x = msg.connId
  · subst hx
    rw [← h.tag]
    apply hlocal.1
    rw [← hcell]
    exact hconn
  · rw [hmemory x hx] at hconn
    exact ht x hids conn hconn

end Directory

/-- After every message of a sequence, the connections of the WireGuard family in memory
are those whose peers are on the interfaces, exactly when every creation of a connection
that is not in memory has all of its backend calls succeed. -/
theorem memory_agrees_with_peers_iff {setup : Setup} (dir : Directory setup) {s : State}
    (ht : dir.Tagged s) (ha : dir.Agrees s) {msgs : List (Message × Backend)}
    (hmsgs : ∀ m ∈ msgs, dir.Describes m.1 ∧ m.1.action ≠ .resetStat) :
    (∀ s' ∈ msgs.scanl (fun s m => (handleMessage setup m.2 m.1 s).2) s, dir.Agrees s') ↔
      Run.Along (fun s m => (handleMessage setup m.2 m.1 s).2) dir.CarriedOut s msgs := by
  apply Run.forall_scanl_iff (J := dir.Tagged) _ ht ha
  intro s m hm ht ha
  exact Directory.agrees_handleMessage_iff (hmsgs m hm).1 (hmsgs m hm).2 ht ha

/-! A node without connections, and the creation of one. -/

def sampleSetup : Setup where
  clients := fun _ => true
  handlerClient := true
  pubkey := fun keys => .ok keys.privkey

def sampleParam (privkey : String) : WgParam := ⟨⟨privkey⟩, ⟨.v4 0, 32⟩⟩

def sampleMessage (action : Action) (connId : Uuid) (privkey : String) : Message where
  connId := connId
  action := action
  tag := .amneziaWg
  wg := some (sampleParam privkey)
  password := none
  token := none
  expiresAt := none
  subscriptionId := none

def sampleBackend : Backend := ⟨none, none, none, none, (false, false, false), 0⟩

def sampleEmpty : State := ⟨∅, ∅, ∅, fun _ => ⟨0, 0, 0⟩⟩

def sampleDirectory : Directory sampleSetup where
  ids := {1}
  tag := fun _ => .amneziaWg
  param := fun _ => sampleParam "one"
  ifaceOf := fun _ => .awg
  pub := fun _ => "one"
  family := fun _ _ => rfl
  derived := fun _ _ => rfl
  distinct := by simp

theorem agrees_sampleEmpty : sampleDirectory.Agrees sampleEmpty := by
  simp [Directory.Agrees, sampleEmpty]

theorem describes_sampleMessage :
    sampleDirectory.Describes (sampleMessage .create 1 "one") := ⟨by simp [sampleDirectory,
      sampleMessage], rfl, rfl⟩

theorem memory_agrees_with_peers_created :
    Run.Along (fun s m => (handleMessage sampleSetup m.2 m.1 s).2) sampleDirectory.CarriedOut
        sampleEmpty [(sampleMessage .create 1 "one", sampleBackend)] ∧
      ∀ s' ∈ [(sampleMessage .create 1 "one", sampleBackend)].scanl
        (fun s m => (handleMessage sampleSetup m.2 m.1 s).2) sampleEmpty,
        sampleDirectory.Agrees s' := by
  have halong : Run.Along (fun s m => (handleMessage sampleSetup m.2 m.1 s).2)
      sampleDirectory.CarriedOut sampleEmpty
      [(sampleMessage .create 1 "one", sampleBackend)] :=
    ⟨.inr (.inr ⟨rfl, rfl, .inr rfl⟩), trivial⟩
  refine ⟨halong, (memory_agrees_with_peers_iff sampleDirectory ?_ agrees_sampleEmpty ?_).mpr
    halong⟩
  · intro x _ conn hconn
    cases hconn
  · simp only [List.mem_singleton, forall_eq]
    exact ⟨describes_sampleMessage, by decide⟩

/-- The peer cannot be added. The connection stays in memory. -/
theorem not_memory_agrees_with_peers_add_fails :
    sampleDirectory.Describes (sampleMessage .create 1 "one") ∧
      sampleDirectory.Agrees sampleEmpty ∧
      ¬sampleDirectory.Agrees (handleMessage sampleSetup { sampleBackend with add := some "busy" }
        (sampleMessage .create 1 "one") sampleEmpty).2 := by
  refine ⟨describes_sampleMessage, agrees_sampleEmpty, fun h => ?_⟩
  have hpeer := ((h 1).mp ⟨_, rfl, rfl⟩).2
  revert hpeer
  decide

end NodeTasks

end Fcore
