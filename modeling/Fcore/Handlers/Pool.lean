import Fcore.Config.Link
import Fcore.Handlers.Amnezia
import Fcore.Lib.OneSided

/-!
# Nodes of one pool

A client may be sent to any node of a pool with one configuration, so a node that joins
is compared with the serving ones that are there, in the fields that reach a client. The
comparison reads the fields of the peer from the incoming node. What only the incoming
node has is not looked at, and what it lacks is read as null. A peer without obfuscation
has the field `awg_obfuscation` with the value null, and takes a node with obfuscation
for one without.
-/

namespace Fcore

structure PoolFieldDiff where
  tag : String
  field : String
  peer : Json
  incoming : Json
  deriving DecidableEq, Repr

structure PoolConflict where
  pool : String
  peerHostname : String
  differences : List PoolFieldDiff
  deriving DecidableEq, Repr

structure PoolBackend extends Backend where
  keyFingerprint : String → String

namespace PoolBackend

variable (b : PoolBackend)

def wgFields (wg : WireguardSettings) : List (String × Json) :=
  [("address", .str (Inbound.ipMaskText b.toBackend wg.address)),
    ("dns", b.toBackend.dnsValue wg.dns), ("keepalive", .ofOption Json.ofU16 wg.keepalive),
    ("public_key", .str (b.keyFingerprint wg.keys.privkey))]

def awgFields (awg : AmneziaWgSettings) : List (String × Json) :=
  [("address", .str (Inbound.ipMaskText b.toBackend awg.interface.address)),
    ("listen_port", .ofU16 awg.interface.listenPort),
    ("mtu", .ofOption Json.ofU16 awg.interface.mtu),
    ("dns", b.toBackend.dnsValue awg.interface.dns),
    ("keepalive", .ofOption Json.ofU16 awg.keepalive),
    ("public_key", .str (b.keyFingerprint awg.interface.privateKey.privkey))] ++
  match awg.obfuscation with
  | some o => o.toFields.map fun field => ("awg_obfuscation." ++ field.1, field.2)
  | none => [("awg_obfuscation", .null)]

/-- The fields of an inbound that reach a client. A field written twice has the later
value. -/
def clientInboundFields (inbound : Inbound) : Table String Json :=
  let fields := [("port", Json.ofU16 inbound.port)] ++
    (inbound.wg.map b.wgFields).getD [] ++ (inbound.awg.map b.awgFields).getD [] ++
    (inbound.h2.map fun h2 => [("sni", Json.ofOption .str h2.sni)]).getD [] ++
    (inbound.streamSettings.map fun stream => [("stream_settings", stream.toValue)]).getD []
  fields.foldl (fun out field => AList.insert field.1 field.2 out) ∅

def clientFields (node : Node) : Table String (Table String Json) :=
  node.inbounds.entries.foldl (fun out e =>
    AList.insert e.1.toText (b.clientInboundFields e.2) out) ∅

end PoolBackend

def sortedEntries {V : Type*} (t : Table String V) : List (Σ _ : String, V) :=
  t.entries.insertionSort fun a b => a.1 ≤ b.1

/-- The fields of a peer that an incoming node has with another value. -/
def fieldDifferences (tag : String) (peer incoming : Table String Json) : List PoolFieldDiff :=
  (sortedEntries peer).filterMap fun e =>
    let value := (incoming.lookup e.1).getD .null
    if value ≠ e.2 then some ⟨tag, e.1, e.2, value⟩ else none

def poolDifferences (peer incoming : Table String (Table String Json)) : List PoolFieldDiff :=
  (sortedEntries peer).flatMap (fun e =>
    match incoming.lookup e.1 with
    | none => [⟨e.1, "inbounds", .str "present", .str "missing"⟩]
    | some fields => fieldDifferences e.1 e.2 fields) ++
  (sortedEntries incoming).filterMap fun e =>
    if (peer.lookup e.1).isSome then none
    else some ⟨e.1, "inbounds", .str "missing", .str "present"⟩

def Node.isPeerOf (node incoming : Node) (pool : String) : Bool :=
  decide (node.uuid ≠ incoming.uuid) && node.status.isServing &&
    decide (normalizedPool node.pool = some pool)

/-- A node without a pool is compared with nothing. -/
def poolInboundsConflict (b : PoolBackend) (peers : List Node) (incoming : Node) :
    Option PoolConflict :=
  (normalizedPool incoming.pool).bind fun pool =>
    ((peers.filter fun node => node.isPeerOf incoming pool).insertionSort
      fun a b => a.uuid ≤ b.uuid).findSome? fun peer =>
        let differences := poolDifferences (b.clientFields peer) (b.clientFields incoming)
        if differences.isEmpty then none else some ⟨pool, peer.hostname, differences⟩

theorem mem_sortedEntries {V : Type*} {t : Table String V} {e : Σ _ : String, V} :
    e ∈ sortedEntries t ↔ t.lookup e.1 = some e.2 := by
  rw [sortedEntries, List.mem_insertionSort, AList.mem_entries_iff]

theorem fieldDifferences_eq_nil {tag : String} {peer incoming : Table String Json} :
    fieldDifferences tag peer incoming = [] ↔ OneSided.Reads .null peer incoming := by
  rw [fieldDifferences, List.filterMap_eq_nil_iff]
  constructor
  · intro h field value hvalue
    have hnone := h ⟨field, value⟩ (mem_sortedEntries.mpr hvalue)
    by_contra hne
    simp [hne] at hnone
  · intro h e he
    exact if_neg (not_not.mpr (h e.1 e.2 (mem_sortedEntries.mp he)))

theorem poolDifferences_eq_nil {peer incoming : Table String (Table String Json)} :
    poolDifferences peer incoming = [] ↔ OneSided.Agree .null peer incoming := by
  rw [poolDifferences, List.append_eq_nil_iff, List.flatMap_eq_nil_iff,
    List.filterMap_eq_nil_iff]
  constructor
  · rintro ⟨hpeer, hincoming⟩
    constructor
    · intro tag
      cases hold : peer.lookup tag with
      | none =>
        cases hnew : incoming.lookup tag with
        | none => rfl
        | some fields =>
          have hnone := hincoming ⟨tag, fields⟩ (mem_sortedEntries.mpr hnew)
          simp [hold] at hnone
      | some fields =>
        have hnone := hpeer ⟨tag, fields⟩ (mem_sortedEntries.mpr hold)
        cases hnew : incoming.lookup tag with
        | none => simp [hnew] at hnone
        | some _ => rfl
    · intro tag fields fields' hold hnew
      have hnone := hpeer ⟨tag, fields⟩ (mem_sortedEntries.mpr hold)
      rw [hnew] at hnone
      exact fieldDifferences_eq_nil.mp hnone
  · intro h
    constructor
    · intro e he
      have hold := mem_sortedEntries.mp he
      have hkeys := h.keys e.1
      cases hnew : incoming.lookup e.1 with
      | none =>
        rw [hold, hnew] at hkeys
        cases hkeys
      | some fields => exact fieldDifferences_eq_nil.mpr (h.reads e.1 e.2 fields hold hnew)
    · intro e he
      have hkeys := h.keys e.1
      rw [mem_sortedEntries.mp he] at hkeys
      exact if_pos hkeys

section Complete

variable {b : PoolBackend} {peers : List Node} {incoming : Node} {pool : String}

theorem poolInboundsConflict_eq_none (hpool : normalizedPool incoming.pool = some pool) :
    poolInboundsConflict b peers incoming = none ↔
      ∀ peer ∈ peers, peer.isPeerOf incoming pool = true →
        OneSided.Agree .null (b.clientFields peer) (b.clientFields incoming) := by
  rw [poolInboundsConflict, hpool, Option.bind_some, List.findSome?_eq_none_iff]
  constructor
  · intro h peer hpeer hcompared
    have hnone := h peer (by simp [hpeer, hcompared])
    by_contra hne
    rw [← poolDifferences_eq_nil] at hne
    simp [hne] at hnone
  · intro h peer hpeer
    rw [List.mem_insertionSort, List.mem_filter] at hpeer
    exact if_pos (by simp [poolDifferences_eq_nil.mpr (h peer hpeer.1 hpeer.2)])

/-- No conflict is found exactly when all compared peers have the fields of the incoming
node, provided that one of them differs in a way the comparison sees or none hides a
field. Two nodes that hide nothing from each other conflict in both orders or in none. -/
theorem poolInboundsConflict_complete_iff (b : PoolBackend) (pool : String) (peers : List Node)
    (incoming : Node) (hpool : normalizedPool incoming.pool = some pool) :
    ((poolInboundsConflict b peers incoming = none ↔
        ∀ peer ∈ peers, peer.isPeerOf incoming pool = true →
          OneSided.Same (b.clientFields peer) (b.clientFields incoming)) ↔
      (∃ peer ∈ peers, peer.isPeerOf incoming pool = true ∧
        ¬ OneSided.Agree .null (b.clientFields peer) (b.clientFields incoming)) ∨
      ∀ peer ∈ peers, peer.isPeerOf incoming pool = true →
        ∀ tag field, ¬ OneSided.Hides .null (b.clientFields peer) (b.clientFields incoming) tag
          field) ∧
    ∀ node, node.isPeerOf incoming pool = true → incoming.isPeerOf node pool = true →
      (∀ tag field, ¬ OneSided.Hides .null (b.clientFields node) (b.clientFields incoming) tag
        field) →
      (∀ tag field, ¬ OneSided.Hides .null (b.clientFields incoming) (b.clientFields node) tag
        field) →
      (poolInboundsConflict b [node] incoming = none ↔
        poolInboundsConflict b [incoming] node = none) := by
  constructor
  · simp only [poolInboundsConflict_eq_none hpool, OneSided.same_iff Json.null]
    constructor
    · intro h
      by_cases hagree : ∀ peer ∈ peers, peer.isPeerOf incoming pool = true →
          OneSided.Agree .null (b.clientFields peer) (b.clientFields incoming)
      · exact .inr fun peer hpeer hcompared => (h.mp hagree peer hpeer hcompared).2
      · push Not at hagree
        exact .inl hagree
    · rintro (⟨peer, hpeer, hcompared, hdiffers⟩ | hhides)
      · exact iff_of_false (fun h => hdiffers (h peer hpeer hcompared))
          fun h => hdiffers (h peer hpeer hcompared).1
      · exact ⟨fun h peer hpeer hcompared =>
          ⟨h peer hpeer hcompared, hhides peer hpeer hcompared⟩,
          fun h peer hpeer hcompared => (h peer hpeer hcompared).1⟩
  · intro node hnode hincoming hforth hback
    have hpoolNode : normalizedPool node.pool = some pool :=
      of_decide_eq_true (Bool.and_eq_true_iff.mp hnode).2
    rw [poolInboundsConflict_eq_none hpool, poolInboundsConflict_eq_none hpoolNode]
    simp only [List.forall_mem_singleton, hnode, hincoming, forall_const]
    exact OneSided.agree_comm hforth hback

def constantPool : PoolBackend where
  toBackend := constantBackend
  keyFingerprint _ := ""

/-- A node of the pool `EU` with one AmneziaWG inbound. -/
def awgNode (uuid : Uuid) (obfuscation : Option AwgObfuscationParams) : Node :=
  { Node.bare uuid .ru with
    inbounds := AList.singleton .amneziaWg
      { tag := .amneziaWg
        port := 51820
        wg := none
        awg := some ⟨⟨"awg0", ⟨.v4 0, 24⟩, 51820, none, ⟨"server"⟩, []⟩, obfuscation, none⟩ }
    pool := some "EU" }

def someObfuscation : AwgObfuscationParams where
  jc := 4
  jmin := 40
  jmax := 70
  s1 := 15
  s2 := 25
  s3 := 0
  s4 := 0
  h1 := "5"
  h2 := "6"
  h3 := "7"
  h4 := "8"
  i1 := ""
  i2 := ""
  i3 := ""
  i4 := ""
  i5 := ""
  randomTrailers := none
  disableCookies := none
  headerProtectionKey := none
  contentPaddingAddition := none
  rekeyAfterTime := none
  rekeyTimeout := none
  rejectAfterTime := none
  keepaliveTimeout := none
  maxHandshakeAttempts := none

/-- A node that is configured like its peer fits. -/
theorem poolInboundsConflict_same_config :
    poolInboundsConflict constantPool [awgNode 8 none] (awgNode 9 none) = none := by
  have hpool : normalizedPool (awgNode 9 none).pool = some "EU" := by decide +kernel
  have hsame : OneSided.Same (constantPool.clientFields (awgNode 8 none))
      (constantPool.clientFields (awgNode 9 none)) := by
    refine ⟨fun _ => rfl, fun tag first second hfirst hsecond field => ?_⟩
    cases hfirst.symm.trans hsecond
    rfl
  have hiff := (poolInboundsConflict_complete_iff constantPool "EU" [awgNode 8 none]
    (awgNode 9 none) hpool).1.mpr (.inr (by
      simp only [List.forall_mem_singleton]
      exact fun _ => ((OneSided.same_iff .null).mp hsame).2))
  rw [hiff]
  simp only [List.forall_mem_singleton]
  exact fun _ => hsame

/-- A node with obfuscation joins a peer without, and the other way round it would be
refused. -/
theorem obfuscation_not_compared :
    let plain := awgNode 8 none
    let masked := awgNode 9 (some someObfuscation)
    plain.isPeerOf masked "EU" = true ∧ masked.isPeerOf plain "EU" = true ∧
      poolInboundsConflict constantPool [plain] masked = none ∧
      ¬ OneSided.Same (constantPool.clientFields plain) (constantPool.clientFields masked) ∧
      poolInboundsConflict constantPool [masked] plain ≠ none := by
  refine ⟨by decide +kernel, by decide +kernel, by decide +kernel, fun h => ?_, by decide +kernel⟩
  have hjc := h.bind_lookup "AmneziaWg" "awg_obfuscation.jc"
  revert hjc
  decide +kernel

end Complete

end Fcore
