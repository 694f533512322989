import Fcore.Entitlements
import Fcore.Handlers.Connection
import Fcore.Tasks.Turn

/-!
# Connections a subscription is entitled to

The reconciling pass creates what a subscription is entitled to and does not have. It
looks at the subscriptions that are active and, with traffic mode, at those whose paid
time is over and whose balance is not. For the latter it asks for the balance and for the
environments and protocols to serve, and then calls for connections that are refused: a
connection is created for an active subscription only. So what such a subscription has
after the pass is what it had before.
-/

namespace Fcore

def issuedViaPlan : String := "plan"

def isSingleProto (tag : Tag) : Bool := !ConnRow.isWireguardFamily tag

/-- The pairs that count as present. A connection made for a share does not, nor does a
named one of a protocol that may have several. -/
def existingDefaultPairs (conns : List (Uuid × Env × Tag)) (labels : Table Uuid String)
    (shareConns : List Uuid) : List (Env × Tag) :=
  (conns.filter fun item => !shareConns.contains item.1 &&
    ((labels.lookup item.1).isNone || isSingleProto item.2.2)).map fun item => item.2

/-- The plan and the product by which a subscription is served. One that lives on its
balance is served as a lite one, if its product includes the standard set. -/
def Subscription.servedAs (sub : Subscription) (now : DateTime) : PlanKind × Product :=
  if !sub.isActive now && sub.timeExpired now && sub.product.includesStandard then
    (.lite, .standard)
  else (sub.planKind, sub.product)

namespace Cache

/-- The subscriptions the pass looks at. -/
def reconciledSubs (settings : ServiceSettings) (now : DateTime) (mem : Cache) : List Uuid :=
  (mem.subscriptions.entries.filter fun e => decide (e.2.planKind ≠ .selfhosted) &&
    (e.2.isActive now ||
      (settings.trafficModeEnabled && !e.2.isDeleted && e.2.timeExpired now))).map fun e => e.1

/-- Some connection of the subscription is for the pair, live or not. -/
def Covers (mem : Cache) (subId : Uuid) (env : Env) (tag : Tag) : Prop :=
  ∃ c conn, mem.connections.lookup c = some conn ∧ conn.subscriptionId = some subId ∧
    conn.env = env ∧ conn.proto.proto = tag

/-- All pairs are covered that the nodes can serve. -/
def CoversServable (mem : Cache) (subId : Uuid) (nodes : Nodes)
    (conns : Table Env (List Tag)) : Prop :=
  ∀ env tags, conns.lookup env = some tags → ∀ tag ∈ tags,
    validateEnvServed (nodes.getByEnv env) env tag = .ok () → mem.Covers subId env tag

end Cache

/-- What the pass is configured with, and the random values for the connections of each
subscription. -/
structure Reconciler where
  settings : ServiceSettings
  resolver : ConnResolver
  networks : WgNetworks
  draw : Uuid → ℕ → Generated

namespace World

/-- The arguments with which a missing connection is created. -/
def planned (subId : Uuid) (pair : Env × Tag) : CreateConnection where
  env := pair.1
  proto := pair.2
  subscriptionId := some subId
  days := none
  label := none
  nodeId := none
  issuedVia := some issuedViaPlan
  includeInMain := true

/-- What is present is found out once, before the first creation. -/
def ensureEnabledConnections (r : Reconciler) (subId : Uuid)
    (enabledConns : Option (Table Env (List Tag))) (now : DateTime) (w : World) : World :=
  match enabledConns with
  | none => w
  | some conns =>
    let existing := existingDefaultPairs
      (((w.mem.connections.getBySubscriptionId subId).getD []).map fun c =>
        (c.1, c.2.env, c.2.proto.proto)) w.mem.connLabels w.mem.shareConns
    let pairs := conns.entries.flatMap fun e => e.2.map fun tag => (e.1, tag)
    pairs.zipIdx.foldl (fun w item =>
      if item.1 ∈ existing then w
      else (w.createConnectionInner r.networks (planned subId item.1) (r.draw subId item.2)
        now).1) w

/-- What the subscription is entitled to, if that can be told. -/
def ensureServed (r : Reconciler) (subId : Uuid) (sub : Subscription) (now : DateTime)
    (w : World) : World :=
  match r.resolver.resolve (sub.servedAs now).1 (sub.servedAs now).2 with
  | .error _ => w
  | .ok conns => w.ensureEnabledConnections r subId conns now

def reconcileSubscription (r : Reconciler) (now : DateTime) (w : World) (subId : Uuid) : World :=
  match w.mem.subscriptions.lookup subId with
  | none => w
  | some sub =>
    if sub.isActive now then w.ensureServed r subId sub now
    else
      match w.dbRead (Db.totalForSubscription subId) with
      | (w, .error _) => w
      | (w, .ok total) =>
        let remaining := (w.mem.subscriptions.lookup subId).bind fun sub =>
          sub.remainingBytes (total.1 + total.2)
        if remaining.any fun bytes => decide (0 < bytes) then w.ensureServed r subId sub now
        else w

def reconcileEnabledConnections (r : Reconciler) (now : DateTime) (w : World) : World :=
  if r.resolver.enabledConns.isNone && r.resolver.envProtoTemplates.entries.isEmpty then w
  else (w.mem.reconciledSubs r.settings now).foldl (reconcileSubscription r now) w

variable {owner : Uuid}

section Refused

variable {r : Reconciler} {now : DateTime} {w w' : World} {subId : Uuid} {sub : Subscription}

/-- The subscriptions are the same, and so are the connections of one of them. -/
structure SameConnsOf (subId : Uuid) (w w' : World) : Prop where
  subscriptions : w'.mem.subscriptions = w.mem.subscriptions
  conns : ∀ c conn, conn.subscriptionId = some subId →
    (w'.mem.connections.lookup c = some conn ↔ w.mem.connections.lookup c = some conn)

theorem SameConnsOf.of_mem (h : w'.mem = w.mem) : SameConnsOf subId w w' :=
  ⟨by rw [h], fun c conn _ => by rw [h]⟩

theorem SameConnsOf.trans {w₁ w₂ w₃ : World} (h : SameConnsOf subId w₁ w₂)
    (h' : SameConnsOf subId w₂ w₃) : SameConnsOf subId w₁ w₃ :=
  ⟨h'.subscriptions.trans h.subscriptions, fun c conn howner =>
    (h'.conns c conn howner).trans (h.conns c conn howner)⟩

theorem SameConnsOf.covers_iff (h : SameConnsOf subId w w') (env : Env) (tag : Tag) :
    w'.mem.Covers subId env tag ↔ w.mem.Covers subId env tag := by
  constructor
  · rintro ⟨c, conn, hconn, howner, hpair⟩
    exact ⟨c, conn, (h.conns c conn howner).mp hconn, howner, hpair⟩
  · rintro ⟨c, conn, hconn, howner, hpair⟩
    exact ⟨c, conn, (h.conns c conn howner).mpr hconn, howner, hpair⟩

/-- A creation adds no connection to a subscription that is not active: it is refused, or
it is for another. -/
theorem sameConnsOf_createConnectionInner {networks : WgNetworks} {req : CreateConnection}
    {generated : Generated} (howner : req.subscriptionId = some owner)
    (hlookup : w.mem.subscriptions.lookup subId = some sub) (hinactive : sub.isActive now = false) :
    SameConnsOf subId w (w.createConnectionInner networks req generated now).1 := by
  rcases createConnectionInner_eq networks req generated now w with
    ⟨_, _, h⟩ | ⟨conn, db, _, _, hprepare, -, -, h⟩ <;> rw [h]
  · exact .of_mem rfl
  · obtain ⟨hcheck, hconn⟩ := subscriptionId_of_prepareConnection hprepare
    rw [howner] at hcheck hconn
    have hne : owner ≠ subId := by
      rintro rfl
      simp [checkSubscription, hlookup, hinactive] at hcheck
    refine ⟨rfl, fun c conn' howner' => ?_⟩
    rw [lookup_addConn]
    split
    · rename_i hc
      subst hc
      cases hold : w.mem.connections.lookup generated.connId with
      | some old => rw [Option.getD_some]
      | none =>
        rw [Option.getD_none]
        refine iff_of_false (fun heq => hne ?_) (by simp)
        rw [← Option.some.inj heq, hconn] at howner'
        exact Option.some.inj howner'
    · rfl

theorem sameConnsOf_ensureEnabledConnections {enabledConns : Option (Table Env (List Tag))}
    (hlookup : w.mem.subscriptions.lookup subId = some sub) (hinactive : sub.isActive now = false) :
    SameConnsOf subId w (w.ensureEnabledConnections r owner enabledConns now) := by
  unfold ensureEnabledConnections
  split
  · exact .of_mem rfl
  · refine Run.invariant_foldl (I := SameConnsOf subId w) (.of_mem rfl) fun w' item _ hsame => ?_
    split
    · exact hsame
    · refine hsame.trans (sameConnsOf_createConnectionInner rfl ?_ hinactive)
      rw [hsame.subscriptions, hlookup]

theorem sameConnsOf_ensureServed {served : Subscription} (hmem : w'.mem = w.mem)
    (hlookup : w.mem.subscriptions.lookup subId = some sub) (hinactive : sub.isActive now = false) :
    SameConnsOf subId w (w'.ensureServed r owner served now) := by
  unfold ensureServed
  split
  · exact .of_mem hmem
  · refine (SameConnsOf.of_mem hmem).trans (sameConnsOf_ensureEnabledConnections ?_ hinactive)
    rw [hmem, hlookup]

theorem sameConnsOf_reconcileSubscription (hlookup : w.mem.subscriptions.lookup subId = some sub)
    (hinactive : sub.isActive now = false) :
    SameConnsOf subId w (w.reconcileSubscription r now owner) := by
  unfold reconcileSubscription
  split
  · exact .of_mem rfl
  · split
    · exact sameConnsOf_ensureServed rfl hlookup hinactive
    · have hmem := dbRead_mem (Db.totalForSubscription owner) w
      split <;> rename_i hresult <;> rw [hresult] at hmem
      · exact .of_mem hmem
      · dsimp only
        split
        · exact sameConnsOf_ensureServed hmem hlookup hinactive
        · exact .of_mem hmem

theorem sameConnsOf_reconcileEnabledConnections
    (hlookup : w.mem.subscriptions.lookup subId = some sub)
    (hinactive : sub.isActive now = false) :
    SameConnsOf subId w (w.reconcileEnabledConnections r now) := by
  unfold reconcileEnabledConnections
  split
  · exact .of_mem rfl
  · refine Run.invariant_foldl (I := SameConnsOf subId w) (.of_mem rfl) fun w' owner _ hsame => ?_
    refine hsame.trans (sameConnsOf_reconcileSubscription ?_ hinactive)
    rw [hsame.subscriptions, hlookup]

/-- A subscription that lives on its balance with traffic mode, and the environments and
protocols it is to be served with. -/
structure Entitled (r : Reconciler) (now : DateTime) (w : World) (subId : Uuid)
    (sub : Subscription) (limit : ℤ) (conns : Table Env (List Tag)) : Prop
    extends OnBalance now w subId sub limit where
  trafficMode : r.settings.trafficModeEnabled = true
  shared : sub.planKind ≠ .selfhosted
  left : w.used subId < limit
  resolved : r.resolver.resolve (sub.servedAs now).1 (sub.servedAs now).2 = .ok (some conns)

/-- After the pass a subscription on its balance has a connection for every pair that it
is entitled to and that can be served, exactly when it had one before. -/
theorem coversServable_reconcile_iff {limit : ℤ} {conns : Table Env (List Tag)}
    (h : Entitled r now w subId sub limit conns) :
    (w.reconcileEnabledConnections r now).mem.CoversServable subId w.mem.nodes conns ↔
      w.mem.CoversServable subId w.mem.nodes conns := by
  have hsame := sameConnsOf_reconcileEnabledConnections (r := r) h.lookup h.not_isActive
  refine forall_congr' fun env => forall₂_congr fun tags _ => forall₂_congr fun tag _ => ?_
  exact imp_congr_right fun _ => hsame.covers_iff env tag

end Refused

section Runs

open Traffic (hourNanos)

/-- A standard subscription with 100 bytes to use and one connection. -/
def balanceWorld (expiresAt : DateTime) : World :=
  let sub := Subscription.new 1 "" (some expiresAt) (some 100) 0
  let w := ((init (fun _ => false) fun _ => false).addSub sub 0).1
  (w.addConn 5 (Conn.new .production (some 1) (.xray .vmess) none 0) none none none true).1

def enabling (tag : Tag) : Table Env (List Tag) := AList.insert .production [tag] ∅

def reconciler (tag : Tag) : Reconciler where
  settings := ⟨true, []⟩
  resolver := ⟨some (enabling tag), none, ∅⟩
  networks := ⟨⟨.v4 0, 0⟩, ⟨.v4 0, 0⟩, none⟩
  draw _ n := ⟨BitVec.ofNat 128 (7 + n), ⟨""⟩, "", 0, ""⟩

/-- An active subscription gets what it lacks. -/
example : ((balanceWorld (40 * hourNanos)).reconcileEnabledConnections
    (reconciler .vlessTcpReality) (23 * hourNanos)).mem.Covers 1 .production .vlessTcpReality :=
  ⟨7, Conn.new .production (some 1) (.xray .vlessTcpReality) none (23 * hourNanos), by
    decide +kernel, rfl, rfl, rfl⟩

theorem entitled_balanceWorld (tag : Tag) :
    Entitled (reconciler tag) (23 * hourNanos) (balanceWorld (12 * hourNanos)) 1
      (.new 1 "" (some (12 * hourNanos)) (some 100) 0) 100 (enabling tag) where
  lookup := by decide +kernel
  notDeleted := rfl
  expired := by decide +kernel
  limitBytes := rfl
  trafficMode := rfl
  shared := by decide
  left := by decide +kernel
  resolved := by
    have hserved : (Subscription.new 1 "" (some (12 * hourNanos)) (some 100) 0).servedAs
        (23 * hourNanos) = (.lite, .standard) := by decide +kernel
    rw [hserved]
    rfl

/-- The protocol of the connection it has is the one that is enabled. -/
theorem coversServable_reconcile_vmess :
    ((balanceWorld (12 * hourNanos)).reconcileEnabledConnections (reconciler .vmess)
      (23 * hourNanos)).mem.CoversServable 1 (balanceWorld (12 * hourNanos)).mem.nodes
        (enabling .vmess) := by
  refine (coversServable_reconcile_iff (entitled_balanceWorld .vmess)).mpr ?_
  intro env tags htags tag htag _
  obtain ⟨rfl, rfl⟩ := AList.eq_of_lookup_single htags
  rw [List.mem_singleton.mp htag]
  exact ⟨5, Conn.new .production (some 1) (.xray .vmess) none 0, by decide +kernel, rfl, rfl, rfl⟩

/-- Another one is enabled, in an environment that needs no node, and the subscription
gets nothing. -/
theorem entitled_connection_not_created :
    let w := balanceWorld (12 * hourNanos)
    let r := reconciler .vlessTcpReality
    w.Reliable ∧ Entitled r (23 * hourNanos) w 1
        (.new 1 "" (some (12 * hourNanos)) (some 100) 0) 100 (enabling .vlessTcpReality) ∧
      validateEnvServed (w.mem.nodes.getByEnv .production) .production .vlessTcpReality = .ok () ∧
      ¬ (w.reconcileEnabledConnections r (23 * hourNanos)).mem.CoversServable 1 w.mem.nodes
        (enabling .vlessTcpReality) := by
  intro w r
  have hentitled := entitled_balanceWorld .vlessTcpReality
  refine ⟨⟨fun _ => rfl, fun _ => rfl⟩, hentitled, rfl, fun h => ?_⟩
  obtain ⟨c, conn, hconn, -, -, htag⟩ :=
    h .production [.vlessTcpReality] (AList.lookup_insert ∅) .vlessTcpReality (by simp) rfl
  have hall : ((w.reconcileEnabledConnections r (23 * hourNanos)).mem.connections.entries.all
      fun e => decide (e.2.proto.proto ≠ .vlessTcpReality)) = true := by decide +kernel
  have hne := List.all_eq_true.mp hall ⟨c, conn⟩ (AList.mem_entries_iff.mpr hconn)
  exact of_decide_eq_true hne htag

end Runs

end World

end Fcore
