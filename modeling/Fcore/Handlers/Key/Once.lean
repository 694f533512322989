import Fcore.Handlers.Key

/-!
# Whether a key grants its value once

A request looks at the mark when it reads the key and sets the mark when everything
else is done, and setting it does not look again. Two requests that both read the key
before either has marked it both grant its value. A request whose last calls fail has
granted the value and leaves the key unmarked. Requests that run one after the other,
and whose calls do not fail once the value is being granted, grant it once and leave
the key marked.
-/

namespace Fcore

open World (dbRead_db)

structure Booked where
  world : World
  grants : List Grant

def grantedIn (store : Store) (grants : List Grant) : ℤ :=
  ((grants.filter fun grant => decide (grant.store = store)).map Grant.amount).sum

abbrev Activation := ActivateKeyReq × Stage

namespace Activation

def phase (request : Activation) : Phase :=
  match request.2 with
  | .start => .waiting
  | .done _ => .finished
  | _ => .active

/-- The calls that follow the first grant do not fail: the row to be extended is
there, and the database answers. -/
def unfailing (_now : DateTime) (request : Activation) (s : Booked) : Bool :=
  match request.2 with
  | .extended _ subId _ => !s.world.dbFails s.world.calls &&
      (s.world.db.subscriptions.lookup subId).isSome
  | .marking _ _ => !s.world.dbFails s.world.calls
  | _ => true

end Activation

/-- One turn of a request. -/
def KeyService.advance (service : KeyService) (now : DateTime) (request : Activation)
    (s : Booked) : Booked × Activation :=
  let r := service.activate now request.1 request.2 s.world
  (⟨r.1, s.grants ++ r.2.2⟩, (request.1, r.2.1))

/-- The key's value was granted at most once in either place, and while no request is
in flight the key is marked if and only if it was granted. -/
def KeyHonoured (key : Key) (p : Pool Booked Activation) : Prop :=
  (∀ store, grantedIn store p.shared.grants ≤ key.value) ∧
    (p.noneActive Activation.phase = true →
      ((p.shared.world.db.keys.lookup key.id).any Key.activated = true ↔ p.shared.grants ≠ []))

variable {stores : List Store} {subId : Uuid} {copy : Key}

section Ledger

/-- The grants are the key's value, in the given places. -/
structure Paid (key : Key) (stores : List Store) (grants : List Grant) : Prop where
  stores : grants.map Grant.store = stores
  amount : ∀ grant ∈ grants, grant.amount = key.value

theorem Paid.nil (key : Key) : Paid key [] [] := ⟨rfl, by simp⟩

theorem Paid.append {key : Key} {stores' : List Store} {grants grants' : List Grant}
    (h : Paid key stores grants) (h' : Paid key stores' grants') :
    Paid key (stores ++ stores') (grants ++ grants') := by
  refine ⟨by rw [List.map_append, h.stores, h'.stores], fun grant hgrant => ?_⟩
  rcases List.mem_append.mp hgrant with hgrant | hgrant
  · exact h.amount grant hgrant
  · exact h'.amount grant hgrant

theorem Paid.single {key : Key} {store : Store} {amount : ℤ} (h : amount = key.value) :
    Paid key [store] [⟨store, subId, amount⟩] :=
  ⟨rfl, by simp [h]⟩

theorem Paid.eq_nil_iff {key : Key} {grants : List Grant} (h : Paid key stores grants) :
    grants = [] ↔ stores = [] := by
  rw [← h.stores, List.map_eq_nil_iff]

theorem Paid.grantedIn_le {key : Key} {grants : List Grant} (h : Paid key stores grants)
    (hnodup : stores.Nodup) (hvalue : 0 ≤ key.value) (store : Store) :
    grantedIn store grants ≤ key.value := by
  have hamounts : (grants.filter fun grant => decide (grant.store = store)).map Grant.amount =
      List.replicate (stores.count store) key.value := by
    refine List.eq_replicate_iff.mpr ⟨?_, fun amount hamount => ?_⟩
    · rw [List.length_map, ← List.countP_eq_length_filter, ← h.stores, List.count, List.countP_map]
      rfl
    · obtain ⟨grant, hgrant, rfl⟩ := List.mem_map.mp hamount
      exact h.amount grant (List.mem_of_mem_filter hgrant)
  have hcount : stores.count store ≤ 1 := List.nodup_iff_count_le_one.mp hnodup store
  rw [grantedIn, hamounts]
  rcases Nat.le_one_iff_eq_zero_or_eq_one.mp hcount with hzero | hone
  · rw [hzero]
    exact hvalue
  · rw [hone]
    simp

end Ledger

/-- A copy of the key as it is in the table, up to its mark. -/
def Key.Offers (copy key : Key) : Prop :=
  copy.id = key.id ∧ copy.days = key.days ∧ copy.kind = key.kind ∧
    copy.trafficBytes = key.trafficBytes

theorem Key.Offers.value_eq {key : Key} (h : copy.Offers key) : copy.value = key.value := by
  obtain ⟨-, hdays, hkind, hbytes⟩ := h
  rw [Key.value, Key.value, hdays, hkind, hbytes]

/-- Where the value has been granted when a request has come this far. -/
def Stage.Pending (key : Key) (stores : List Store) : Stage → Prop
  | .loaded copy _ | .creating copy | .ready copy _ => copy.Offers key ∧ stores = []
  | .created copy _ => copy.Offers key ∧ stores = if copy.kind = .lite then [.table] else []
  | .extending copy _ _ => copy.Offers key ∧ copy.kind = .standard ∧ stores = []
  | .extended copy _ _ => copy.Offers key ∧ copy.kind = .standard ∧ stores = [.cache]
  | .topped copy _ _ => copy.Offers key ∧ copy.kind = .lite ∧ stores = [.table]
  | .restoring copy _ => copy.Offers key ∧ stores = [.cache, .table]
  | .marking copy _ => copy.Offers key ∧ stores ≠ []
  | .start | .done _ => False

/-- No request is in flight: the key is marked if and only if it was granted. -/
def InOrder (key : Key) (s : Booked) : Prop :=
  ∃ marked stores, s.world.db.KeyStored key marked ∧ Paid key stores s.grants ∧ stores.Nodup ∧
    (marked = true ↔ stores ≠ [])

/-- A request is in flight: the key is not marked, and granted as far as the request
has come. -/
def InFlight (key : Key) (request : Activation) (s : Booked) : Prop :=
  ∃ stores, s.world.db.KeyStored key false ∧ Paid key stores s.grants ∧ stores.Nodup ∧
    request.2.Pending key stores

/-- What a turn has to lead to. -/
def Leads (key : Key) (grants : List Grant) (r : World × Stage × List Grant) : Prop :=
  (∃ reply, r.2.1 = .done reply ∧ InOrder key ⟨r.1, grants ++ r.2.2⟩) ∨
    ∃ stores, r.1.db.KeyStored key false ∧ Paid key stores (grants ++ r.2.2) ∧ stores.Nodup ∧
      r.2.1.Pending key stores

section Turns

variable {key : Key} {service : KeyService} {now : DateTime} {req : ActivateKeyReq} {w : World}
  {grants : List Grant}

theorem leads_refused {w' : World} {reply : Reply} (hkey : w'.db.KeyStored key false)
    (hpaid : Paid key [] grants) : Leads key grants (w', .done reply, []) :=
  .inl ⟨reply, rfl, false, [], hkey, by simpa using hpaid, .nil, by simp⟩

theorem leads_start (hcode : req.code = key.code) (h : InOrder key ⟨w, grants⟩) :
    Leads key grants (service.activate now req .start w) := by
  obtain ⟨marked, stores, hkey, hpaid, hnodup, hiff⟩ := h
  cases hread : w.dbRead (Db.getKey req.code) with
  | mk w' result =>
    have hkey' : w'.db.KeyStored key marked := by
      have hdb : w'.db = w.db := by rw [← dbRead_db (Db.getKey req.code) w, hread]
      rwa [hdb]
    have hdone : ∀ reply, Leads key grants (w', .done reply, []) := fun reply =>
      .inl ⟨reply, rfl, marked, stores, hkey', by simpa using hpaid, hnodup, hiff⟩
    simp only [KeyService.activate, hread]
    cases result with
    | error e => exact hdone _
    | ok found =>
      obtain ⟨row, hrow, hmarked, hoffers⟩ := hkey.getKey
      have hfound : found = some row := by
        rw [World.dbRead_ok (congrArg Prod.snd hread), hcode, hrow]
      subst hfound
      simp only [KeyService.afterKey]
      split
      · exact hdone _
      · rename_i hunmarked
        split
        · exact hdone _
        · -- The key is not marked, so nothing was granted so far.
          obtain rfl : marked = false := by simpa [hmarked] using hunmarked
          obtain rfl : stores = [] := by simpa using hiff
          split <;> exact .inr ⟨[], hkey', by simpa using hpaid, .nil, hoffers, rfl⟩

theorem keyStored_dbCall {α : Type*} {f : Db → Except SyncError (Db × α)} {marked : Bool}
    (h : w.db.KeyStored key marked)
    (hf : ∀ db a, f w.db = .ok (db, a) → db.keys = w.db.keys) :
    (w.dbCall f).1.db.KeyStored key marked :=
  h.congr (World.dbCall_rel (R := fun db db' => db'.keys = db.keys) rfl hf)

theorem leads_loaded {existing : Uuid} (hkey : w.db.KeyStored key false)
    (hpaid : Paid key [] grants) (hoffers : copy.Offers key) :
    Leads key grants (service.activate now req (.loaded copy existing) w) := by
  cases hread : w.dbRead (Db.findSubscription existing) with
  | mk w' result =>
    have hkey' : w'.db.KeyStored key false := by
      have hdb : w'.db = w.db := by rw [← dbRead_db (Db.findSubscription existing) w, hread]
      rwa [hdb]
    simp only [KeyService.activate, hread]
    cases result with
    | error e => exact leads_refused hkey' hpaid
    | ok found =>
      have hready : Leads key grants (w', .ready copy existing, []) :=
        .inr ⟨[], hkey', by simpa using hpaid, .nil, hoffers, rfl⟩
      simp only [KeyService.checkProduct]
      split
      · split
        · exact leads_refused hkey' hpaid
        · exact hready
      · exact hready

theorem leads_creating (hkey : w.db.KeyStored key false) (hpaid : Paid key [] grants)
    (hoffers : copy.Offers key) :
    Leads key grants (service.activate now req (.creating copy) w) := by
  have hkey' := keyStored_dbCall (f := Db.createSubscription (req.newSubscription copy now) now)
    hkey fun _ _ h => (Db.createSubscription_only h).keys
  simp only [KeyService.activate]
  cases hcall : w.dbCall (Db.createSubscription (req.newSubscription copy now) now) with
  | mk w' result =>
    rw [hcall] at hkey'
    cases result with
    | error e => exact leads_refused hkey' hpaid
    | ok _ =>
      refine .inr ⟨if copy.kind = .lite then [.table] else [], hkey', ?_, ?_, hoffers, rfl⟩
      · split
        · rename_i hlite
          exact hpaid.append (.single (by rw [← hoffers.value_eq, Key.value, hlite]))
        · simpa using hpaid
      · split <;> simp

theorem leads_created {sub : Subscription} (hkey : w.db.KeyStored key false)
    (hpaid : Paid key stores grants) (hoffers : copy.Offers key)
    (hstores : stores = if copy.kind = .lite then [.table] else []) :
    Leads key grants (service.activate now req (.created copy sub) w) := by
  simp only [KeyService.activate]
  cases hkind : copy.kind with
  | lite =>
    rw [if_pos hkind] at hstores
    subst hstores
    refine .inr ⟨[.table, .cache], hkey, hpaid.append (.single ?_), by decide, hoffers, by simp⟩
    rw [← hoffers.value_eq, Key.value, hkind]
  | standard =>
    rw [if_neg (by simp [hkind])] at hstores
    subst hstores
    exact .inr ⟨[], hkey, by simpa using hpaid, .nil, hoffers, rfl⟩

theorem leads_ready (hkey : w.db.KeyStored key false) (hpaid : Paid key [] grants)
    (hoffers : copy.Offers key) :
    Leads key grants (service.activate now req (.ready copy subId) w) := by
  simp only [KeyService.activate]
  cases hkind : copy.kind with
  | standard => exact .inr ⟨[], hkey, by simpa using hpaid, .nil, hoffers, hkind, rfl⟩
  | lite =>
    have hkey' := keyStored_dbCall
      (f := Db.addLimitBytes subId copy.id (copy.trafficBytes.getD 0) now) hkey
      fun _ _ h => (Db.addLimitBytes_only h).keys
    cases hcall : w.dbCall (Db.addLimitBytes subId copy.id (copy.trafficBytes.getD 0) now) with
    | mk w' result =>
      rw [hcall] at hkey'
      cases result with
      | error e => exact leads_refused hkey' hpaid
      | ok newLimit =>
        cases newLimit with
        | none => exact leads_refused hkey' hpaid
        | some limit =>
          refine .inr ⟨[.table], hkey', hpaid.append (.single ?_), by decide, hoffers,
            hkind, rfl⟩
          rw [← hoffers.value_eq, Key.value, hkind]

theorem leads_extending {wasInactive : Bool} (hkey : w.db.KeyStored key false)
    (hpaid : Paid key [] grants) (hoffers : copy.Offers key) (hkind : copy.kind = .standard) :
    Leads key grants (service.activate now req (.extending copy subId wasInactive) w) := by
  simp only [KeyService.activate]
  split
  · exact leads_refused hkey hpaid
  · refine .inr ⟨[.cache], hkey, hpaid.append (.single ?_), by decide, hoffers, hkind, rfl⟩
    rw [← hoffers.value_eq, Key.value, hkind]

theorem addDays_ok (days : ℤ) (now : DateTime) (hdb : w.dbFails w.calls = false)
    (hrow : (w.db.subscriptions.lookup subId).isSome = true) :
    ∃ row, (w.dbCall (Db.addDays subId days now)).2 = .ok row := by
  obtain ⟨row, hrow⟩ := Option.isSome_iff_exists.mp hrow
  simp [World.dbCall, hdb, Db.addDays, Db.updateSubscriptionRow, hrow]

theorem leads_extended {wasInactive : Bool} (hkey : w.db.KeyStored key false)
    (hpaid : Paid key [.cache] grants) (hoffers : copy.Offers key) (hkind : copy.kind = .standard)
    (hdb : w.dbFails w.calls = false) (hrow : (w.db.subscriptions.lookup subId).isSome = true) :
    Leads key grants (service.activate now req (.extended copy subId wasInactive) w) := by
  have hkey' := keyStored_dbCall (f := Db.addDays subId copy.days now) hkey
    fun _ _ h => (Db.updateSubscriptionRow_only h).keys
  obtain ⟨row, hok⟩ := addDays_ok copy.days now hdb hrow
  simp only [KeyService.activate]
  cases hcall : w.dbCall (Db.addDays subId copy.days now) with
  | mk w' result =>
    rw [hcall] at hkey' hok
    cases hok
    have hpaid' : Paid key [.cache, .table] (grants ++ [⟨.table, subId, copy.days⟩]) :=
      hpaid.append (.single (by rw [← hoffers.value_eq, Key.value, hkind]))
    refine .inr ⟨[.cache, .table], hkey', hpaid', by decide, ?_⟩
    cases wasInactive with
    | true => exact ⟨hoffers, rfl⟩
    | false => exact ⟨hoffers, by simp⟩

theorem leads_topped {limit : ℤ} (hkey : w.db.KeyStored key false)
    (hpaid : Paid key [.table] grants) (hoffers : copy.Offers key) (hkind : copy.kind = .lite) :
    Leads key grants (service.activate now req (.topped copy subId limit) w) := by
  simp only [KeyService.activate]
  split
  · refine .inr ⟨[.table, .cache], hkey, hpaid.append (.single ?_), by decide, hoffers, by simp⟩
    rw [← hoffers.value_eq, Key.value, hkind]
  · exact .inr ⟨[.table], hkey, by simpa using hpaid, by decide, hoffers, by simp⟩

theorem leads_restoring (hkey : w.db.KeyStored key false)
    (hpaid : Paid key [.cache, .table] grants) (hoffers : copy.Offers key) :
    Leads key grants (service.activate now req (.restoring copy subId) w) := by
  have honly := World.OnlyConnections.restoreConnectionsBySubscription subId none now w
  have hkeys : (w.restoreConnectionsBySubscription subId none now).1.db.keys = w.db.keys := by
    rw [honly.db]
  refine .inr ⟨[.cache, .table], hkey.congr hkeys, ?_, by decide, hoffers, by simp⟩
  simpa [KeyService.activate] using hpaid

theorem leads_marking (hkey : w.db.KeyStored key false) (hpaid : Paid key stores grants)
    (hnodup : stores.Nodup) (hoffers : copy.Offers key) (hstores : stores ≠ [])
    (hdb : w.dbFails w.calls = false) :
    Leads key grants (service.activate now req (.marking copy subId) w) := by
  have hmark : w.dbExec (Db.activateKey copy.id subId now) =
      ({ w.tick with db := w.db.activateKey copy.id subId now }, .ok ()) := by
    simp [World.dbExec, World.dbCall, hdb]
  simp only [KeyService.activate, hmark]
  refine .inl ⟨_, rfl, true, stores, ?_, by simpa using hpaid, hnodup, by simpa using hstores⟩
  rw [hoffers.1]
  exact hkey.activateKey subId now

end Turns

section Runs

variable {key : Key}

theorem Stage.Pending.phase_eq {stage : Stage} (h : stage.Pending key stores)
    (req : ActivateKeyReq) : Activation.phase (req, stage) = .active := by
  cases stage <;> first | rfl | exact h.elim

/-- What a turn leads to, in the terms of the pool. -/
theorem outcome_of_leads {service : KeyService} {now : DateTime} {request : Activation} {s : Booked}
    (h : Leads key s.grants (service.activate now request.1 request.2 s.world)) :
    (service.advance now request s).2.phase ≠ .active ∧
        InOrder key (service.advance now request s).1 ∨
      (service.advance now request s).2.phase = .active ∧
        InFlight key (service.advance now request s).2 (service.advance now request s).1 := by
  rcases h with ⟨reply, hdone, horder⟩ | ⟨stores, hkey, hpaid, hnodup, hpending⟩
  · refine .inl ⟨?_, horder⟩
    simp [KeyService.advance, Activation.phase, hdone]
  · exact .inr ⟨hpending.phase_eq request.1, stores, hkey, hpaid, hnodup, hpending⟩

/-- One request alone, with calls that do not fail once the value is being granted,
leaves the key in order. -/
theorem activation_protocol (service : KeyService) (key : Key) :
    Protocol service.advance Activation.phase Activation.unfailing
      (fun request => request.1.code = key.code) (InOrder key) (InFlight key) where
  good _ _ _ h := h
  start now request s hcode hphase horder := by
    obtain ⟨req, stage⟩ := request
    cases stage with
    | start => exact outcome_of_leads (leads_start hcode horder)
    | _ => cases hphase
  go now request s _ hphase hflight hallowed := by
    obtain ⟨req, stage⟩ := request
    obtain ⟨stores, hkey, hpaid, hnodup, hpending⟩ := hflight
    refine outcome_of_leads ?_
    cases stage with
    | start => cases hphase
    | done reply => cases hphase
    | loaded copy existing =>
      obtain ⟨hoffers, rfl⟩ := hpending
      exact leads_loaded hkey hpaid hoffers
    | creating copy =>
      obtain ⟨hoffers, rfl⟩ := hpending
      exact leads_creating hkey hpaid hoffers
    | created copy sub =>
      obtain ⟨hoffers, hstores⟩ := hpending
      exact leads_created hkey hpaid hoffers hstores
    | ready copy subId =>
      obtain ⟨hoffers, rfl⟩ := hpending
      exact leads_ready hkey hpaid hoffers
    | extending copy subId wasInactive =>
      obtain ⟨hoffers, hkind, rfl⟩ := hpending
      exact leads_extending hkey hpaid hoffers hkind
    | extended copy subId wasInactive =>
      obtain ⟨hoffers, hkind, rfl⟩ := hpending
      have hallowed' : s.world.dbFails s.world.calls = false ∧
          (s.world.db.subscriptions.lookup subId).isSome = true := by
        simpa [Activation.unfailing] using hallowed
      exact leads_extended hkey hpaid hoffers hkind hallowed'.1 hallowed'.2
    | topped copy subId limit =>
      obtain ⟨hoffers, hkind, rfl⟩ := hpending
      exact leads_topped hkey hpaid hoffers hkind
    | restoring copy subId =>
      obtain ⟨hoffers, rfl⟩ := hpending
      exact leads_restoring hkey hpaid hoffers
    | marking copy subId =>
      obtain ⟨hoffers, hstores⟩ := hpending
      exact leads_marking hkey hpaid hnodup hoffers hstores
        (by simpa [Activation.unfailing] using hallowed)
  finished now request s hphase := by
    obtain ⟨req, stage⟩ := request
    cases stage with
    | done reply => simp [KeyService.advance, KeyService.activate]
    | _ => cases hphase

theorem keyHonoured_of_exclusive {p : Pool Booked Activation} (hvalue : 0 ≤ key.value)
    (h : Protocol.Exclusive Activation.phase (fun request => request.1.code = key.code)
      (InOrder key) (InFlight key) p) : KeyHonoured key p := by
  rcases h.shared with ⟨-, marked, stores, hkey, hpaid, hnodup, hiff⟩ |
    ⟨i, request, hrequest, hactive, ⟨stores, -, hpaid, hnodup, -⟩, -⟩
  · refine ⟨hpaid.grantedIn_le hnodup hvalue, fun _ => ?_⟩
    obtain ⟨row, hrow, hmarked, -⟩ := hkey.row
    rw [hrow, Option.any_some, hmarked, hiff, ne_eq, ne_eq, hpaid.eq_nil_iff]
  · refine ⟨hpaid.grantedIn_le hnodup hvalue, fun hnone => ?_⟩
    exact absurd hactive (Pool.noneActive_iff.mp hnone i request hrequest)

/-- Requests that start one after the other, and whose calls do not fail once the
value is being granted, honour the key in every state. -/
theorem key_honoured (service : KeyService) {key : Key} {p : Pool Booked Activation}
    {turns : List (ℕ × DateTime)} (hvalue : 0 ≤ key.value) (horder : InOrder key p.shared)
    (hrequests : ∀ request ∈ p.threads, request.1.code = key.code ∧ request.2 = .start)
    (horderly : Run.Along (Pool.step service.advance)
      (fun p turn => p.orderly Activation.phase Activation.unfailing turn = true) p turns) :
    ∀ p' ∈ turns.scanl (Pool.step service.advance) p, KeyHonoured key p' := by
  intro p' hp'
  refine keyHonoured_of_exclusive hvalue ?_
  have hstart : Protocol.Exclusive Activation.phase (fun request => request.1.code = key.code)
      (InOrder key) (InFlight key) p := by
    refine ⟨fun i request h => (hrequests request (List.mem_of_getElem? h)).1,
      .inl ⟨fun i request h => ?_, horder⟩⟩
    rw [Activation.phase, (hrequests request (List.mem_of_getElem? h)).2]
    decide
  exact Run.invariant_scanl
    (fun p turn hp hturn => (activation_protocol service key).exclusive_step hp hturn)
    hstart horderly p' hp'

def monthKey : Key where
  id := 7
  code := "KEY"
  days := 30
  activated := false
  subscriptionId := none
  modifiedAt := 0
  kind := .standard
  trafficBytes := none
  product := .standard

/-- The key and an active subscription, and two requests to activate the key for it. -/
def twoRequests (dbFails : ℕ → Bool) : Pool Booked Activation :=
  let w := ((World.init dbFails fun _ => false).addSub (Subscription.new 1 "" none none 0) 0).1
  let request : ActivateKeyReq := ⟨"KEY", some 1, none, 2⟩
  { shared := ⟨{ w with db := { w.db with keys := AList.insert 7 monthKey ∅ } }, []⟩
    threads := [(request, .start), (request, .start)] }

def plainService : KeyService := ⟨⟨none, none, ∅⟩, fun _ => "database error"⟩

theorem inOrder_twoRequests (dbFails : ℕ → Bool) :
    InOrder monthKey (twoRequests dbFails).shared := by
  refine ⟨false, [], ⟨⟨monthKey, AList.lookup_insert _, rfl, rfl, rfl, rfl, rfl, rfl⟩, ?_⟩,
    .nil _, .nil, by simp⟩
  intro id row hrow _
  have hlookup : (AList.insert 7 monthKey ∅ : Table Uuid Key).lookup id = some row := hrow
  exact (AList.eq_of_lookup_single hlookup).1

/-- One request after the other: the second is refused. -/
theorem key_honoured_in_turn :
    InOrder monthKey (twoRequests fun _ => false).shared ∧
      ∀ p ∈ [(0, 0), (0, 0), (0, 0), (0, 0), (0, 0), (0, 0), (1, 1)].scanl
        (Pool.step plainService.advance) (twoRequests fun _ => false), KeyHonoured monthKey p :=
  ⟨inOrder_twoRequests _, key_honoured plainService (by decide) (inOrder_twoRequests _)
    (by simp [twoRequests, monthKey]) (by decide +kernel)⟩

/-- Both requests read the key before either has marked it: the subscription gets the
30 days twice. And a request whose last call fails leaves the days granted and the key
unmarked. -/
theorem not_key_honoured_interleaved :
    InOrder monthKey (twoRequests fun _ => false).shared ∧
      (¬ ∀ p ∈ [(0, 0), (1, 0), (0, 0), (0, 0), (0, 0), (0, 0), (0, 0), (1, 0), (1, 0), (1, 0),
          (1, 0), (1, 0)].scanl (Pool.step plainService.advance) (twoRequests fun _ => false),
        KeyHonoured monthKey p) ∧
      ¬ ∀ p ∈ [(0, 0), (0, 0), (0, 0), (0, 0), (0, 0), (0, 0)].scanl
          (Pool.step plainService.advance) (twoRequests fun n => decide (n = 4)),
        KeyHonoured monthKey p := by
  refine ⟨inOrder_twoRequests _, fun h => ?_, fun h => ?_⟩
  · have hlast := h _ (List.mem_of_getLast? rfl)
    exact absurd (hlast.1 .table) (by decide +kernel)
  · have hlast := h _ (List.mem_of_getLast? rfl)
    exact absurd (hlast.2 (by decide +kernel)) (by decide +kernel)

end Runs

end Fcore
