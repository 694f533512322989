import Fcore.Handlers.Amnezia.Services
import Fcore.Lib.Except
import Fcore.Postgres.Report

/-!
# Reports about blocked servers

A client reports that a server does not answer. Before the report is stored, the handler counts
the reports of the last ten minutes about the same target by the same subscription, and stores
nothing if there are any. What the request leaves out restricts nothing in this query. So for a
caller with a share token, who has no subscription, the reports of others count, and for a target
without an address and a host those about other targets.

What the handler does after the window is left out here.
-/

namespace Fcore

structure AttemptEntry where
  at_ : Option String := none
  address : Option String := none
  port : Option ℤ := none
  protocol : Option String := none
  outcome : Option String := none
  detail : Option String := none
  waitedMs : Option ℤ := none

structure TargetEntry where
  address : Option String
  port : Option ℤ

/-- What the libraries compute: identifiers, addresses and instants from their texts, the lists
of a JSON value, and the digest of bytes. -/
structure ReportBackend where
  parseUuid : String → Option Uuid
  parseAddr : String → Option IpAddr
  parseRfc3339 : String → Option DateTime
  targets : Json → Option (List TargetEntry)
  attempts : Json → Option (List AttemptEntry)
  sha256 : List UInt8 → Vector UInt8 32

def trimmed (s : String) (max : ℕ) : Option String :=
  let t := Text.trim s
  if t = "" ∨ max < t.length then none else some t

def optTrimmed (s : Option String) (max : ℕ) : Option String := s.bind (trimmed · max)

def authDataHasShareToken (authData : Json) : Bool :=
  ((authData.get "share_token").bind Json.asStr).isSome

def maxClockSkewSecs : ℤ := 300

def dedupWindowSecs : ℤ := 600

namespace ReportBackend

variable (b : ReportBackend)

def parseAddress (raw : Option String) : Except String (Option IpAddr) :=
  match raw.map Text.trim with
  | none | some "" => .ok none
  | some s => (okOr "invalid_address" (b.parseAddr s)).map some

def parseTime (now : DateTime) (raw : Option String) : Except String (Option DateTime) :=
  match raw with
  | none => .ok none
  | some s => do
      let t ← okOr "invalid_at" (b.parseRfc3339 s)
      if now + maxClockSkewSecs * 1000000000 < t then .error "at_in_future" else .ok (some t)

end ReportBackend

structure ReportTarget where
  host : Option String
  address : Option String
  protocol : String
  port : ℤ

structure BlockReport where
  authData : Json
  target : ReportTarget
  at_ : Option String

/-- The parameters of the query that come from the request. -/
structure WindowQuery where
  address : Option IpAddr
  host : Option String
  port : ℤ
  subscriptionId : Option Uuid
  deriving DecidableEq

namespace BlockReport

variable (b : ReportBackend) (ipAllowed : Bool) (subAllowed : Uuid → Bool) (now : DateTime)

/-- The handler up to the query. The answers of the two rate limiters are arguments. -/
def query (req : BlockReport) : Except Reply WindowQuery :=
  let subId := extractSubscriptionId b.parseUuid req.authData
  if !ipAllowed then .error (.tooManyRequests "too_many_requests")
  else if subId.isNone && !authDataHasShareToken req.authData then .error ⟨401, "unauthorized"⟩
  else if subId.any fun sub => !subAllowed sub then
    .error (.tooManyRequests "too_many_requests_subscription")
  else if req.target.port < 1 ∨ 65535 < req.target.port then .error (.badRequest "invalid_port")
  else do
    let _ ← okOr (.badRequest "invalid_protocol") (trimmed req.target.protocol 32)
    let address ← mapErr .badRequest (b.parseAddress req.target.address)
    let _ ← mapErr .badRequest (b.parseTime now req.at_)
    .ok ⟨address, optTrimmed req.target.host 255, req.target.port, subId⟩

end BlockReport

namespace WindowQuery

def count (q : WindowQuery) (observations : Table Uuid BlockObservation) (now : DateTime) : ℕ :=
  countRecent observations q.address q.host q.port q.subscriptionId dedupWindowSecs now

/-- An observation in the window, of the same target by the same subscription. -/
structure Same (q : WindowQuery) (now : DateTime) (row : BlockObservation) : Prop where
  recent : now - dedupWindowSecs * 1000000000 < row.createdAt
  port : row.port = q.port
  subscription : row.subscriptionId = q.subscriptionId
  target : if q.address.isSome then row.address = q.address else row.targetHost = q.host

variable {q : WindowQuery} {now : DateTime}

theorem count_pos_iff {observations : Table Uuid BlockObservation} :
    0 < q.count observations now ↔ ∃ e ∈ observations.entries,
      e.2.port = q.port ∧ (q.address.isSome → e.2.address = q.address) ∧
        (q.host.isSome → e.2.targetHost = q.host) ∧
        (q.subscriptionId.isSome → e.2.subscriptionId = q.subscriptionId) ∧
        now - dedupWindowSecs * 1000000000 < e.2.createdAt := by
  have himp : ∀ {α : Type} (x : Option α) (P : Prop), (x = none ∨ P) ↔ (x.isSome → P) := by
    intro α x P
    cases x <;> simp
  simp only [count, countRecent, List.countP_pos_iff, Bool.and_eq_true, Bool.or_eq_true,
    decide_eq_true_eq, Option.isNone_iff_eq_none, himp, and_assoc]

/-- The query is exact just when it is given a subscription, and an address or a host. -/
theorem exact_iff (q : WindowQuery) (now : DateTime) :
    (∀ observations, 0 < q.count observations now →
      ∃ e ∈ observations.entries, q.Same now e.2) ↔
      q.subscriptionId.isSome ∧ (q.address.isSome ∨ q.host.isSome) := by
  constructor
  · intro h
    -- a row that is counted is the only one of some table
    have hrow : ∀ sub host, (q.subscriptionId.isSome → sub = q.subscriptionId) →
        (q.host.isSome → host = q.host) → q.Same now ⟨sub, host, q.address, q.port, now⟩ := by
      intro sub host hsub hhost
      obtain ⟨e, he, hsame⟩ := h (AList.singleton 0 ⟨sub, host, q.address, q.port, now⟩)
        (count_pos_iff.mpr ⟨_, List.mem_singleton.mpr rfl, rfl, fun _ => rfl, hhost, hsub,
          by norm_num [dedupWindowSecs]⟩)
      cases List.mem_singleton.mp he
      exact hsame
    constructor
    · by_contra hnone
      have hsame := hrow (some 0) q.host (fun h => absurd h hnone) fun _ => rfl
      exact hnone (Option.isSome_of_mem hsame.subscription.symm)
    · by_contra hnone
      obtain ⟨haddress, hhost⟩ := not_or.mp hnone
      have hsame := (hrow q.subscriptionId (some "") (fun _ => rfl) fun h => absurd h hhost).target
      rw [if_neg haddress] at hsame
      exact hhost (Option.isSome_of_mem hsame.symm)
  · rintro ⟨hsub, htarget⟩ observations hpos
    obtain ⟨e, he, hport, haddress, hhost, hsame, hrecent⟩ := count_pos_iff.mp hpos
    refine ⟨e, he, hrecent, hport, hsame hsub, ?_⟩
    split
    · exact haddress ‹_›
    · exact hhost (htarget.resolve_left ‹_›)

end WindowQuery

/-- For a request that gets as far as the query, a count that is positive comes from an
observation of the same target by the same subscription, whatever the table holds, just when the
request has a subscription, and an address or a host. -/
theorem BlockReport.window_exact_iff (b : ReportBackend) (ipAllowed : Bool)
    (subAllowed : Uuid → Bool) (now dbNow : DateTime) (req : BlockReport) (q : WindowQuery)
    (hq : req.query b ipAllowed subAllowed now = .ok q) :
    (∀ observations, 0 < q.count observations dbNow →
      ∃ e ∈ observations.entries, q.Same dbNow e.2) ↔
      (extractSubscriptionId b.parseUuid req.authData).isSome ∧
        (q.address.isSome ∨ q.host.isSome) := by
  have hsub : q.subscriptionId = extractSubscriptionId b.parseUuid req.authData := by
    simp only [query] at hq
    split_ifs at hq
    obtain ⟨_, -, hq⟩ := exists_of_bind_ok hq
    obtain ⟨_, -, hq⟩ := exists_of_bind_ok hq
    obtain ⟨_, -, hq⟩ := exists_of_bind_ok hq
    cases hq
    rfl
  rw [q.exact_iff, hsub]

/-- Identifiers are numbers, every address is read as 0.0.0.1, and nothing else is read. -/
def digitBackend : ReportBackend where
  parseUuid s := (Text.parseNat s).map (BitVec.ofNat 128)
  parseAddr _ := some (.v4 1)
  parseRfc3339 _ := none
  targets _ := none
  attempts _ := none
  sha256 _ := Vector.replicate 32 0

def reportFrom (authData : Json) : BlockReport :=
  ⟨authData, ⟨some "de1", some "10.0.0.1", "vless", 443⟩, none⟩

/-- Subscription 1 has just reported port 443 of an address. -/
def oneObservation : Table Uuid BlockObservation :=
  AList.singleton 0 ⟨some 1, some "de1", some (.v4 1), 443, 0⟩

theorem BlockReport.window_exact_own :
    (reportFrom (.ofFields [("id", .str "1")])).query digitBackend true (fun _ => true) 0 =
        .ok ⟨some (.v4 1), some "de1", 443, some 1⟩ ∧
      ∃ e ∈ oneObservation.entries,
        WindowQuery.Same ⟨some (.v4 1), some "de1", 443, some 1⟩ 0 e.2 := by
  have hq : (reportFrom (.ofFields [("id", .str "1")])).query digitBackend true (fun _ => true) 0 =
      .ok ⟨some (.v4 1), some "de1", 443, some 1⟩ := by
    decide
  exact ⟨hq, (window_exact_iff digitBackend true (fun _ => true) 0 0 _ _ hq).mpr (by decide)
    oneObservation (by decide)⟩

/-- The same report by a caller with a share token is not stored, although no one without a
subscription has reported anything. -/
theorem BlockReport.not_window_exact_shared :
    (reportFrom (.ofFields [("share_token", .str "t")])).query digitBackend true
        (fun _ => true) 0 = .ok ⟨some (.v4 1), some "de1", 443, none⟩ ∧
      0 < WindowQuery.count ⟨some (.v4 1), some "de1", 443, none⟩ oneObservation 0 ∧
      ∀ e ∈ oneObservation.entries, e.2.subscriptionId = some 1 := by
  decide

end Fcore
