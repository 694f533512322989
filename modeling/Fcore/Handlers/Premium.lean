import Fcore.Handlers.Connection
import Fcore.Handlers.Key
import Fcore.Lib.TimeRange

/-!
# Expiry dates that are computed from a request

Three endpoints compute an expiry from a number of days in their request: an update of a
subscription, an update of a premium child, and the creation of one. The number is any
64-bit integer; only the creation asks for a positive one. The date library aborts where a
duration or an instant is out of its range, and in the release profile an abort ends the
process, so a handler that does not return is `none` here. The ranges are a parameter. An
update that returns is `World.updateSub`.

Filling in missing connections, which follows an update, computes no dates and is left out.
-/

namespace Fcore

namespace Subscription

/-- `extend` within the ranges of the date library. -/
def extendIn (range : TimeRange) (sub : Subscription) (days : ℤ) (now : DateTime) :
    Option Subscription :=
  (range.addDays dayNanos (sub.extensionBase now) days).map fun expiresAt =>
    { sub with expiresAt := some expiresAt, updatedAt := now }

/-- The requested changes within the ranges. -/
def withReqIn (range : TimeRange) (sub : Subscription) (req : SubReq) (now : DateTime) :
    Option Subscription :=
  let extended := match req.days with
    | some days => sub.extendIn range days now
    | none => some sub
  extended.map fun sub => sub.withReq { req with days := none } now

variable {range : TimeRange} {sub : Subscription} {now : DateTime}

theorem withReqIn_isSome_iff {req : SubReq} : (sub.withReqIn range req now).isSome ↔
      ∀ days ∈ req.days, range.Fits dayNanos (sub.extensionBase now) days := by
  cases hdays : req.days with
  | none => simp [withReqIn, hdays]
  | some days =>
    simp [withReqIn, hdays, extendIn, TimeRange.addDays_isSome_iff]

theorem withReqIn_of_isSome {req : SubReq} (h : (sub.withReqIn range req now).isSome) :
    sub.withReqIn range req now = some (sub.withReq req now) := by
  have hfits := withReqIn_isSome_iff.mp h
  cases hdays : req.days with
  | none => simp [withReqIn, withReq, hdays]
  | some days =>
    have hadd := TimeRange.addDays_eq_some_iff.mpr ⟨hfits days hdays, rfl⟩
    simp [withReqIn, withReq, hdays, extendIn, extend, hadd]

end Subscription

namespace World

/-- `updateSub` within the ranges. -/
def updateSubIn (range : TimeRange) (subId : Uuid) (req : SubReq) (now : DateTime) (w : World) :
    Option (World × Except SyncError Status) :=
  match w.mem.subscriptions.lookup subId with
  | none => some (w, .ok (.notFound subId))
  | some sub =>
    (sub.withReqIn range req now).map fun updated => w.storeUpdated subId sub updated now

variable {range : TimeRange} {subId : Uuid} {req : SubReq} {now : DateTime} {w : World}

theorem updateSubIn_isSome_iff :
    (w.updateSubIn range subId req now).isSome ↔
      ∀ sub, w.mem.subscriptions.lookup subId = some sub → ∀ days ∈ req.days,
        range.Fits dayNanos (sub.extensionBase now) days := by
  unfold updateSubIn
  cases w.mem.subscriptions.lookup subId with
  | none => simp
  | some sub => simp [Subscription.withReqIn_isSome_iff]

theorem updateSubIn_of_isSome (h : (w.updateSubIn range subId req now).isSome) :
    w.updateSubIn range subId req now = some (w.updateSub subId req now) := by
  unfold updateSubIn updateSub at *
  cases hlookup : w.mem.subscriptions.lookup subId with
  | none => rfl
  | some sub =>
    simp only [hlookup, Option.isSome_map] at h
    simp only [Subscription.withReqIn_of_isSome h, Option.map_some]

end World

/-- What the handlers need besides the request: the ranges of the date library, and how
errors are put into words. -/
structure DateService where
  range : TimeRange
  describe : SyncError → String

structure PremiumChildCreateRequest where
  days : Option ℤ
  limitBytes : Option ℤ
  deriving DecidableEq, Repr

def PremiumChildCreateRequest.validate (req : PremiumChildCreateRequest) : Except String Unit :=
  match req.days with
  | some days => if 0 < days then .ok () else .error "days must be greater than 0"
  | none => .error "days is required"

structure PremiumChildUpdateRequest where
  days : Option ℤ
  limitBytes : Option ℤ
  deriving DecidableEq, Repr

/-- The reply that carries an identifier only. -/
def Reply.withId (status : ℕ) (id : Uuid) : Reply := ⟨status, id.toText⟩

namespace DateService

variable (service : DateService)

def putSubscriptionHandler (subId : Uuid) (req : SubReq) (now : DateTime) (w : World) :
    Option (World × Reply) :=
  (w.updateSubIn service.range subId req now).map fun r =>
    match r with
    | (w, .ok (.updated id)) =>
      (w, .success ("Subscription " ++ id.toText ++ " has been updated"))
    | (w, .ok (.notFound id)) => (w, .notFound ("Subscription " ++ id.toText ++ " is not found"))
    | (w, .error e) => (w, .internalError ("Internal error while processing subscription " ++
        subId.toText ++ ": " ++ service.describe e))
    | (w, .ok _) => (w, .notModified "")

/-- A rejection is an error. -/
def premiumUpdateChildHandler (parent : Subscription) (childId : Uuid)
    (req : PremiumChildUpdateRequest) (now : DateTime) (w : World) :
    Option (World × Except String Reply) :=
  match w.mem.subscriptions.lookup childId with
  | none => some (w, .error "Child not found")
  | some child =>
    match ensureChildOf parent child with
    | .error e => some (w, .error e)
    | .ok () =>
      (w.updateSubIn service.range childId ⟨req.days, none, req.limitBytes⟩ now).map fun r =>
        match r with
        | (w, .ok _) => (w, .ok (.withId 200 childId))
        | (w, .error e) => (w, .ok (.internalError (service.describe e)))

def childExpiry (req : PremiumChildCreateRequest) (now : DateTime) : Option (Option DateTime) :=
  match req.days with
  | none => some none
  | some days => (service.range.addDays dayNanos now days).map some

/-- `newId` is the identifier drawn for the child. -/
def premiumCreateChildHandler (parent : Subscription) (req : PremiumChildCreateRequest)
    (newId : Uuid) (now : DateTime) (w : World) : Option (World × Reply) :=
  match req.validate with
  | .error e => some (w, .badRequest e)
  | .ok () =>
    (service.childExpiry req now).map fun expiresAt =>
      let sub := { Subscription.new newId (getUuidLastOctetSimple newId) expiresAt
        req.limitBytes now with parentId := some parent.id }
      match w.addSub sub now with
      | (w, .ok _) => (w, .withId 201 newId)
      | (w, .error e) => (w, .internalError (service.describe e))

/-- Each of the three handlers returns exactly when the expiry it computes, if it gets as
far as that, is in the ranges of the date library: for an update that of the subscription
found, counted from the later of its expiry and now, and for a creation with a positive
number of days the one counted from now. -/
theorem handlers_return_iff (days : Int64) (now : DateTime) (w : World) :
    (∀ (subId : Uuid) (referCode : Option String) (limitBytes : Option ℤ),
      (service.putSubscriptionHandler subId ⟨some days.toInt, referCode, limitBytes⟩ now w).isSome ↔
        ∀ sub, w.mem.subscriptions.lookup subId = some sub →
          service.range.Fits dayNanos (sub.extensionBase now) days.toInt) ∧
    (∀ (parent : Subscription) (childId : Uuid) (limitBytes : Option ℤ),
      (service.premiumUpdateChildHandler parent childId ⟨some days.toInt, limitBytes⟩ now
          w).isSome ↔
        ∀ sub, w.mem.subscriptions.lookup childId = some sub → sub.parentId = some parent.id →
          service.range.Fits dayNanos (sub.extensionBase now) days.toInt) ∧
    ∀ (parent : Subscription) (limitBytes : Option ℤ) (newId : Uuid),
      (service.premiumCreateChildHandler parent ⟨some days.toInt, limitBytes⟩ newId now
          w).isSome ↔
        (0 < days.toInt → service.range.Fits dayNanos now days.toInt) := by
  refine ⟨fun subId referCode limitBytes => ?_, fun parent childId limitBytes => ?_,
    fun parent limitBytes newId => ?_⟩
  · simp [putSubscriptionHandler, World.updateSubIn_isSome_iff]
  · unfold premiumUpdateChildHandler
    cases hchild : w.mem.subscriptions.lookup childId with
    | none => simp
    | some child =>
      by_cases hparent : child.parentId = some parent.id
      · simp [ensureChildOf, hparent, World.updateSubIn_isSome_iff, hchild]
      · simp [ensureChildOf, hparent]
  · by_cases hpos : 0 < days.toInt
    · simp [premiumCreateChildHandler, PremiumChildCreateRequest.validate, hpos, childExpiry,
        TimeRange.addDays_isSome_iff]
    · simp [premiumCreateChildHandler, PremiumChildCreateRequest.validate, hpos]

def wideRange : TimeRange :=
  ⟨106751991167, -8334601228800 * 1000000000, 8210266876800 * 1000000000 - 1⟩

/-- A parent with one child, both without an expiry. -/
def parentWorld : World :=
  let w := World.init (fun _ => false) fun _ => false
  let parent := Subscription.new 1 "" none none 0
  w.writeMem fun mem => { mem with
    subscriptions := AList.insert 2 { Subscription.new 2 "" none none 0 with parentId := some 1 }
      (AList.singleton 1 parent) }

/-- The largest number of days a request can name, and already one of 300000 years, are
accepted by all three handlers, and none of them returns. -/
theorem not_handlers_return :
    let service : DateService := ⟨wideRange, fun _ => ""⟩
    let parent := Subscription.new 1 "" none none 0
    ∀ days ∈ [Int64.maxValue, 109500000],
      service.putSubscriptionHandler 1 ⟨some days.toInt, none, none⟩ 0 parentWorld = none ∧
      service.premiumUpdateChildHandler parent 2 ⟨some days.toInt, none⟩ 0 parentWorld = none ∧
      service.premiumCreateChildHandler parent ⟨some days.toInt, none⟩ 3 0 parentWorld = none := by
  simp only [← Option.isNone_iff_eq_none, List.forall_mem_cons]
  refine ⟨?_, ?_, List.forall_mem_nil _⟩
  · decide +kernel
  · decide +kernel

end DateService

end Fcore
