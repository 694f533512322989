import Fcore.Handlers.Key
import Fcore.Memory.Code

/-!
# Validating a key

Validation and activation look a key up by the text of the request as it stands: the query of a
validation names a `Code`, but its derived deserialisation takes over the text, and the parser
that maps it to upper case has no part in it. The two differ in that validation first checks the
code against the secret, and an activation does not.
-/

namespace Fcore

/-- The key of the query, deserialised. -/
structure KeyQueryParams where
  key : Code
  deriving DecidableEq, Repr

def KeyQueryParams.deserialize (key : String) : KeyQueryParams := ⟨⟨key⟩⟩

namespace KeyService

/-- The answer with the key it carries. -/
def getKeyValidateHandler (b : CodeBackend) (secret : List UInt8) (params : KeyQueryParams)
    (w : World) : World × Reply × Option Key :=
  match Code.validatePayload b secret params.key with
  | .error _ => (w, .badRequest "Key is not valid", none)
  | .ok _ =>
    match w.dbRead (Db.getKey params.key.text) with
    | (w, .ok (some key)) =>
      if key.activated then (w, .success "Key is valid and already activated", some key)
      else (w, .success "Key is valid", some key)
    | (w, .ok none) => (w, .notFound "Key is not found", none)
    | (w, .error _) => (w, .notFound "Key is not found", none)

def ValidateFinds (b : CodeBackend) (secret : List UInt8) (code : String) (w : World) : Prop :=
  (getKeyValidateHandler b secret (.deserialize code) w).2.2.isSome = true

def ActivateFinds (service : KeyService) (now : DateTime) (req : ActivateKeyReq) (w : World) :
    Prop :=
  (service.activate now req .start w).2.1 ≠ .done (.notFound "Key not found")

instance (b : CodeBackend) (secret : List UInt8) (code : String) (w : World) :
    Decidable (ValidateFinds b secret code w) :=
  inferInstanceAs (Decidable (_ = true))

instance (service : KeyService) (now : DateTime) (req : ActivateKeyReq) (w : World) :
    Decidable (ActivateFinds service now req w) :=
  inferInstanceAs (Decidable (_ ≠ _))

variable {b : CodeBackend} {secret : List UInt8} {service : KeyService} {now : DateTime}
  {req : ActivateKeyReq} {w : World}

/-- The key that the table has for a text, if the read succeeds. -/
def keyRead (code : String) (w : World) : Option Key :=
  (w.dbRead (Db.getKey code)).2.toOption.join

theorem afterKey_ne_notFound (key : Key) :
    service.afterKey req (some key) ≠ .done (.notFound "Key not found") := by
  simp only [afterKey]
  split
  · simp [Reply.badRequest, Reply.notFound]
  · split
    · simp [Reply.internalError, Reply.notFound]
    · split <;> simp

theorem activateFinds_iff :
    ActivateFinds service now req w ↔ (keyRead req.code w).isSome = true := by
  rw [ActivateFinds, activate, keyRead]
  rcases w.dbRead (Db.getKey req.code) with ⟨w', _ | (_ | key)⟩
  · exact iff_of_false (fun h => h rfl) Bool.false_ne_true
  · exact iff_of_false (fun h => h rfl) Bool.false_ne_true
  · exact iff_of_true (afterKey_ne_notFound key) rfl

theorem validateFinds_iff {code : String} :
    ValidateFinds b secret code w ↔
      (∃ payload, Code.validatePayload b secret ⟨code⟩ = .ok payload) ∧
        (keyRead code w).isSome = true := by
  rw [ValidateFinds, getKeyValidateHandler, KeyQueryParams.deserialize, keyRead]
  cases Code.validatePayload b secret ⟨code⟩ with
  | error e => simp
  | ok payload =>
    rcases w.dbRead (Db.getKey code) with ⟨w', _ | (_ | key)⟩
    · simp [Except.toOption]
    · simp [Except.toOption]
    · cases hactivated : key.activated <;> simp [Except.toOption, hactivated]

/-- A spelling that the secret bears out is found by both or by neither; such is every spelling
of a code made with the secret. Without that, validation finds no key. -/
theorem validateFinds_iff_activateFinds (b : CodeBackend) (secret : List UInt8)
    (service : KeyService) (now : DateTime) (req : ActivateKeyReq) (w : World) :
    (ValidateFinds b secret req.code w ↔
      (∃ payload, Code.validatePayload b secret ⟨req.code⟩ = .ok payload) ∧
        ActivateFinds service now req w) ∧
      ∀ code random distributor, ((∃ days, code = Code.new b random days distributor secret) ∨
        ∃ trafficGib, code = Code.newLite b random trafficGib distributor secret) →
        Code.Respelled code.text req.code →
        (ValidateFinds b secret req.code w ↔ ActivateFinds service now req w) := by
  have hboth : ValidateFinds b secret req.code w ↔
      (∃ payload, Code.validatePayload b secret ⟨req.code⟩ = .ok payload) ∧
        ActivateFinds service now req w := by
    rw [validateFinds_iff, activateFinds_iff]
  refine ⟨hboth, ?_⟩
  intro code random distributor hcode htyped
  rw [hboth, and_iff_right]
  obtain ⟨days, rfl⟩ | ⟨trafficGib, rfl⟩ := hcode
  · exact ⟨_, (Code.reads_new htyped).typed⟩
  · exact ⟨_, (Code.reads_newLite htyped).typed⟩

/-- A world with the key of a code. -/
def keyWorld (code : String) : World :=
  let w := World.init (fun _ => false) fun _ => false
  let key : Key := ⟨7, code, 10, false, none, 0, .standard, none, .standard⟩
  { w with db := { w.db with keys := AList.insert 7 key ∅ } }

theorem validateFinds_iff_activateFinds_sample :
    Code.Respelled (Code.new .sample (Vector.replicate 6 7) 10 #v[84, 69, 83, 84] [1, 2]).text
        "a4dqobyha4-aauvcfknkho53x3e" ∧
      (ValidateFinds .sample [1, 2] "a4dqobyha4-aauvcfknkho53x3e"
          (keyWorld "A4DQO-BYHA4-AAUVC-FKNKH-O53X3-E") ↔
        ActivateFinds ⟨⟨none, none, ∅⟩, fun _ => ""⟩ 0
          ⟨"a4dqobyha4-aauvcfknkho53x3e", none, none, 1⟩
          (keyWorld "A4DQO-BYHA4-AAUVC-FKNKH-O53X3-E")) := by
  have htyped : Code.Respelled (Code.new .sample (Vector.replicate 6 7) 10 #v[84, 69, 83, 84]
      [1, 2]).text "a4dqobyha4-aauvcfknkho53x3e" := by decide +kernel
  exact ⟨htyped, (validateFinds_iff_activateFinds .sample [1, 2] _ 0
    ⟨"a4dqobyha4-aauvcfknkho53x3e", none, none, 1⟩ _).2 _ _ _ (.inl ⟨10, rfl⟩) htyped⟩

/-- A code made with another secret is activated, but not validated. -/
theorem not_validateFinds_of_activateFinds :
    Code.fromStr .sample "A4DQO-BYHA4-AAUVC-FKNKH-O53X3-E" =
        .ok ⟨"A4DQO-BYHA4-AAUVC-FKNKH-O53X3-E"⟩ ∧
      ¬ (ValidateFinds .sample [9] "A4DQO-BYHA4-AAUVC-FKNKH-O53X3-E"
          (keyWorld "A4DQO-BYHA4-AAUVC-FKNKH-O53X3-E") ↔
        ActivateFinds ⟨⟨none, none, ∅⟩, fun _ => ""⟩ 0
          ⟨"A4DQO-BYHA4-AAUVC-FKNKH-O53X3-E", none, none, 1⟩
          (keyWorld "A4DQO-BYHA4-AAUVC-FKNKH-O53X3-E")) := by
  decide +kernel

end KeyService

end Fcore
