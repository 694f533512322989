import Mathlib.Algebra.GroupWithZero.Nat
import Mathlib.Tactic.Tauto
import Fcore.Mesh.Identity

/-!
# Sending through the mesh store

A send stores its envelopes one after the other, each behind its own checks, and no
transaction holds them together. `Sending.stored` says from the request and the table
before the call which envelopes get their slot: those in front of the first that is
not admitted. From this follow the two results of the module.

* A send that fails leaves the table as it was exactly when its first envelope is
  already refused, or when nothing is refused and nothing fails.
* A request is not remembered. It may be submitted again while its timestamp is
  accepted, and every submission stores at most one slot per envelope.
-/

namespace Fcore

namespace Mesh

namespace Sending

variable (fails : SendStmt → Option String) (sending : Sending) (table : RowTable Slot)

def slots (envelopes : List Envelope) : List Slot :=
  envelopes.filterMap fun env =>
    (normalizePubkey env.devicePubkey).toOption.map fun pk => sending.slot pk env

/-- Whether an envelope is stored once those before it are: its key is a device of the
recipient, it is not empty, its two statements do not fail, and the device has room for
it behind the slots that wait in the table and those stored before. -/
def admits (before : List Envelope) (env : Envelope) : Bool :=
  match normalizePubkey env.devicePubkey with
  | .error _ => false
  | .ok pk =>
    !env.ciphertext.isEmpty && sending.targetKeys.contains pk &&
      (fails (.pending before.length)).isNone && (fails (.insert before.length)).isNone &&
      decide (table.count (Slot.isPending sending.toUin pk sending.now) +
        (sending.slots before).countP (Slot.isPending sending.toUin pk sending.now) < maxSlots)

def stored : List Envelope → List Envelope → List Envelope
  | _, [] => []
  | before, env :: envelopes =>
    if sending.admits fails table before env then env :: stored (before ++ [env]) envelopes
    else []

variable {fails sending table}

variable {env : Envelope}

theorem admits_iff {before : List Envelope} :
    sending.admits fails table before env = true ↔
      ∃ pk, normalizePubkey env.devicePubkey = .ok pk ∧ env.ciphertext.isEmpty = false ∧
        pk ∈ sending.targetKeys ∧ fails (.pending before.length) = none ∧
        (table.insertAll (sending.slots before)).count
          (Slot.isPending sending.toUin pk sending.now) < maxSlots ∧
        fails (.insert before.length) = none := by
  unfold admits
  cases normalizePubkey env.devicePubkey with
  | error e => simp
  | ok pk =>
    simp only [RowTable.count_insertAll, Except.ok.injEq, exists_eq_left']
    simp only [Bool.and_eq_true, Bool.not_eq_true', Option.isNone_iff_eq_none, decide_eq_true_eq,
      List.contains_iff_mem]
    tauto

theorem slots_cons {pk : String} (h : normalizePubkey env.devicePubkey = .ok pk)
    (envelopes : List Envelope) :
    sending.slots (env :: envelopes) = sending.slot pk env :: sending.slots envelopes := by
  simp [slots, h, Except.toOption]

theorem slots_concat {pk : String} (h : normalizePubkey env.devicePubkey = .ok pk)
    (envelopes : List Envelope) :
    sending.slots (envelopes ++ [env]) = sending.slots envelopes ++ [sending.slot pk env] := by
  simp [slots, h, Except.toOption]

variable (fails sending table)

theorem stored_prefix (before envelopes : List Envelope) :
    sending.stored fails table before envelopes <+: envelopes := by
  induction envelopes generalizing before with
  | nil => exact List.prefix_refl []
  | cons env envelopes ih =>
    rw [stored]
    split
    · exact List.cons_prefix_cons.mpr ⟨rfl, ih _⟩
    · exact List.nil_prefix

theorem ciphertexts_slots_stored (before envelopes : List Envelope) :
    (sending.slots (sending.stored fails table before envelopes)).map Slot.ciphertext =
      (sending.stored fails table before envelopes).map Envelope.ciphertext := by
  induction envelopes generalizing before with
  | nil => rfl
  | cons env envelopes ih =>
    rw [stored]
    split
    · rename_i hadmits
      obtain ⟨pk, hpk, -⟩ := admits_iff.mp hadmits
      rw [slots_cons hpk, List.map_cons, ih]
      rfl
    · rfl

theorem slots_stored_eq_nil_iff (before envelopes : List Envelope) :
    sending.slots (sending.stored fails table before envelopes) = [] ↔
      sending.stored fails table before envelopes = [] := by
  rw [← List.map_eq_nil_iff (f := Slot.ciphertext), ciphertexts_slots_stored, List.map_eq_nil_iff]

end Sending

section Loop

variable {fails : SendStmt → Option String} {sending : Sending} {table : RowTable Slot}

theorem storeEnvelope_of_admits {before : List Envelope} {env : Envelope}
    (h : sending.admits fails table before env = true) :
    ∃ pk, storeEnvelope (fails (.pending before.length)) (fails (.insert before.length)) sending env
        (table.insertAll (sending.slots before)) =
      .ok (pk, table.insertAll (sending.slots (before ++ [env]))) := by
  obtain ⟨pk, hpk, hcipher, htarget, hpending, hroom, hinsert⟩ := Sending.admits_iff.mp h
  refine ⟨pk, storeEnvelope_eq_ok_iff.mpr ⟨pk, hpk, hcipher, htarget, hpending, hroom, hinsert, ?_⟩⟩
  rw [Sending.slots_concat hpk, RowTable.insertAll_concat]

theorem storeEnvelope_of_not_admits {before : List Envelope} {env : Envelope}
    (h : sending.admits fails table before env = false) :
    ∃ e, storeEnvelope (fails (.pending before.length)) (fails (.insert before.length)) sending env
      (table.insertAll (sending.slots before)) = .error e := by
  cases hstore : storeEnvelope (fails (.pending before.length)) (fails (.insert before.length))
      sending env (table.insertAll (sending.slots before)) with
  | error e => exact ⟨e, rfl⟩
  | ok r =>
    obtain ⟨pk, hpk, hcipher, htarget, hpending, hroom, hinsert, -⟩ :=
      storeEnvelope_eq_ok_iff.mp hstore
    have hadmits := Sending.admits_iff.mpr ⟨pk, hpk, hcipher, htarget, hpending, hroom, hinsert⟩
    rw [h] at hadmits
    cases hadmits

variable (fails sending table)

/-- The loop stores the slots of the envelopes in front of the first that is not
admitted, and it ends without an error when these are all. -/
theorem storeEnvelopes_eq (before envelopes : List Envelope) :
    (storeEnvelopes fails sending before.length envelopes
        (table.insertAll (sending.slots before))).2 =
      table.insertAll
        (sending.slots before ++ sending.slots (sending.stored fails table before envelopes)) ∧
    ((storeEnvelopes fails sending before.length envelopes
        (table.insertAll (sending.slots before))).1 = none ↔
      sending.stored fails table before envelopes = envelopes) := by
  induction envelopes generalizing before with
  | nil =>
    refine ⟨?_, fun _ => rfl, fun _ => rfl⟩
    exact congrArg (fun as => table.insertAll as) (List.append_nil _).symm
  | cons env envelopes ih =>
    rw [storeEnvelopes, Sending.stored]
    cases hadmits : sending.admits fails table before env with
    | false =>
      obtain ⟨e, he⟩ := storeEnvelope_of_not_admits hadmits
      rw [he, if_neg Bool.false_ne_true]
      refine ⟨?_, by simp only [reduceCtorEq]⟩
      exact congrArg (fun as => table.insertAll as) (List.append_nil _).symm
    | true =>
      obtain ⟨pk, hstore⟩ := storeEnvelope_of_admits hadmits
      obtain ⟨key, hkey, -⟩ := Sending.admits_iff.mp hadmits
      have hrest := ih (before ++ [env])
      rw [List.length_append, Sending.slots_concat hkey, List.append_assoc, List.singleton_append,
        ← Sending.slots_cons hkey, ← Sending.slots_concat hkey] at hrest
      rw [hstore, if_pos rfl, List.cons.injEq]
      exact ⟨hrest.1, hrest.2.trans (and_iff_right rfl).symm⟩

end Loop

/-! ### A send that fails -/

section Trace

variable (verify : String → String → String → Bool) (fails : SendStmt → Option String)
  (req : SendRequest) (now : Int64) (db : Db)

theorem send_of_refused {e : MeshError} (h : sendCheck verify fails req now db = .error e) :
    send verify fails req now db = (.error e, db) := by
  rw [send, h]

theorem send_of_accepted {sending : Sending} (h : sendCheck verify fails req now db = .ok sending) :
    (send verify fails req now db).2.slots =
        db.slots.insertAll (sending.slots (sending.stored fails db.slots [] req.envelopes)) ∧
      ((send verify fails req now db).1 = .ok () ↔
        sending.stored fails db.slots [] req.envelopes = req.envelopes ∧
          fails .lastSeen = none) := by
  obtain ⟨htable, hnone⟩ := storeEnvelopes_eq fails sending db.slots [] req.envelopes
  have hstart : db.slots.insertAll (sending.slots []) = db.slots := rfl
  rw [hstart] at htable hnone
  rw [send, h]
  dsimp only
  generalize storeEnvelopes fails sending 0 req.envelopes db.slots = outcome at htable hnone ⊢
  obtain ⟨error, table⟩ := outcome
  cases error with
  | some e =>
    have hnot : sending.stored fails db.slots [] req.envelopes ≠ req.envelopes := by
      intro hall
      cases hnone.mpr hall
    exact ⟨htable, by simp [hnot]⟩
  | none =>
    have hall := hnone.mp rfl
    cases fails .lastSeen with
    | some msg => exact ⟨htable, by simp⟩
    | none => exact ⟨htable, by simp [hall]⟩

/-- A send that fails leaves the slots as they were exactly when it was refused before
its first envelope, the first envelope is not admitted, or all are and the note of the
sender's visit does not fail. -/
theorem send_error_keepsSlots_iff :
    ((∃ e, (send verify fails req now db).1 = .error e) →
        (send verify fails req now db).2.slots = db.slots) ↔
      ∀ sending, sendCheck verify fails req now db = .ok sending →
        sending.stored fails db.slots [] req.envelopes = [] ∨
          sending.stored fails db.slots [] req.envelopes = req.envelopes ∧
            fails .lastSeen = none := by
  cases h : sendCheck verify fails req now db with
  | error e => simp [send_of_refused verify fails req now db h]
  | ok sending =>
    obtain ⟨htable, hok⟩ := send_of_accepted verify fails req now db h
    have hkept : (send verify fails req now db).2.slots = db.slots ↔
        sending.stored fails db.slots [] req.envelopes = [] := by
      rw [htable, RowTable.insertAll_eq_self_iff, Sending.slots_stored_eq_nil_iff]
    simp only [Except.ok.injEq, forall_eq', ← hok, hkept]
    cases hresult : (send verify fails req now db).1 with
    | error e => simp
    | ok u => simp

end Trace

/-! The stores of the examples: identities `10000` and `20000` with one device each, and
signatures that spell out the key and the text. -/

def sampleVerify (key msg sig : String) : Bool := sig == key ++ "/" ++ msg

def sampleDb : Db where
  identities := [⟨"10000", 1, "", 0⟩, ⟨"20000", 2, "", 0⟩]
  devices := [⟨"10000", sampleKey 'a', sampleKey 'b', 0, 0⟩,
    ⟨"20000", sampleKey 'c', sampleKey 'd', 0, 0⟩]
  slots := .empty

/-- A request from `10000` to `20000` at time 1000, signed. -/
def sampleRequest (envelopes : List Envelope) : SendRequest where
  fromUin := "10000"
  toUin := "20000"
  envelopes := envelopes
  ts := 1000
  sig := sampleKey 'b' ++ "/" ++ sendCanonical "20000" 1000 envelopes

/-- The second envelope is empty, so the send fails, and the slot of the first stays. -/
theorem not_send_error_keepsSlots_empty_second :
    ¬ ((∃ e, (send sampleVerify (fun _ => none)
          (sampleRequest [⟨sampleKey 'c', "hello"⟩, ⟨sampleKey 'c', ""⟩]) 1000 sampleDb).1 =
        .error e) →
      (send sampleVerify (fun _ => none)
          (sampleRequest [⟨sampleKey 'c', "hello"⟩, ⟨sampleKey 'c', ""⟩]) 1000 sampleDb).2.slots =
        sampleDb.slots) := by
  have hrun : (send sampleVerify (fun _ => none)
          (sampleRequest [⟨sampleKey 'c', "hello"⟩, ⟨sampleKey 'c', ""⟩]) 1000 sampleDb).1 =
        .error (.badInput "empty ciphertext") ∧
      (send sampleVerify (fun _ => none)
          (sampleRequest [⟨sampleKey 'c', "hello"⟩, ⟨sampleKey 'c', ""⟩]) 1000
            sampleDb).2.slots.rows.length = 1 := by
    decide +kernel
  intro h
  have hlength := hrun.2
  rw [h ⟨_, hrun.1⟩] at hlength
  cases hlength

/-! ### A request that is submitted again -/

/-- The calls on a store. A poll uses it twice, to authenticate and to take slots. -/
inductive StoreOp where
  | register (call : RegisterCall)
  | send (fails : SendStmt → Option String) (req : SendRequest) (now : Int64)
  | pull (fails : PullStmt → Option String) (uin : String) (ts : Int64) (sig : String)
      (now : Int64)
  | pollAuth (fails : PullStmt → Option String) (uin : String) (ts : Int64) (sig : String)
      (now : Int64)
  | pollTake (fault : Option String) (uin device : String) (now : Int64)
  | gc (fault : Option String) (now : Int64)

structure Submission where
  req : SendRequest
  now : Int64
  accepted : Bool
  stored : List Slot
  deriving DecidableEq, Repr

namespace Submission

def isOf (msg sig : String) (s : Submission) : Bool :=
  sendCanonical s.req.toUin s.req.ts s.req.envelopes == msg && s.req.sig == sig

def isTimely (s : Submission) : Bool := (checkTs s.req.ts s.now).isOk

/-- A submission stores at most one slot per envelope, in order, all of them when it is
accepted, and none unless its timestamp is. -/
structure Sound (s : Submission) : Prop where
  atMostOnce : ∃ done, done <+: s.req.envelopes ∧
    s.stored.map Slot.ciphertext = done.map Envelope.ciphertext ∧
    (s.accepted = true → done = s.req.envelopes)
  timely : s.stored ≠ [] → s.isTimely = true

end Submission

structure Served where
  db : Db
  log : List Submission

namespace Served

variable (verify : String → String → String → Bool) (parseUuid : String → Option Uuid)

/-- The submission of a request. -/
def submit (fails : SendStmt → Option String) (req : SendRequest) (now : Int64) (db : Db) :
    Submission where
  req := req
  now := now
  accepted := (send verify fails req now db).1.isOk
  stored := ((send verify fails req now db).2.slots.rows.drop db.slots.rows.length).map Prod.snd

def step (s : Served) : StoreOp → Served
  | .register call => { s with db := (register parseUuid call s.db).2 }
  | .send fails req now =>
    ⟨(send verify fails req now s.db).2, s.log ++ [submit verify fails req now s.db]⟩
  | .pull fails uin ts sig now => { s with db := (pull verify fails uin ts sig now s.db).2 }
  | .pollAuth fails uin ts sig now =>
    match pollAuth verify fails uin ts sig now s.db with
    | .error _ => s
    | .ok r => { s with db := r.2 }
  | .pollTake fault uin device now =>
    match takeSlots fault uin device now s.db.slots with
    | .error _ => s
    | .ok r => { s with db := { s.db with slots := r.2 } }
  | .gc fault now => { s with db := gc fault now s.db }

variable {verify parseUuid}

theorem submit_sound (fails : SendStmt → Option String) (req : SendRequest) (now : Int64)
    (db : Db) : (submit verify fails req now db).Sound := by
  cases h : sendCheck verify fails req now db with
  | error e =>
    have hstored : (submit verify fails req now db).stored = [] := by
      simp [submit, send_of_refused verify fails req now db h]
    have haccepted : (submit verify fails req now db).accepted = false := by
      rw [submit, send_of_refused verify fails req now db h]
      rfl
    refine ⟨⟨[], List.nil_prefix, by simp [hstored], ?_⟩, fun hne => absurd hstored hne⟩
    intro htrue
    rw [haccepted] at htrue
    cases htrue
  | ok sending =>
    obtain ⟨htable, hok⟩ := send_of_accepted verify fails req now db h
    have hstored : (submit verify fails req now db).stored =
        sending.slots (sending.stored fails db.slots [] req.envelopes) := by
      rw [submit, htable, List.map_drop, RowTable.values_insertAll]
      simp
    constructor
    · refine ⟨_, sending.stored_prefix fails db.slots [] req.envelopes, ?_, ?_⟩
      · rw [hstored, Sending.ciphertexts_slots_stored]
      · intro haccepted
        have hresult : (send verify fails req now db).1 = .ok () := by
          dsimp only [submit] at haccepted
          cases hsend : (send verify fails req now db).1 with
          | error e =>
            rw [hsend] at haccepted
            cases haccepted
          | ok u => rfl
        exact (hok.mp hresult).1
    · intro _
      change (checkTs req.ts now).isOk = true
      rw [(sendCheck_eq_ok h).1]
      rfl

theorem log_step (s : Served) (op : StoreOp) :
    (s.step verify parseUuid op).log = s.log ∨
      ∃ submission : Submission, submission.Sound ∧
        (s.step verify parseUuid op).log = s.log ++ [submission] := by
  cases op with
  | send fails req now => exact .inr ⟨_, submit_sound fails req now s.db, rfl⟩
  | pollAuth fails uin ts sig now =>
    left
    dsimp only [step]
    cases pollAuth verify fails uin ts sig now s.db <;> rfl
  | pollTake fault uin device now =>
    left
    dsimp only [step]
    cases takeSlots fault uin device now s.db.slots <;> rfl
  | _ => exact .inl rfl

theorem sound_of_mem_log {db : Db} {ops : List StoreOp} {s : Submission}
    (hs : s ∈ (ops.foldl (step verify parseUuid) ⟨db, []⟩).log) : s.Sound := by
  have hall : ∀ s ∈ (ops.foldl (step verify parseUuid) ⟨db, []⟩).log, s.Sound := by
    apply Run.invariant_foldl (I := fun served : Served => ∀ s ∈ served.log, s.Sound)
    · intro s hs
      cases hs
    · intro served op _ hserved s hs
      rcases log_step served op with hlog | ⟨submission, hsound, hlog⟩
      · exact hserved s (hlog ▸ hs)
      · rw [hlog] at hs
        rcases List.mem_append.mp hs with hs | hs
        · exact hserved s hs
        · rw [List.mem_singleton.mp hs]
          exact hsound
  exact hall s hs

end Served

/-- The slots stored by the submissions of a signed text are at most one per envelope
for each of them whose timestamp was accepted. -/
theorem length_stored_le {log : List Submission} (hlog : ∀ s ∈ log, s.Sound) (msg sig : String) :
    ((log.filter fun s => s.isOf msg sig).map fun s => s.stored.length).sum ≤
      ((log.filter fun s => s.isOf msg sig && s.isTimely).map
        fun s => s.req.envelopes.length).sum := by
  induction log with
  | nil => exact Nat.le_refl 0
  | cons s log ih =>
    have hrest := ih fun s' hs' => hlog s' (List.mem_cons_of_mem s hs')
    have hs := hlog s (by simp)
    obtain ⟨done, hprefix, hcipher, -⟩ := hs.atMostOnce
    have hle : s.stored.length ≤ s.req.envelopes.length := by
      have hlength := congrArg List.length hcipher
      rw [List.length_map, List.length_map] at hlength
      rw [hlength]
      exact hprefix.length_le
    cases hof : s.isOf msg sig with
    | false => simpa [hof] using hrest
    | true =>
      cases htimely : s.isTimely with
      | true => simpa [hof, htimely] using Nat.add_le_add hle hrest
      | false =>
        have hnone : s.stored = [] := by
          by_contra hne
          rw [hs.timely hne] at htimely
          cases htimely
        simpa [hof, htimely, hnone] using hrest

/-- In every run, each submission of a request stores at most one slot per envelope, and
all of them when it is accepted; and the slots that the submissions of one signed text
have stored are no more than one per envelope for each submission at a time at which its
timestamp was accepted. -/
theorem submissions_store_atMostOnce (verify : String → String → String → Bool)
    (parseUuid : String → Option Uuid) (db : Db) (ops : List StoreOp) (msg sig : String) :
    (∀ s ∈ (ops.foldl (Served.step verify parseUuid) ⟨db, []⟩).log, s.Sound) ∧
      (((ops.foldl (Served.step verify parseUuid) ⟨db, []⟩).log.filter
          fun s => s.isOf msg sig).map fun s => s.stored.length).sum ≤
        (((ops.foldl (Served.step verify parseUuid) ⟨db, []⟩).log.filter
          fun s => s.isOf msg sig && s.isTimely).map fun s => s.req.envelopes.length).sum := by
  have hsound : ∀ s ∈ (ops.foldl (Served.step verify parseUuid) ⟨db, []⟩).log, s.Sound :=
    fun _ hs => Served.sound_of_mem_log hs
  exact ⟨hsound, length_stored_le hsound msg sig⟩

/-- The same request at the times 1000 and 1200: both submissions are accepted, and the
only envelope has two slots. -/
theorem not_submissions_store_once :
    let req := sampleRequest [⟨sampleKey 'c', "hello"⟩]
    let log := ([.send (fun _ => none) req 1000, .send (fun _ => none) req 1200].foldl
      (Served.step sampleVerify fun _ => none) ⟨sampleDb, []⟩).log
    (∀ s ∈ log, s.accepted = true ∧ s.req = req) ∧
      ¬ (log.map fun s => s.stored.length).sum ≤ req.envelopes.length := by
  decide +kernel

end Mesh

end Fcore
