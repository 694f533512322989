import Fcore.Handlers.Report

/-!
# Reports with attempts

A later client sends a whole report, with the targets it looked at and the attempts it made to
connect. The report is stored under the identifier that the client chose, so that one that is
sent again replaces the first, and each attempt under a digest of that identifier, its position
and its time.

Position and time are hashed one right behind the other, and the time is whatever the client
sent. So two attempts share an identifier, and one row, if the time of one begins with digits
that turn its position into the other's. And the number of affected rows, from which the answer
tells a new report from one that was sent again, is one in either case.

The columns about the address of the client, and the rows for the targets, are left out.
-/

namespace Fcore

def utf8 (s : String) : List UInt8 := s.toByteArray.data.toList

namespace Uuid

def asBytes (id : Uuid) : List UInt8 :=
  (List.range 16).map fun i => UInt8.ofNat (id.toNat / 256 ^ (15 - i))

def fromBytes (bytes : List UInt8) : Uuid :=
  BitVec.ofNat 128 (bytes.foldl (fun n byte => n * 256 + byte.toNat) 0)

end Uuid

def attemptInput (reportId : Uuid) (index : ℕ) (at_ : Option String) : List UInt8 :=
  reportId.asBytes ++ utf8 (toString index) ++ utf8 (at_.getD "")

namespace ReportBackend

variable (b : ReportBackend)

/-- The first half of the digest, with version and variant written over it. -/
def hashUuid (input : List UInt8) : Uuid :=
  let bytes := (b.sha256 input).toList.take 16
  .fromBytes ((bytes.modify 6 fun byte => byte &&& 0x0f ||| 0x50).modify 8 fun byte =>
    byte &&& 0x3f ||| 0x80)

def attemptId (reportId : Uuid) (index : ℕ) (at_ : Option String) : Uuid :=
  b.hashUuid (attemptInput reportId index at_)

end ReportBackend

def asciiLower (s : String) : String := s.map Char.toLower

def validPort (port : ℤ) : Bool := decide (1 ≤ port ∧ port ≤ 65535)

def reportMode (body : Json) : Option String :=
  (((body.get "mode").bind Json.asStr).map fun s => asciiLower (Text.trim s)).filter (· ≠ "") |>.map
    fun s => String.ofList (s.toList.take 24)

def appField (body : Json) (name : String) (max : ℕ) : Option String :=
  ((body.get "app").bind (Json.get name)).bind fun v => v.asStr.bind (trimmed · max)

structure RichParsed where
  report : ClientReport
  attempts : List ConnectionAttempt
  targetsSeen : ℕ
  targetsRejected : ℕ

namespace ReportBackend

variable (b : ReportBackend) (now : DateTime)

def attemptRow (report : ClientReport) (index : ℕ) (entry : AttemptEntry) : ConnectionAttempt where
  id := b.attemptId report.id index entry.at_
  reportId := report.id
  subscriptionId := report.subscriptionId
  supportTag := report.supportTag
  appVersion := report.appVersion
  platform := report.platform
  address := (b.parseAddress entry.address).toOption.join
  port := entry.port.filter validPort
  protocol := (optTrimmed entry.protocol 32).map asciiLower
  outcome := (optTrimmed entry.outcome 24).map asciiLower
  detail := optTrimmed entry.detail 200
  waitedMs := entry.waitedMs.map fun v => (min v (2 ^ 31 - 1)).bmod (2 ^ 32)
  attemptedAt := (b.parseTime now entry.at_).toOption.join.getD report.observedAt

def attemptRows (report : ClientReport) (entries : List AttemptEntry) : List ConnectionAttempt :=
  entries.mapIdx (b.attemptRow now report)

/-- A target is dropped if its address or its port is no good. -/
def rejected (entry : TargetEntry) : Bool :=
  (b.parseAddress entry.address).toOption.isNone || (entry.port.filter validPort).isNone

def parseRichReport (body : Json) (subId : Option Uuid) : Except String RichParsed := do
  let raw ← okOr "missing_report_id" ((body.get "report_id").bind Json.asStr)
  let reportId ← okOr "invalid_report_id" (b.parseUuid (Text.trim raw))
  let targets := ((body.get "targets").bind b.targets).getD []
  let attempts := ((body.get "attempts").bind b.attempts).getD []
  let hasTarget := (body.get "target").any (· ≠ .null)
  if targets.isEmpty && !hasTarget && attempts.isEmpty then .error "empty_report"
  else
    let field name := (body.get name).getD .null
    let report : ClientReport := {
      id := reportId
      subscriptionId := subId
      supportTag := ((body.get "support_tag").bind Json.asStr).bind (trimmed · 64)
      mode := reportMode body
      appVersion := (appField body "version" 32).getD "unknown"
      platform := (appField body "platform" 32).getD "unknown"
      os := appField body "os" 64
      app := field "app"
      config := field "config"
      mtu := field "mtu"
      tunnel := field "tunnel"
      network := field "network"
      session := field "session"
      device := field "device"
      payload := body
      observedAt := (b.parseTime now ((body.get "at").bind Json.asStr)).toOption.join.getD now }
    .ok ⟨report, b.attemptRows now report attempts, targets.length, targets.countP b.rejected⟩

end ReportBackend

structure RichReply where
  id : Uuid
  created : Bool
  dedup : Bool
  mode : Option String
  targetsCount : ℕ
  targetsRejected : ℕ
  attemptsCount : ℕ
  deriving DecidableEq

/-- One report that is sent, with the errors of the two writes that are not only logged. -/
structure RichCall where
  body : Json
  subId : Option Uuid
  now : DateTime
  reportFault : Option String := none
  attemptsFault : Option String := none

def storeRichReport (b : ReportBackend) (call : RichCall) (db : ReportDb) :
    ReportDb × Except String RichReply :=
  match b.parseRichReport call.now call.body call.subId with
  | .error e => (db, .error e)
  | .ok parsed =>
    match call.reportFault with
    | some e => (db, .error ("db: " ++ e))
    | none =>
      let (db, stored) := db.insertClientReport parsed.report
      -- without attempts the database is not asked
      match call.attemptsFault.filter fun _ => !parsed.attempts.isEmpty with
      | some e => (db, .error ("db: " ++ e))
      | none =>
        let (db, attemptsStored) := db.insertAttempts parsed.attempts
        (db, .ok {
          id := parsed.report.id
          created := stored
          dedup := !stored
          mode := parsed.report.mode
          targetsCount := parsed.targetsSeen
          targetsRejected := parsed.targetsRejected
          attemptsCount := attemptsStored })

/-! ## The identifiers of attempts -/

/-- The time of an attempt begins with the digits that its position lacks of that of another,
and goes on as the time of the other. -/
def Shifted (entries : List AttemptEntry) : Prop :=
  ∃ (i j : ℕ) (e e' : AttemptEntry), entries[i]? = some e ∧ entries[j]? = some e' ∧
    ∃ digits ≠ [], (toString j).toList = (toString i).toList ++ digits ∧
      (e.at_.getD "").toList = digits ++ (e'.at_.getD "").toList

section Attempts

variable {b : ReportBackend} {report : ClientReport} {entries : List AttemptEntry} {i j : ℕ}
  {at_ at' : Option String} {now : DateTime}

theorem utf8_append (s t : String) : utf8 (s ++ t) = utf8 s ++ utf8 t := by
  simp [utf8, String.toByteArray_append]

theorem utf8_injective : Function.Injective utf8 := by
  intro s t h
  exact String.toByteArray_inj.mp (ByteArray.ext (Array.toList_inj.mp h))

theorem attemptInput_eq_iff (id : Uuid) : attemptInput id i at_ = attemptInput id j at' ↔
    (toString i).toList ++ (at_.getD "").toList = (toString j).toList ++ (at'.getD "").toList := by
  rw [attemptInput, attemptInput, List.append_assoc, List.append_assoc, List.append_cancel_left_eq,
    ← utf8_append, ← utf8_append, utf8_injective.eq_iff, ← String.toList_append,
    ← String.toList_append, String.toList_inj]

/-- What is hashed for the attempts of a list. -/
def attemptInputs (id : Uuid) (entries : List AttemptEntry) : Set (List UInt8) :=
  { input | ∃ i e, entries[i]? = some e ∧ attemptInput id i e.at_ = input }

theorem getElem?_attemptIds (i : ℕ) :
    ((b.attemptRows now report entries).map ConnectionAttempt.id)[i]? =
      entries[i]?.map fun e => b.attemptId report.id i e.at_ := by
  rw [List.getElem?_map, ReportBackend.attemptRows, List.getElem?_mapIdx, Option.map_map]
  rfl

/-- Two texts that are hashed alike are those of one position, or of a shifted pair. -/
theorem shifted_of_eq {e e' : AttemptEntry} (he : entries[i]? = some e)
    (he' : entries[j]? = some e') (hne : i ≠ j)
    (h : (toString i).toList ++ (e.at_.getD "").toList =
      (toString j).toList ++ (e'.at_.getD "").toList) : Shifted entries := by
  have hdigits : ∀ {m n : ℕ} {digits : List Char}, m ≠ n →
      (toString n).toList = (toString m).toList ++ digits → digits ≠ [] := by
    rintro m n _ hmn htext rfl
    rw [List.append_nil, String.toList_inj] at htext
    exact hmn (Text.toString_nat_injective htext).symm
  rcases List.append_eq_append_iff.mp h with ⟨digits, hj, hat⟩ | ⟨digits, hi, hat⟩
  · exact ⟨i, j, e, e', he, he', digits, hdigits hne hj, hj, hat⟩
  · exact ⟨j, i, e', e, he', he, digits, hdigits hne.symm hi, hi, hat⟩

theorem length_attemptIds :
    ((b.attemptRows now report entries).map ConnectionAttempt.id).length = entries.length := by
  rw [List.length_map, ReportBackend.attemptRows, List.length_mapIdx]

theorem nodup_attemptIds_iff (now : DateTime)
    (h : Set.InjOn b.hashUuid (attemptInputs report.id entries)) :
    ((b.attemptRows now report entries).map ConnectionAttempt.id).Nodup ↔ ¬ Shifted entries := by
  rw [List.nodup_iff_getElem?_ne_getElem?, length_attemptIds]
  simp only [getElem?_attemptIds]
  constructor
  · rintro hids ⟨i, j, e, e', he, he', digits, hdigits, hj, hat⟩
    have hinput : attemptInput report.id i e.at_ = attemptInput report.id j e'.at_ := by
      rw [attemptInput_eq_iff, hj, hat, List.append_assoc]
    have hsame : (entries[i]?.map fun e => b.attemptId report.id i e.at_) =
        entries[j]?.map fun e => b.attemptId report.id j e.at_ := by
      rw [he, he']
      exact congrArg (some ∘ b.hashUuid) hinput
    have hne : i ≠ j := by
      rintro rfl
      exact hdigits (List.append_right_eq_self.mp hj.symm)
    rcases lt_or_gt_of_ne hne with hlt | hlt
    · exact hids i j hlt (List.getElem?_eq_some_iff.mp he').1 hsame
    · exact hids j i hlt (List.getElem?_eq_some_iff.mp he).1 hsame.symm
  · intro hshifted i j hlt hj hsame
    have he := List.getElem?_eq_getElem (hlt.trans hj)
    have he' := List.getElem?_eq_getElem hj
    rw [he, he', Option.map_some, Option.map_some, Option.some.injEq] at hsame
    have hinput := h ⟨i, _, he, rfl⟩ ⟨j, _, he', rfl⟩ hsame
    exact hshifted (shifted_of_eq he he' hlt.ne ((attemptInput_eq_iff report.id).mp hinput))

/-- With a hash that does not collide on the attempts of a report, their identifiers are
distinct, and the table gets a row for each of them, just when no two attempts are shifted. -/
theorem attempts_kept_iff (b : ReportBackend) (now : DateTime) (report : ClientReport)
    (entries : List AttemptEntry)
    (h : Set.InjOn b.hashUuid (attemptInputs report.id entries)) :
    (((b.attemptRows now report entries).map ConnectionAttempt.id).Nodup ↔ ¬ Shifted entries) ∧
      ∀ db : ReportDb, (∀ row ∈ b.attemptRows now report entries, row.id ∉ db.attempts) →
        ((db.insertAttempts (b.attemptRows now report entries)).1.attempts.entries.length =
          db.attempts.entries.length + entries.length ↔ ¬ Shifted entries) := by
  have hids := nodup_attemptIds_iff now h
  refine ⟨hids, fun db hfresh => ?_⟩
  rw [← hids, ReportDb.attempts_insertAttempts, AList.length_foldl_upsert hfresh,
    Nat.add_left_cancel_iff]
  exact (Eq.congr_right length_attemptIds.symm).trans Multiset.toFinset_card_eq_card_iff_nodup

end Attempts

/-- A digest of the last byte. -/
def lastByteBackend : ReportBackend :=
  { digitBackend with sha256 := fun input => Vector.replicate 32 (input.getLast?.getD 0) }

def emptyReport (id : Uuid) : ClientReport :=
  ⟨id, none, none, none, "", "", none, .null, .null, .null, .null, .null, .null, .null, .null, 0⟩

/-- Two attempts without a time. -/
theorem attempts_kept_two :
    Set.InjOn lastByteBackend.hashUuid (attemptInputs (emptyReport 7).id [{}, {}]) ∧
      ((⟨∅, ∅⟩ : ReportDb).insertAttempts
        (lastByteBackend.attemptRows 0 (emptyReport 7) [{}, {}])).1.attempts.entries.length =
          2 := by
  have hinj : Set.InjOn lastByteBackend.hashUuid (attemptInputs (emptyReport 7).id [{}, {}]) := by
    rintro _ ⟨i, e, he, rfl⟩ _ ⟨j, e', he', rfl⟩ hsame
    have htwo : ∀ {k : ℕ} {e : AttemptEntry}, ([{}, {}] : List AttemptEntry)[k]? = some e →
        k = 0 ∨ k = 1 := by
      intro k e he
      have hlt : k < 2 := (List.getElem?_eq_some_iff.mp he).1
      omega
    obtain rfl | rfl := htwo he <;> obtain rfl | rfl := htwo he' <;> cases he <;> cases he' <;>
      revert hsame <;> decide
  have hshifted : ¬ Shifted [{}, {}] := by
    rintro ⟨i, j, e, e', he, -, digits, hdigits, -, hat⟩
    have hnone : e.at_ = none := by
      cases List.eq_of_mem_replicate (n := 2) (List.mem_of_getElem? he)
      rfl
    rw [hnone] at hat
    exact hdigits (List.append_eq_nil_iff.mp hat.symm).1
  exact ⟨hinj, ((attempts_kept_iff _ 0 (emptyReport 7) _ hinj).2 ⟨∅, ∅⟩
    fun _ _ => AList.notMem_empty _).mpr hshifted⟩

/-- Eleven attempts, the second of which has the time `0`. -/
def elevenAttempts : List AttemptEntry :=
  [{}, { at_ := some "0" }, {}, {}, {}, {}, {}, {}, {}, {}, {}]

/-- The eleventh attempt is stored over the second. -/
theorem attempts_lost :
    elevenAttempts.length = 11 ∧ ∀ (b : ReportBackend) (now : DateTime) (report : ClientReport),
      b.attemptId report.id 1 (some "0") = b.attemptId report.id 10 none ∧
        ((⟨∅, ∅⟩ : ReportDb).insertAttempts
          (b.attemptRows now report elevenAttempts)).1.attempts.entries.length < 11 := by
  refine ⟨rfl, fun b now report => ?_⟩
  have hid : b.attemptId report.id 1 (some "0") = b.attemptId report.id 10 none :=
    congrArg b.hashUuid ((attemptInput_eq_iff report.id).mpr (by decide))
  refine ⟨hid, ?_⟩
  have hdup : ¬ ((b.attemptRows now report elevenAttempts).map ConnectionAttempt.id).Nodup := by
    rw [List.nodup_iff_getElem?_ne_getElem?]
    exact fun h => h 1 10 (by decide) (by simp [ReportBackend.attemptRows, elevenAttempts])
      (congrArg some hid)
  rw [ReportDb.attempts_insertAttempts, AList.length_foldl_upsert fun _ _ => AList.notMem_empty _]
  exact (Nat.zero_add _).trans_lt
    ((List.toFinset_card_le _).lt_of_ne (mt Multiset.toFinset_card_eq_card_iff_nodup.mp hdup))

/-! ## Reports that are sent again -/

/-- The answers to the reports that are stored. -/
def richReplies (b : ReportBackend) : ReportDb → List RichCall → List RichReply
  | _, [] => []
  | db, call :: calls =>
    (storeRichReport b call db).2.toOption.toList ++
      richReplies b (storeRichReport b call db).1 calls

theorem created_of_storeRichReport {b : ReportBackend} {call : RichCall} {db : ReportDb}
    {reply : RichReply} (h : (storeRichReport b call db).2 = .ok reply) :
    reply.created = true ∧ reply.dedup = false := by
  unfold storeRichReport at h
  split at h
  · cases h
  split at h
  · cases h
  dsimp only at h
  split at h <;> cases h
  exact ⟨rfl, rfl⟩

theorem created_of_mem_richReplies {b : ReportBackend} {db : ReportDb} {calls : List RichCall}
    {reply : RichReply} (h : reply ∈ richReplies b db calls) :
    reply.created = true ∧ reply.dedup = false := by
  induction calls generalizing db with
  | nil => cases h
  | cons call calls ih =>
    rcases List.mem_append.mp h with h | h
    · rcases hstored : (storeRichReport b call db).2 with e | stored <;> rw [hstored] at h
      · cases h
      · cases List.mem_singleton.mp h
        exact created_of_storeRichReport hstored
    · exact ih h

/-- Of the reports with one identifier that are stored, the first is answered as created and
every later one as a duplicate, just when there is one at most. -/
theorem replays_recognised_iff (b : ReportBackend) (db : ReportDb) (calls : List RichCall)
    (reportId : Uuid) :
    let replies := (richReplies b db calls).filter fun reply => reply.id = reportId
    (∀ i reply, replies[i]? = some reply →
      reply.created = decide (i = 0) ∧ reply.dedup = !reply.created) ↔ replies.length ≤ 1 := by
  intro replies
  have hcreated : ∀ (i : ℕ) (reply : RichReply), replies[i]? = some reply →
      reply.created = true ∧ reply.dedup = false := by
    intro i reply hi
    exact created_of_mem_richReplies (List.mem_of_mem_filter (List.mem_of_getElem? hi))
  constructor
  · intro h
    by_contra hlength
    have hsecond := List.getElem?_eq_getElem (l := replies) (i := 1) (by omega)
    have hfalse := (h 1 _ hsecond).1
    rw [(hcreated 1 _ hsecond).1] at hfalse
    cases hfalse
  · intro hlength i reply hi
    obtain ⟨hcreate, hdedup⟩ := hcreated i reply hi
    have hzero : i = 0 := by
      have := (List.getElem?_eq_some_iff.mp hi).1
      omega
    rw [hcreate, hdedup, hzero]
    exact ⟨rfl, rfl⟩

def tunnelCall : RichCall :=
  ⟨.ofFields [("report_id", .str "7"), ("target", .bool true)], some 1, 0, none, none⟩

/-- A report that is sent twice. -/
theorem not_replays_recognised :
    (richReplies digitBackend ⟨∅, ∅⟩ [tunnelCall, tunnelCall]).map
      (fun reply => (reply.id, reply.created, reply.dedup)) =
        [(7, true, false), (7, true, false)] := by
  decide

end Fcore
