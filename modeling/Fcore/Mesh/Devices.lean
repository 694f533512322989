import Fcore.Mesh.Identity

/-!
# Whose mailbox a device drains

A pull or a poll names an identity and is signed by one of its devices. The store
looks for the device by its signing key and takes the first match. Nothing keeps two
devices of an identity from registering the same signing key, and then only the first
of them in the scan of the table is ever found. The result of the module says when a
device gets its own slots: its timestamp is accepted, and no device with its signing
key stands before it, unless the slots of both are empty anyway.

A poll takes slots up to twice. `Take` is what it finds then; other calls may have
changed the table in the meantime, so the two are independent of each other.
-/

namespace Fcore

namespace Mesh

structure Take where
  slots : RowTable Slot
  now : Int64
  deriving DecidableEq

def Take.pending (uin device : String) (take : Take) : List (ℕ × Slot) :=
  take.slots.select (Slot.isPending uin device take.now)

section Poll

variable (verify : String → String → String → Bool) (fails : PullStmt → Option String)

/-- A poll: the slots it returns, and the table as it leaves it. There is no second take
when it times out. -/
def poll (uin : String) (ts : Int64) (sig : String) (now : Int64) (db : Db) (first : Take)
    (second : Option Take) : Except MeshError (List (ℕ × Slot)) × RowTable Slot :=
  match pollAuth verify fails uin ts sig now db with
  | .error e => (.error e, first.slots)
  | .ok authed =>
    match takeSlots (fails .take) uin authed.1 first.now first.slots with
    | .error e => (.error e, first.slots)
    | .ok taken =>
      if taken.1.isEmpty then
        match second with
        | none => (.ok taken.1, taken.2)
        | some take =>
          match takeSlots (fails .take) uin authed.1 take.now take.slots with
          | .error e => (.error e, take.slots)
          | .ok taken => (.ok taken.1, taken.2)
      else (.ok taken.1, taken.2)

end Poll

def lastTake (uin device : String) (first : Take) (second : Option Take) : Take :=
  if (first.pending uin device).isEmpty then second.getD first else first

/-- A take returns exactly the slots that wait for a device, and leaves those of all
others. -/
structure Drains (uin device : String) (take : Take)
    (outcome : Except MeshError (List (ℕ × Slot)) × RowTable Slot) : Prop where
  returned : outcome.1 = .ok (take.pending uin device)
  others : ∀ r ∈ take.slots.rows, r.2.isFor uin device = false → r ∈ outcome.2.rows

def Db.firstSigner (db : Db) (uin signing : String) : Option Device :=
  db.devices.find? fun d => d.uin == uin && d.signingPubkey == signing

/-- No device with the signing key of `d` stands before it, or there is nothing to take
for the one that does, nor for `d`. -/
def OwnMailbox (db : Db) (d : Device) (takes : List Take) : Prop :=
  ∃ e, db.firstSigner d.uin d.signingPubkey = some e ∧
    (e = d ∨ ∀ take ∈ takes, take.pending d.uin e.noisePubkey = [] ∧
      take.pending d.uin d.noisePubkey = [])

section Auth

variable {verify : String → String → String → Bool} {db : Db} {d e : Device}

theorem exists_firstSigner (hd : d ∈ db.devices) :
    ∃ e, db.firstSigner d.uin d.signingPubkey = some e ∧ e ∈ db.devices ∧ e.uin = d.uin := by
  cases h : db.firstSigner d.uin d.signingPubkey with
  | none =>
    have hnone := List.find?_eq_none.mp h d hd
    simp at hnone
  | some e =>
    have he := List.find?_some h
    simp only [Bool.and_eq_true, beq_iff_eq] at he
    exact ⟨e, rfl, List.mem_of_find?_eq_some h, he.1⟩

/-- A signature that verifies under the signing key of a device only is that of the first
device with the key. -/
theorem authedDevice_eq (hdb : Registry db) (hd : d ∈ db.devices)
    (he : db.firstSigner d.uin d.signingPubkey = some e) {msg sig : String}
    (hsig : ∀ key, verify key msg sig = true ↔ key = d.signingPubkey) :
    authedDevice verify (fun _ => none) db d.uin msg sig = .ok e.noisePubkey := by
  have hknown : db.identityMissing d.uin = false := by
    obtain ⟨i, hi, huin⟩ := hdb.owned d hd
    simp only [Db.identityMissing, Bool.not_eq_false', List.any_eq_true]
    exact ⟨i, hi, by simpa using huin⟩
  have hfind : (db.devicesOf d.uin).find? (fun d => verify d.2 msg sig) =
      some (e.noisePubkey, e.signingPubkey) := by
    have hscan : db.devices.find? (fun x => decide ((x.uin == d.uin) = true ∧
        verify x.signingPubkey msg sig = true)) = some e := by
      rw [← he]
      congr 1
      funext x
      rw [Bool.eq_iff_iff]
      simp [hsig]
    rw [Db.devicesOf, List.find?_map, List.find?_filter]
    exact congrArg (Option.map fun d => (d.noisePubkey, d.signingPubkey)) hscan
  simp only [authedDevice, hknown, stmt, matchDevice, hfind, bind, Except.bind, require,
    Bool.not_false, if_true]

end Auth

section Taking

variable {uin device other : String} {take : Take}

theorem takeSlots_eq (uin device : String) (take : Take) :
    takeSlots none uin device take.now take.slots =
      .ok (take.pending uin device,
        take.slots.deleteWhere (Slot.isPending uin device take.now)) :=
  takeSlots_eq_ok_iff.mpr ⟨rfl, rfl⟩

/-- A slot waits for one device, so different devices can only have the same slots when
there are none. -/
theorem pending_eq_nil {take' : Take} (hne : other ≠ device)
    (h : take.pending uin other = take'.pending uin device) : take.pending uin other = [] := by
  apply List.eq_nil_iff_forall_not_mem.mpr
  intro r hr
  have hother := (RowTable.mem_select.mp hr).2
  have hdevice := (RowTable.mem_select.mp (h ▸ hr)).2
  simp only [Slot.isPending, Slot.isFor, Bool.and_eq_true, beq_iff_eq] at hother hdevice
  exact hne (hother.1.2.symm.trans hdevice.1.2)

theorem drains_take_iff :
    Drains uin device take (.ok (take.pending uin other),
        take.slots.deleteWhere (Slot.isPending uin other take.now)) ↔
      other = device ∨ take.pending uin other = [] ∧ take.pending uin device = [] := by
  constructor
  · intro h
    by_cases heq : other = device
    · exact .inl heq
    · have hsame : take.pending uin other = take.pending uin device := Except.ok.inj h.returned
      have hnil := pending_eq_nil heq hsame
      exact .inr ⟨hnil, hsame ▸ hnil⟩
  · intro h
    have hother : ∀ r ∈ take.slots.rows, r.2.isFor uin device = false →
        r.2.isPending uin other take.now = false := by
      intro r hr hfor
      rcases h with rfl | ⟨hnil, -⟩
      · simp [Slot.isPending, hfor]
      · have hnot : r ∉ take.pending uin other := by simp [hnil]
        simpa [Take.pending, RowTable.mem_select, hr] using hnot
    constructor
    · rcases h with rfl | ⟨hnil, hnil'⟩
      · rfl
      · rw [hnil, hnil']
    · intro r hr hfor
      rw [RowTable.rows_deleteWhere, List.mem_filter, hother r hr hfor]
      exact ⟨hr, rfl⟩

theorem pending_lastTake_eq_nil_iff (first : Take) (second : Option Take) :
    (lastTake uin device first second).pending uin device = [] ↔
      ∀ take ∈ first :: second.toList, take.pending uin device = [] := by
  unfold lastTake
  by_cases hfirst : first.pending uin device = []
  · cases second <;> simp [hfirst]
  · simp [hfirst]

/-- The same for the take that a poll ends with. -/
theorem drains_lastTake_iff (first : Take) (second : Option Take) :
    Drains uin device (lastTake uin device first second)
        (.ok ((lastTake uin other first second).pending uin other),
          (lastTake uin other first second).slots.deleteWhere
            (Slot.isPending uin other (lastTake uin other first second).now)) ↔
      other = device ∨ ∀ take ∈ first :: second.toList,
        take.pending uin other = [] ∧ take.pending uin device = [] := by
  constructor
  · intro h
    by_cases heq : other = device
    · exact .inl heq
    · have hsame := Except.ok.inj h.returned
      have hnil := pending_eq_nil heq hsame
      have hother := (pending_lastTake_eq_nil_iff first second).mp hnil
      have hdevice := (pending_lastTake_eq_nil_iff first second).mp (hsame ▸ hnil)
      exact .inr fun take htake => ⟨hother take htake, hdevice take htake⟩
  · rintro (rfl | hnil)
    · exact drains_take_iff.mpr (.inl rfl)
    · have hlast : lastTake uin other first second = lastTake uin device first second := by
        obtain ⟨hother, hdevice⟩ := hnil first (by simp)
        rw [lastTake, lastTake, hother, hdevice]
      rw [hlast]
      apply drains_take_iff.mpr
      rw [← hlast]
      refine .inr ⟨?_, ?_⟩
      · exact (pending_lastTake_eq_nil_iff first second).mpr fun take htake => (hnil take htake).1
      · rw [hlast]
        exact (pending_lastTake_eq_nil_iff first second).mpr fun take htake => (hnil take htake).2

end Taking

section Main

variable (verify : String → String → String → Bool) (fails : PullStmt → Option String) (db : Db)
  {d e : Device} {ts now : Int64} (sig : String)

theorem pull_of_stale (hts : checkTs ts now ≠ .ok ()) (uin : String) :
    ∃ err, pull verify fails uin ts sig now db = (.error err, db) := by
  cases h : checkTs ts now with
  | ok u => exact absurd h hts
  | error err =>
    refine ⟨err, ?_⟩
    simp only [pull, pullAuth, h, bind, Except.bind]

theorem poll_of_stale (hts : checkTs ts now ≠ .ok ()) (uin : String) (first : Take)
    (second : Option Take) :
    ∃ err, poll verify fails uin ts sig now db first second = (.error err, first.slots) := by
  cases h : checkTs ts now with
  | ok u => exact absurd h hts
  | error err =>
    refine ⟨err, ?_⟩
    simp only [poll, pollAuth, h, bind, Except.bind]

variable {verify db sig}

/-- A pull takes the slots of the first device with the signing key. -/
theorem pull_eq (hdb : Registry db) (hd : d ∈ db.devices)
    (he : db.firstSigner d.uin d.signingPubkey = some e) (hts : checkTs ts now = .ok ())
    (hsig : ∀ key, verify key (pullCanonical d.uin ts) sig = true ↔ key = d.signingPubkey) :
    (pull verify (fun _ => none) d.uin ts sig now db).1 =
        .ok ((⟨db.slots, now⟩ : Take).pending d.uin e.noisePubkey) ∧
      (pull verify (fun _ => none) d.uin ts sig now db).2.slots =
        db.slots.deleteWhere (Slot.isPending d.uin e.noisePubkey now) := by
  have hauth := authedDevice_eq hdb hd he hsig
  have htake := takeSlots_eq d.uin e.noisePubkey ⟨db.slots, now⟩
  simp only [pull, pullAuth, hts, hauth, htake, bind, Except.bind, Db.touch, and_self]

/-- So does a poll. -/
theorem poll_eq (hdb : Registry db) (hd : d ∈ db.devices)
    (he : db.firstSigner d.uin d.signingPubkey = some e) (hts : checkTs ts now = .ok ())
    (hsig : ∀ key, verify key (pollCanonical d.uin ts) sig = true ↔ key = d.signingPubkey)
    (first : Take) (second : Option Take) :
    poll verify (fun _ => none) d.uin ts sig now db first second =
      (.ok ((lastTake d.uin e.noisePubkey first second).pending d.uin e.noisePubkey),
        (lastTake d.uin e.noisePubkey first second).slots.deleteWhere
          (Slot.isPending d.uin e.noisePubkey
            (lastTake d.uin e.noisePubkey first second).now)) := by
  have hauth := authedDevice_eq hdb hd he hsig
  simp only [poll, pollAuth, hts, hauth, takeSlots_eq, bind, Except.bind, stmt, lastTake]
  split
  · cases second <;> rfl
  · rfl

/-- A pull or a poll for a registered device, signed with its key, drains the mailbox of
the device exactly when its timestamp is accepted and no device of the identity with the
same signing key is found before it, or neither of the two has anything to take. -/
theorem devices_drain_own_iff {parseUuid : String → Option Uuid} (hdb : Registered parseUuid db)
    (hd : d ∈ db.devices) {sig' : String}
    (hpull : ∀ key, verify key (pullCanonical d.uin ts) sig = true ↔ key = d.signingPubkey)
    (hpoll : ∀ key, verify key (pollCanonical d.uin ts) sig' = true ↔ key = d.signingPubkey)
    (first : Take) (second : Option Take) :
    (Drains d.uin d.noisePubkey ⟨db.slots, now⟩
        ((pull verify (fun _ => none) d.uin ts sig now db).1,
          (pull verify (fun _ => none) d.uin ts sig now db).2.slots) ↔
      checkTs ts now = .ok () ∧ OwnMailbox db d [⟨db.slots, now⟩]) ∧
    (Drains d.uin d.noisePubkey (lastTake d.uin d.noisePubkey first second)
        (poll verify (fun _ => none) d.uin ts sig' now db first second) ↔
      checkTs ts now = .ok () ∧ OwnMailbox db d (first :: second.toList)) := by
  have hregistry := hdb.registry
  obtain ⟨e, he, hmem, -⟩ := exists_firstSigner hd
  -- devices are known by their key
  have hsame : e.noisePubkey = d.noisePubkey ↔ e = d :=
    ⟨List.inj_on_of_nodup_map hregistry.noises hmem hd, fun h => h ▸ rfl⟩
  have hown : ∀ takes, OwnMailbox db d takes ↔ e.noisePubkey = d.noisePubkey ∨
      ∀ take ∈ takes, take.pending d.uin e.noisePubkey = [] ∧
        take.pending d.uin d.noisePubkey = [] := by
    intro takes
    simp only [OwnMailbox, he, Option.some.injEq, exists_eq_left', hsame]
  by_cases hts : checkTs ts now = .ok ()
  · simp only [hts, true_and, hown]
    constructor
    · obtain ⟨hresult, hslots⟩ := pull_eq hregistry hd he hts hpull
      rw [hresult, hslots]
      simp only [List.mem_singleton, forall_eq]
      exact drains_take_iff
    · rw [poll_eq hregistry hd he hts hpoll]
      exact drains_lastTake_iff first second
  · obtain ⟨err, herr⟩ := pull_of_stale verify (fun _ => none) db sig hts d.uin
    obtain ⟨err', herr'⟩ := poll_of_stale verify (fun _ => none) db sig' hts d.uin first second
    rw [herr, herr']
    simp only [hts, false_and, iff_false]
    constructor
    · intro h
      cases h.returned
    · intro h
      cases h.returned

end Main

/-! Two devices of one identity, registered with the same signing key, and a slot for each
of them. -/

def sampleFirst : Device := ⟨"10000", sampleKey 'c', sampleKey 'd', 1000, 1000⟩

def sampleSecond : Device := ⟨"10000", sampleKey 'e', sampleKey 'd', 1000, 1000⟩

def sampleTwins : Db where
  identities := [⟨"10000", 1, "", 1000⟩]
  devices := [sampleFirst, sampleSecond]
  slots := (RowTable.empty.insert ⟨"10000", sampleKey 'c', "20000", "one", 2000⟩).insert
    ⟨"10000", sampleKey 'e', "20000", "two", 2000⟩

def sampleTwinCalls : List RegisterCall :=
  [sampleRegistration, { sampleRegistration with noisePubkey := sampleKey 'e' }]

theorem registered_sampleTwins : Registered (fun _ => some 1) sampleTwins := by
  have hbuilt : (registerAll (fun _ => some 1) sampleTwinCalls).identities =
        sampleTwins.identities ∧
      (registerAll (fun _ => some 1) sampleTwinCalls).devices = sampleTwins.devices := by
    decide +kernel
  exact ⟨sampleTwinCalls, .of_eq hbuilt.1.symm, .of_eq hbuilt.2.symm⟩

def sampleSigned (key _msg sig : String) : Bool := key == sampleKey 'd' && sig == "signed"

theorem sampleSigned_iff (key msg : String) :
    sampleSigned key msg "signed" = true ↔ key = sampleKey 'd' := by
  simp [sampleSigned]

/-- The first of the two gets its slot. -/
theorem devices_drain_own_first :
    OwnMailbox sampleTwins sampleFirst [⟨sampleTwins.slots, 1000⟩] ∧
      Drains "10000" (sampleKey 'c') ⟨sampleTwins.slots, 1000⟩
        ((pull sampleSigned (fun _ => none) "10000" 1000 "signed" 1000 sampleTwins).1,
          (pull sampleSigned (fun _ => none) "10000" 1000 "signed" 1000 sampleTwins).2.slots) := by
  have hfirst : sampleTwins.firstSigner "10000" (sampleKey 'd') = some sampleFirst := by
    decide +kernel
  have hown : OwnMailbox sampleTwins sampleFirst [⟨sampleTwins.slots, 1000⟩] :=
    ⟨sampleFirst, hfirst, .inl rfl⟩
  have hmem : sampleFirst ∈ sampleTwins.devices := List.mem_cons_self
  refine ⟨hown, ?_⟩
  exact (devices_drain_own_iff registered_sampleTwins hmem (fun key => sampleSigned_iff key _)
    (fun key => sampleSigned_iff key _) ⟨sampleTwins.slots, 1000⟩ none).1.mpr ⟨by decide, hown⟩

/-- The second gets the slot of the first, and the first loses it. -/
theorem not_devices_drain_own_second :
    sampleSecond ∈ sampleTwins.devices ∧ Registered (fun _ => some 1) sampleTwins ∧
      (∀ key, sampleSigned key (pullCanonical sampleSecond.uin 1000) "signed" = true ↔
        key = sampleSecond.signingPubkey) ∧
      ¬ Drains sampleSecond.uin sampleSecond.noisePubkey ⟨sampleTwins.slots, 1000⟩
        ((pull sampleSigned (fun _ => none) "10000" 1000 "signed" 1000 sampleTwins).1,
          (pull sampleSigned (fun _ => none) "10000" 1000 "signed" 1000 sampleTwins).2.slots) := by
  refine ⟨by simp [sampleTwins], registered_sampleTwins, fun key => sampleSigned_iff key _, ?_⟩
  intro h
  have hreturned := h.returned
  revert hreturned
  decide +kernel

end Mesh

end Fcore
