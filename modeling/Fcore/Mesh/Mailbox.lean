import Fcore.Lib.Run
import Fcore.Mesh.Send
import Fcore.Mesh.World

/-!
# No slot is lost or handed out twice

While no statement fails, what the calls do to the slots is what the operations of a mailbox
do: a slot of a send is an insertion, a pull or a poll that returns is a take, the
removal of expired slots is one too. So `Mailbox.Sound` holds at every moment.

The order of the slots is another matter. A pull reads the clock before it waits for the
connection, and while it waits another call may take slots with a later reading. What that
call left because it had just expired, the pull still takes, after younger slots. The slots
of a device come in their order when no pull works with an older reading than an earlier
call that returned slots of the device.
-/

namespace Fcore

namespace Mesh

instance linearOrderInt64 : LinearOrder Int64 where
  le_refl := Int64.le_refl
  le_trans _ _ _ := Int64.le_trans
  lt_iff_le_not_ge a b := by
    rw [Int64.not_le]
    exact ⟨fun h => ⟨Int64.le_of_lt h, h⟩, fun h => h.2⟩
  le_antisymm _ _ := Int64.le_antisymm
  le_total := Int64.le_total
  toDecidableLE := inferInstance
  toDecidableLT := inferInstance
  toDecidableEq := inferInstance

def Slot.key (slot : Slot) : String × String := (slot.uin, slot.devicePubkey)

theorem Slot.isPending_eq (key : String × String) (now : Int64) :
    Slot.isPending key.1 key.2 now = Mailbox.pending Slot.key Slot.expiresAt key now := by
  funext slot
  rw [Bool.eq_iff_iff, Mailbox.pending_iff]
  simp [Slot.isPending, Slot.isFor, Slot.isLive, Slot.key, Prod.ext_iff]

/-- No statement of the step fails. -/
def WorldOp.Faultless : WorldOp → Prop
  | .call (.send fails _) _ => ∀ s, fails s = none
  | .call (.pull fails _ _ _) _ => ∀ s, fails s = none
  | .call (.gc fault) _ => fault = none
  | .send (.store pendingFault insertFault) => pendingFault = none ∧ insertFault = none
  | .send (.finish fault) => fault = none
  | .poll _ (.auth fails _) => ∀ s, fails s = none
  | .poll _ (.take fault) => fault = none
  | _ => True

namespace World

def mailbox (w : World) : Mailbox.State (String × String) Int64 Slot :=
  ⟨w.db.slots, w.inserted, w.returned, w.clock⟩

/-- The slots stored so far, returned so far, and in the table. -/
structure Conserved (w : World) : Prop where
  ordered : w.inserted.Pairwise fun r r' => r.1 < r'.1
  once : (w.returned.flatMap Mailbox.Taken.rows).Nodup
  addressed : ∀ t ∈ w.returned, ∀ r ∈ t.rows, r ∈ w.inserted ∧ r.2.isFor t.key.1 t.key.2 = true
  kept : ∀ r ∈ w.inserted, (∃ t ∈ w.returned, r ∈ t.rows) ∨ r ∈ w.db.slots.rows ∨
    r.2.isLive w.clock = false
  capped : ∀ uin device, w.db.slots.count (Slot.isPending uin device w.clock) ≤ maxSlots

/-- The slots of every device have been returned in the order in which they were stored. -/
def InOrder (w : World) : Prop :=
  ∀ key, ((w.returned.filter fun t => decide (t.key = key)).flatMap Mailbox.Taken.rows).Pairwise
    fun r r' => r.1 < r'.1

/-- A pull does not work with an older reading of the clock than an earlier call that
returned slots of its device. -/
def Timely (verify : String → String → String → Bool) (w : World) : WorldOp → Prop
  | .call (.pull fails uin ts sig) now =>
    ∀ device, pullAuth verify fails uin ts sig now w.db = .ok device →
      ∀ t ∈ w.returned, t.key = (uin, device) → t.now ≤ now
  | _ => True

/-- The step is no operation of the mailbox, or one that is as timely. -/
def Follows (verify : String → String → String → Bool) (w : World) (op : WorldOp) : Prop :=
  (w.step verify op).mailbox = w.mailbox ∨
    ∃ o, (w.step verify op).mailbox =
        Mailbox.step Slot.key Slot.expiresAt maxSlots w.mailbox o ∧
      (w.Timely verify op → Mailbox.Timely w.mailbox o)

variable {op : WorldOp}

section Steps

variable {verify : String → String → String → Bool} {w : World} {now : Int64}

theorem mailbox_notifyOne (key : String × String) (choice : ℕ) (w : World) :
    (w.notifyOne key choice).mailbox = w.mailbox := by
  unfold notifyOne
  split
  · rfl
  · rfl

theorem mailbox_wake (key : String × String) (choice : ℕ) (w : World) :
    (w.wake key choice).mailbox = w.mailbox := by
  unfold wake
  split
  · exact mailbox_notifyOne key choice w
  · rfl

theorem mailbox_pollTake (first : Bool) (i : ℕ) (p : Poll) (w : World) :
    (w.pollTake none first i p).mailbox = w.mailbox ∨
      (w.pollTake none first i p).mailbox =
        Mailbox.step Slot.key Slot.expiresAt maxSlots w.mailbox (.take p.key w.clock) := by
  have htake : takeSlots none p.uin p.device w.clock w.db.slots =
      .ok (w.db.slots.select (Mailbox.pending Slot.key Slot.expiresAt p.key w.clock),
        w.db.slots.deleteWhere (Mailbox.pending Slot.key Slot.expiresAt p.key w.clock)) := by
    rw [← Slot.isPending_eq]
    exact takeSlots_eq_ok_iff.mpr ⟨rfl, rfl⟩
  simp only [pollTake, htake]
  split
  · rename_i hempty
    left
    have hnone := (Bool.and_eq_true_iff.mp hempty).2
    simp only [mailbox, setPoll]
    rw [RowTable.deleteWhere_eq_self (List.isEmpty_iff.mp hnone)]
  · right
    simp only [Mailbox.step, mailbox, le_refl, if_true]
    rfl

theorem mailbox_sendStore {flight : InFlight} (hnow : flight.sending.now ≤ w.clock)
    (env : Envelope) (rest : List Envelope) :
    (w.sendStore none none flight env rest).mailbox = w.mailbox ∨
      ∃ slot, (w.sendStore none none flight env rest).mailbox =
        Mailbox.step Slot.key Slot.expiresAt maxSlots w.mailbox
          (.insert slot flight.sending.now) := by
  unfold sendStore
  cases hstore : storeEnvelope none none flight.sending env w.db.slots with
  | error e => exact .inl rfl
  | ok stored =>
    obtain ⟨pk, -, -, -, -, hroom, -, rfl⟩ := storeEnvelope_eq_ok_iff.mp hstore
    refine .inr ⟨flight.sending.slot pk env, ?_⟩
    rw [Slot.isPending_eq (flight.sending.toUin, pk)] at hroom
    exact (if_pos ⟨hnow, hroom⟩).symm

theorem mailbox_pollStep (i : ℕ) (p : Poll) {act : PollAct}
    (hact : (WorldOp.poll i act).Faultless) :
    (w.pollStep verify i p act).mailbox = w.mailbox ∨
      (w.pollStep verify i p act).mailbox =
        Mailbox.step Slot.key Slot.expiresAt maxSlots w.mailbox (.take p.key w.clock) := by
  fun_cases pollStep verify i p w act with
  | case1 fails now =>
    left
    unfold pollAuthed
    cases hauth : pollAuth verify fails p.uin p.ts p.sig now w.db with
    | error e => rfl
    | ok authed =>
      simp only [mailbox, setPoll]
      rw [pollAuth_slots hauth]
  | case7 =>
    left
    unfold pollEnable
    split <;> rfl
  | case9 =>
    cases hact
    exact mailbox_pollTake true i p w
  | case10 =>
    cases hact
    exact mailbox_pollTake false i p w
  | case20 choice outcome =>
    left
    unfold pollRelease
    split
    · exact mailbox_notifyOne _ _ _
    · rfl
    · rfl
  | _ => exact .inl rfl

theorem follows_call (hnow : now ≤ w.clock) (hfree : w.sending = none) {c : Call}
    (hc : (WorldOp.call c now).Faultless) : w.Follows verify (.call c now) := by
  have hstep : w.step verify (.call c now) = w.callStep verify now c := if_pos ⟨hfree, hnow⟩
  unfold Follows
  rw [hstep]
  cases c with
  | send fails req =>
    left
    dsimp only [callStep]
    split
    · rfl
    · rfl
  | pull fails uin ts sig =>
    cases hauth : pullAuth verify fails uin ts sig now w.db with
    | error e =>
      left
      simp only [callStep, pulled, hauth, pull_of_refused hauth, mailbox, List.append_nil]
    | ok device =>
      refine .inr ⟨.take (uin, device) now, ?_, fun htimely => htimely device hauth⟩
      simp only [callStep, pulled, hauth, pull_of_accepted hc hauth, mailbox, Mailbox.step,
        hnow, if_true, Db.touch, ← Slot.isPending_eq]
  | gc fault =>
    cases hc
    refine .inr ⟨.expire now, ?_, fun _ => trivial⟩
    simp only [callStep, gc, mailbox, Mailbox.step, hnow, if_true]
    rfl

variable (verify) in
theorem follows (hw : w.Current) (hs : Mailbox.Sound Slot.key Slot.expiresAt maxSlots w.mailbox)
    (hop : op.Faultless) : w.Follows verify op := by
  cases op with
  | tick now =>
    by_cases hclock : w.clock ≤ now
    · refine .inr ⟨.tick now, ?_, fun _ => trivial⟩
      simp only [step, hclock, if_true, mailbox, Mailbox.step, max_eq_right hclock]
    · left
      simp only [step, hclock, if_false]
  | call c now =>
    by_cases hguard : w.sending = none ∧ now ≤ w.clock
    · exact follows_call hguard.2 hguard.1 hop
    · exact .inl (congrArg mailbox (if_neg hguard))
  | send act =>
    unfold Follows
    dsimp only [step]
    split
    · rename_i flight hflight
      fun_cases sendStep flight w act with
      | case1 pendingFault insertFault env rest =>
        obtain ⟨rfl, rfl⟩ := hop
        rcases mailbox_sendStore (hw flight hflight) env rest with hsame | ⟨slot, hinsert⟩
        · exact .inl hsame
        · exact .inr ⟨_, hinsert, fun _ => trivial⟩
      | case3 choice pk => exact .inl (mailbox_wake _ _ _)
      | case5 =>
        cases hop
        exact .inl rfl
      | _ => exact .inl rfl
    · exact .inl rfl
  | pollCall uin ts sig => exact .inl rfl
  | poll i act =>
    unfold Follows
    dsimp only [step]
    split
    · rename_i p _
      rcases mailbox_pollStep i p hop with hsame | htake
      · exact .inl hsame
      · exact .inr ⟨_, htake, fun _ t ht _ => hs.readings t ht⟩
    · exact .inl rfl

/-- What every step without faults keeps. -/
structure Sound (w : World) : Prop where
  current : w.Current
  sound : Mailbox.Sound Slot.key Slot.expiresAt maxSlots w.mailbox
  settled : Mailbox.Settled Slot.key Slot.expiresAt w.mailbox

theorem sound_start {db : Db} {clock : Int64}
    (hcap : ∀ uin device, db.slots.count (Slot.isPending uin device clock) ≤ maxSlots) :
    (start db clock).Sound where
  current := nofun
  sound := Mailbox.sound_start fun key => by
    rw [← Slot.isPending_eq]
    exact hcap key.1 key.2
  settled := nofun

theorem Sound.step (h : w.Sound) (hop : op.Faultless) : (w.step verify op).Sound := by
  rcases follows verify h.current h.sound hop with hsame | ⟨o, ho, -⟩
  · exact ⟨h.current.step op, hsame ▸ h.sound, hsame ▸ h.settled⟩
  · exact ⟨h.current.step op, ho ▸ h.sound.step o, ho ▸ h.settled.step h.sound o⟩

theorem InOrder.step (h : w.InOrder) (hw : w.Sound) (hop : op.Faultless)
    (htimely : w.Timely verify op) : (w.step verify op).InOrder := by
  have hbox : Mailbox.InOrder w.mailbox := h
  change Mailbox.InOrder (w.step verify op).mailbox
  rcases follows verify hw.current hw.sound hop with hsame | ⟨o, ho, htimely'⟩
  · rw [hsame]
    exact hbox
  · rw [ho]
    exact hbox.step hw.settled o (htimely' htimely)

theorem Sound.conserved (h : w.Sound) : w.Conserved where
  ordered := h.sound.ordered
  once := h.sound.once
  addressed := by
    intro t ht r hr
    obtain ⟨hmem, -, haddr⟩ := h.sound.taken_mem t ht r hr
    refine ⟨hmem, ?_⟩
    rw [← haddr]
    simp [Slot.isFor, Slot.key]
  kept := by
    intro r hr
    rcases h.sound.kept r hr with hrow | htaken | hexpired
    · exact .inr (.inl hrow)
    · exact .inl htaken
    · exact .inr (.inr (decide_eq_false (not_lt.mpr hexpired)))
  capped := by
    intro uin device
    have hcapped := h.sound.capped (uin, device)
    rwa [← Slot.isPending_eq] at hcapped

end Steps

end World

section Main

variable (verify : String → String → String → Bool)

/-- In every run without faults, at every moment: every slot stored was returned, is in the
table or has expired, it is returned at most once and to its device, and no device has more
than its share of slots. When no pull works with an older reading of the clock than an
earlier call for the same device, the slots of a device are returned in order. -/
theorem slots_conserved {db : Db} {clock : Int64}
    (hcap : ∀ uin device, db.slots.count (Slot.isPending uin device clock) ≤ maxSlots)
    {ops : List WorldOp} (hfaultless : ∀ op ∈ ops, op.Faultless) :
    (∀ w ∈ ops.scanl (World.step verify) (.start db clock), w.Conserved) ∧
      (Run.Along (World.step verify) (World.Timely verify) (.start db clock) ops →
        ∀ w ∈ ops.scanl (World.step verify) (.start db clock), w.InOrder) := by
  have halong : Run.Along (World.step verify) (fun _ op => op.Faultless) (.start db clock) ops :=
    Run.along_of_forall (fun op hop _ => hfaultless op hop) _
  have hstart := World.sound_start hcap
  constructor
  · intro w hw
    have hsound := Run.invariant_scanl (I := World.Sound) (fun _ _ h hop => h.step hop) hstart
      halong w hw
    exact hsound.conserved
  · intro htimely w hw
    have horder := Run.invariant_scanl (I := fun w => w.Sound ∧ w.InOrder)
      (fun _ _ h hop => ⟨h.1.step hop.1, h.2.step h.1 hop.1 hop.2⟩)
      ⟨hstart, fun _ => .nil⟩ (Run.along_and halong htimely) w hw
    exact horder.2

end Main

/-! Two slots for one device, stored a second apart, and two pulls a week later. The first
slot expires just then. -/

def sampleSend (ciphertext : String) (now : Int64) : List WorldOp :=
  [.call (.send (fun _ => none) (sampleRequest [⟨sampleKey 'c', ciphertext⟩])) now,
    .send (.store none none), .send (.wake 0), .send (.finish none)]

def samplePull (now : Int64) : WorldOp :=
  .call (.pull (fun _ => none) "20000" now (sampleKey 'd' ++ "/" ++ pullCanonical "20000" now)) now

def sampleWeek : List WorldOp :=
  sampleSend "one" 1000 ++ [.tick 1001] ++ sampleSend "two" 1001 ++ [.tick 605800]

theorem faultless_sampleWeek : ∀ op ∈ sampleWeek, op.Faultless := by
  simp [sampleWeek, sampleSend, WorldOp.Faultless]

theorem slots_conserved_week :
    ((sampleWeek ++ [samplePull 605800]).foldl (World.step sampleVerify)
        (.start sampleDb 1000)).returned.length = 1 ∧
      (∀ w ∈ (sampleWeek ++ [samplePull 605800]).scanl (World.step sampleVerify)
        (.start sampleDb 1000), w.Conserved) ∧
      ∀ w ∈ (sampleWeek ++ [samplePull 605800]).scanl (World.step sampleVerify)
        (.start sampleDb 1000), w.InOrder := by
  have hcap : ∀ uin device,
      sampleDb.slots.count (Slot.isPending uin device 1000) ≤ maxSlots := by
    intro uin device
    exact Nat.zero_le _
  have hfaultless : ∀ op ∈ sampleWeek ++ [samplePull 605800], op.Faultless := by
    intro op hop
    rcases List.mem_append.mp hop with hop | hop
    · exact faultless_sampleWeek op hop
    · rw [List.mem_singleton.mp hop]
      exact fun _ => rfl
  have h := slots_conserved sampleVerify hcap hfaultless
  refine ⟨by decide +kernel, h.1, h.2 (Run.along_append.mpr ⟨?_, ?_, trivial⟩)⟩
  · apply Run.along_of_forall
    simp [sampleWeek, sampleSend, World.Timely]
  · -- nothing was returned before
    have hnone : (sampleWeek.foldl (World.step sampleVerify) (.start sampleDb 1000)).returned =
        [] := by decide +kernel
    intro device _ t ht
    rw [hnone] at ht
    cases ht

/-- The second pull has read the clock a second earlier and gets the connection last. It
returns the older slot after the younger one. -/
theorem not_slots_inOrder_week :
    (∀ op ∈ sampleWeek ++ [samplePull 605800, samplePull 605799], op.Faultless) ∧
      ¬((sampleWeek ++ [samplePull 605800, samplePull 605799]).foldl (World.step sampleVerify)
        (.start sampleDb 1000)).InOrder := by
  constructor
  · intro op hop
    rcases List.mem_append.mp hop with hop | hop
    · exact faultless_sampleWeek op hop
    · simp only [List.mem_cons, List.not_mem_nil, or_false] at hop
      rcases hop with rfl | rfl
      · exact fun _ => rfl
      · exact fun _ => rfl
  · intro h
    have horder := h ("20000", sampleKey 'c')
    revert horder
    decide +kernel

end Mesh

end Fcore
