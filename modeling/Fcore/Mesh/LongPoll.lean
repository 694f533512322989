import Fcore.Lib.Run
import Fcore.Mesh.Send
import Fcore.Mesh.World

/-!
# Wake-ups in long polling

A poll that finds no slots waits until a send wakes it. It puts its future into the queue of
its device before it looks for slots, so a slot it did not see wakes it or another poll of
the device, and a poll that is notified takes all slots there are. `Heard` is what holds of
a device at every moment: while a poll waits and there is a slot to take, another poll has
been notified and has yet to take slots, or a send is about to notify one.

A poll that was notified and does not use the notification passes it on when it drops its
future. But one that has used it and whose statement then fails returns the error, and the
notification is lost with it. So no wake-up is lost as long as no statement of such a poll
fails.
-/

namespace Fcore

namespace Mesh

namespace World

def HasSlot (key : String × String) (w : World) : Prop :=
  ∃ r ∈ w.db.slots.rows, r.2.isPending key.1 key.2 w.clock = true

/-- A send is about to wake a poll of a device. -/
def Waking (key : String × String) (w : World) : Prop :=
  ∃ flight pk, w.sending = some flight ∧ flight.waking = some pk ∧
    (flight.sending.toUin, pk) = key

/-- While a poll of the device waits for slots that are there, another poll owes to take
them or is about to be woken. -/
def Heard (key : String × String) (w : World) : Prop :=
  ∀ p ∈ w.calls, p.key = key → p.phase = .parked → p.fut = .waiting → w.HasSlot key →
    (∃ q ∈ w.calls, q.key = key ∧ q.Owes) ∨ w.Waking key

end World

def PollPhase.isEarly : PollPhase → Bool
  | .called | .authed | .entered | .subscribed => true
  | _ => false

/-- The poll has used up its notification and not taken slots since. -/
def Poll.isSpent (p : Poll) : Bool := decide (p.fut = .done) && !p.served

/-- What holds of a poll by itself: its future is in no queue before it is enabled, in the
queue of a notifier that exists afterwards, and in none when the poll is over. And a poll that
has used up its notification is about to take slots. -/
structure Poll.Wired (notifies : Table (String × String) Bool) (p : Poll) : Prop where
  fresh : p.phase.isEarly = true → p.fut = .idle
  known : p.phase = .subscribed ∨ p.fut = .waiting → p.key ∈ notifies
  ended : p.phase.isOver = true → p.fut ≠ .waiting
  spent : p.isSpent = true → p.phase = .enabled ∨ p.phase = .woken

variable {notifies : Table (String × String) Bool}

theorem Poll.isSpent_of_ne {p : Poll} (h : p.fut ≠ .done) : p.isSpent = false := by
  simp [Poll.isSpent, h]

theorem Poll.Wired.mono {p : Poll} {notifies' : Table (String × String) Bool}
    (h : p.Wired notifies) (hsub : ∀ key ∈ notifies, key ∈ notifies') : p.Wired notifies' :=
  ⟨h.fresh, fun hp => hsub _ (h.known hp), h.ended, h.spent⟩

theorem Poll.wired_of_idle {p : Poll} (hidle : p.fut = .idle)
    (hknown : p.phase = .subscribed → p.key ∈ notifies) : p.Wired notifies where
  fresh _ := hidle
  known := by
    rintro (hphase | hfut)
    · exact hknown hphase
    · cases hidle.symm.trans hfut
  ended _ := by
    rw [hidle]
    decide
  spent h := by
    rw [Poll.isSpent_of_ne (by rw [hidle]; decide)] at h
    cases h

theorem Poll.wired_of_late {p : Poll} (hlate : p.phase.isEarly = false)
    (hknown : p.fut = .waiting → p.key ∈ notifies)
    (hover : p.phase.isOver = true → p.fut ≠ .waiting)
    (hspent : p.isSpent = true → p.phase = .enabled ∨ p.phase = .woken) : p.Wired notifies where
  fresh hearly := by
    rw [hlate] at hearly
    cases hearly
  known := by
    rintro (hphase | hfut)
    · rw [hphase] at hlate
      cases hlate
    · exact hknown hfut
  ended := hover
  spent := hspent

theorem Poll.Wired.late {p : Poll} (h : p.Wired notifies) {phase : PollPhase} {served : Bool}
    (hlate : phase.isEarly = false) (hover : phase.isOver = true → p.fut ≠ .waiting)
    (hspent : p.fut = .done → served = true) :
    Poll.Wired notifies { p with phase := phase, served := served } := by
  refine Poll.wired_of_late hlate (fun hfut => h.known (.inr hfut)) hover fun hisSpent => ?_
  obtain ⟨hdone, hnot⟩ := Bool.and_eq_true_iff.mp hisSpent
  rw [show served = true from hspent (of_decide_eq_true hdone)] at hnot
  cases hnot

theorem Poll.Wired.served {p : Poll} (h : p.Wired notifies) (henabled : p.phase ≠ .enabled)
    (hwoken : p.phase ≠ .woken) (hdone : p.fut = .done) : p.served = true := by
  by_contra hnot
  rcases h.spent (by simp [Poll.isSpent, hdone, hnot]) with hphase | hphase
  · exact henabled hphase
  · exact hwoken hphase

theorem Poll.not_owes_of_idle {p : Poll} (h : p.fut = .idle) : ¬p.Owes := by
  simp [Poll.Owes, h]

namespace World

/-- The statement of a poll fails that has used up its notification and not taken slots
since. -/
def takesSpent (w : World) : WorldOp → Bool
  | .poll i (.take (some _)) => w.sending.isNone && (w.calls[i]?).any Poll.isSpent
  | _ => false

structure Alert (w : World) : Prop where
  wired : ∀ p ∈ w.calls, p.Wired w.notifies
  heard : ∀ key, w.Heard key

variable {p' : Poll} {flight : InFlight}

section Frame

variable {w w' : World} {key : String × String}

theorem Heard.of_calls_eq (h : w.Heard key) (hcalls : w'.calls = w.calls)
    (hslot : w'.HasSlot key → w.HasSlot key ∨ w'.Waking key)
    (hwaking : w.Waking key → w'.Waking key) : w'.Heard key := by
  intro p hp hkey hphase hfut hhas
  rw [hcalls] at hp ⊢
  rcases hslot hhas with hhas | hwake
  · exact (h p hp hkey hphase hfut hhas).imp_right hwaking
  · exact .inr hwake

theorem Alert.shrink (h : w.Alert) (hcalls : w'.calls = w.calls)
    (hnotifies : w'.notifies = w.notifies) (hslot : ∀ key, w'.HasSlot key → w.HasSlot key)
    (hwaking : ∀ key, w.Waking key → w'.Waking key) : w'.Alert where
  wired := by
    rw [hcalls, hnotifies]
    exact h.wired
  heard := fun key => (h.heard key).of_calls_eq hcalls (fun hhas => .inl (hslot key hhas))
    (hwaking key)

/-- One poll moves on. When it owed to take slots, then it still does or there are none
left for its device. -/
theorem Heard.replace {p : Poll} (h : w.Heard key) (hrep : Notify.Replaced p p' w.calls w'.calls)
    (hslot : w'.HasSlot key → w.HasSlot key) (hwaking : w.Waking key → w'.Waking key)
    (hparked : p'.key = key → p'.phase = .parked → p'.fut = .waiting → ¬w'.HasSlot key)
    (howes : p.key = key → p.Owes → p'.key = key ∧ p'.Owes ∨ ¬w'.HasSlot key) : w'.Heard key := by
  intro q hq hkey hphase hfut hhas
  rcases hrep.eq_or_mem_old hq with rfl | hq
  · exact absurd hhas (hparked hkey hphase hfut)
  · rcases h q hq hkey hphase hfut (hslot hhas) with ⟨o, ho, hokey, howing⟩ | hwake
    · rcases hrep.eq_or_mem_new ho with rfl | ho
      · rcases howes hokey howing with hnew | hnone
        · exact .inl ⟨p', hrep.mem_new, hnew⟩
        · exact absurd hhas hnone
      · exact .inl ⟨o, ho, hokey, howing⟩
    · exact .inr (hwaking hwake)

theorem wired_replace {calls calls' : List Poll}
    {notifies notifies' : Table (String × String) Bool} {p : Poll}
    (h : ∀ q ∈ calls, q.Wired notifies) (hrep : Notify.Replaced p p' calls calls')
    (hsub : ∀ key ∈ notifies, key ∈ notifies') (hp' : p'.Wired notifies') :
    ∀ q ∈ calls', q.Wired notifies' := by
  intro q hq
  rcases hrep.eq_or_mem_old hq with rfl | hq
  · exact hp'
  · exact (h q hq).mono hsub

/-- A poll moves on without taking slots and without coming to wait. -/
theorem Alert.move {p : Poll} (h : w.Alert) (hrep : Notify.Replaced p p' w.calls w'.calls)
    (hslots : w'.db.slots = w.db.slots) (hclock : w'.clock = w.clock)
    (hsending : w'.sending = w.sending) (hsub : ∀ key ∈ w.notifies, key ∈ w'.notifies)
    (hp' : p'.Wired w'.notifies) (hparked : p'.phase ≠ .parked)
    (howes : p.Owes → p'.key = p.key ∧ p'.Owes) : w'.Alert where
  wired := wired_replace h.wired hrep hsub hp'
  heard := by
    intro key
    apply (h.heard key).replace hrep
    · simp only [HasSlot, hslots, hclock, imp_self]
    · simp only [Waking, hsending, imp_self]
    · intro _ hphase
      exact absurd hphase hparked
    · intro hkey hp
      exact .inl ⟨(howes hp).1.trans hkey, (howes hp).2⟩

theorem Alert.drain {p : Poll} (h : w.Alert) (hrep : Notify.Replaced p p' w.calls w'.calls)
    (hslots : w'.db.slots = w.db.slots.deleteWhere (Slot.isPending p.uin p.device w.clock))
    (hclock : w'.clock = w.clock) (hsending : w'.sending = w.sending)
    (hnotifies : w'.notifies = w.notifies) (hp' : p'.Wired w.notifies) (hkey : p'.key = p.key) :
    w'.Alert := by
  have hmem : ∀ r ∈ w'.db.slots.rows, r ∈ w.db.slots.rows ∧
      r.2.isPending p.uin p.device w.clock = false := by
    intro r hr
    rw [hslots] at hr
    simpa using List.mem_filter.mp hr
  have hnone : ¬w'.HasSlot p.key := by
    rintro ⟨r, hr, hpending⟩
    rw [hclock] at hpending
    exact absurd hpending (by simpa [Poll.key] using (hmem r hr).2)
  constructor
  · rw [hnotifies]
    exact wired_replace h.wired hrep (fun _ h => h) hp'
  · intro key
    apply (h.heard key).replace hrep
    · rintro ⟨r, hr, hpending⟩
      rw [hclock] at hpending
      exact ⟨r, (hmem r hr).1, hpending⟩
    · simp only [Waking, hsending, imp_self]
    · rintro rfl _ _
      exact hkey ▸ hnone
    · rintro rfl _
      exact .inr hnone

end Frame

section Steps

variable {w : World} {i : ℕ} {p : Poll}

theorem alert_notifyOne {key : String × String} (hwired : ∀ p ∈ w.calls, p.Wired w.notifies)
    (hheard : ∀ key' ≠ key, w.Heard key') (choice : ℕ) : (w.notifyOne key choice).Alert := by
  unfold notifyOne
  cases hwake : Notify.wakeOne (Poll.awaits key) Poll.notify choice w.calls with
  | some calls =>
    obtain ⟨p, hwaits, hrep⟩ := Notify.wakeOne_eq_some hwake
    simp only [Poll.awaits, Bool.and_eq_true, decide_eq_true_eq] at hwaits
    have hp := hwired p hrep.mem
    constructor
    · apply wired_replace hwired hrep (fun _ h => h)
      refine ⟨fun hearly => ?_, fun _ => hp.known (.inr hwaits.2), fun _ => ?_, fun hspent => ?_⟩
      · have hidle := hp.fresh hearly
        rw [hwaits.2] at hidle
        cases hidle
      · exact Notified.noConfusion
      · cases hspent
    · intro key'
      by_cases hkey : key' = key
      · intro q _ _ _ _ _
        have hnotOver : p.phase.isOver = false := by
          by_contra hover
          exact hp.ended (by simpa using hover) hwaits.2
        exact .inl ⟨p.notify, hrep.mem_new, hwaits.1.trans hkey.symm, .inl rfl, rfl, hnotOver⟩
      · refine (hheard key' hkey).replace hrep id id ?_ ?_
        · intro hp'
          exact absurd (hp'.symm.trans hwaits.1) hkey
        · intro hp'
          exact absurd (hp'.symm.trans hwaits.1) hkey
  | none =>
    have hnone := Notify.wakeOne_eq_none hwake
    constructor
    · intro p hp
      exact (hwired p hp).mono fun key' hkey' => AList.mem_insert _ |>.mpr (.inr hkey')
    · intro key'
      by_cases hkey : key' = key
      · intro q hq hqkey _ hfut _
        have hnot := hnone q hq
        simp [Poll.awaits, hqkey, hkey, hfut] at hnot
      · exact (hheard key' hkey).of_calls_eq rfl .inl id

theorem alert_wake {key : String × String} (hwired : ∀ p ∈ w.calls, p.Wired w.notifies)
    (hheard : ∀ key' ≠ key, w.Heard key') (choice : ℕ) : (w.wake key choice).Alert := by
  unfold wake
  split
  · exact alert_notifyOne hwired hheard choice
  · rename_i hnot
    refine ⟨hwired, fun key' => ?_⟩
    by_cases hkey : key' = key
    · intro q hq hqkey _ hfut _
      exact absurd (hqkey.trans hkey ▸ (hwired q hq).known (.inr hfut)) hnot
    · exact hheard key' hkey

theorem Alert.pollTake (h : w.Alert) (hp : w.calls[i]? = some p) {fault : Option String}
    (hfault : fault.isSome = true → p.isSpent = false) (first : Bool) :
    (w.pollTake fault first i p).Alert := by
  have hwired := h.wired p (List.mem_of_getElem? hp)
  unfold World.pollTake
  cases htake : takeSlots fault p.uin p.device w.clock w.db.slots with
  | error e =>
    have hserved : p.fut = .done → p.served = true := by
      intro hdone
      have hfails : fault.isSome = true := by
        cases fault with
        | none => cases htake
        | some msg => rfl
      simpa [Poll.isSpent, hdone] using hfault hfails
    refine h.move (Notify.replaced_set hp _) rfl rfl rfl (fun _ h => h)
      (hwired.late rfl nofun hserved) ?_ ?_
    · exact fun hparked => nomatch hparked
    · exact fun howes => ⟨rfl, howes.1, howes.2.1, rfl⟩
  | ok taken =>
    obtain ⟨-, rfl⟩ := takeSlots_eq_ok_iff.mp htake
    dsimp only
    split
    · exact h.drain (Notify.replaced_set hp _) rfl rfl rfl rfl
        (hwired.late rfl nofun fun _ => rfl) rfl
    · exact h.drain (Notify.replaced_set hp _) rfl rfl rfl rfl
        (hwired.late rfl nofun fun _ => rfl) rfl

theorem Alert.pollEnable (h : w.Alert) (hp : w.calls[i]? = some p)
    (hphase : p.phase = .subscribed) : (w.pollEnable i p).Alert := by
  have hwired := h.wired p (List.mem_of_getElem? hp)
  have hidle : p.fut = .idle := hwired.fresh (by rw [hphase]; rfl)
  have hknown := hwired.known (.inl hphase)
  unfold World.pollEnable
  split
  · refine h.move (Notify.replaced_set hp _) rfl rfl rfl ?_ ?_ ?_ ?_
    · exact fun key hkey => (AList.mem_insert _).mpr (.inr hkey)
    · exact Poll.wired_of_late rfl (fun _ => (AList.mem_insert _).mpr (.inl rfl)) nofun
        fun _ => .inl rfl
    · exact fun hparked => nomatch hparked
    · exact fun howes => absurd howes (Poll.not_owes_of_idle hidle)
  · refine h.move (Notify.replaced_set hp _) rfl rfl rfl (fun _ h => h) ?_ ?_ ?_
    · exact Poll.wired_of_late rfl (fun _ => hknown) nofun fun _ => .inl rfl
    · exact fun hparked => nomatch hparked
    · exact fun howes => absurd howes (Poll.not_owes_of_idle hidle)

theorem Alert.pollRelease (h : w.Alert) (hp : w.calls[i]? = some p) (choice : ℕ)
    {outcome : Outcome} (hphase : p.phase = .ending outcome) :
    (w.pollRelease choice outcome i p).Alert := by
  have hwired := h.wired p (List.mem_of_getElem? hp)
  unfold World.pollRelease
  split
  · apply alert_notifyOne
    · apply wired_replace h.wired (Notify.replaced_set hp _) (fun _ h => h)
      exact Poll.wired_of_idle rfl fun hsubscribed => nomatch hsubscribed
    · intro key hkey
      refine (h.heard key).replace (Notify.replaced_set hp _) id id ?_ ?_
      · exact fun _ hparked => nomatch hparked
      · exact fun hp' => absurd hp'.symm hkey
  · rename_i hdone
    have hserved := hwired.served (by rw [hphase]; exact nofun) (by rw [hphase]; exact nofun) hdone
    refine h.move (Notify.replaced_set hp _) rfl rfl rfl (fun _ h => h)
      (hwired.late rfl (fun _ => by rw [hdone]; exact nofun) fun _ => hserved) ?_ ?_
    · exact fun hparked => nomatch hparked
    · intro howes
      cases hserved.symm.trans howes.2.1
  · rename_i hnotified hdone
    refine h.move (Notify.replaced_set hp _) rfl rfl rfl (fun _ h => h) ?_ ?_ ?_
    · exact Poll.wired_of_idle rfl fun hsubscribed => nomatch hsubscribed
    · exact fun hparked => nomatch hparked
    · intro howes
      rcases howes.1 with hfut | hfut
      · exact absurd hfut hnotified
      · exact absurd hfut hdone

variable {verify : String → String → String → Bool}

theorem Alert.pollAuthed (h : w.Alert) (hp : w.calls[i]? = some p) (hphase : p.phase = .called)
    (fails : PullStmt → Option String) (now : Int64) :
    (w.pollAuthed verify fails now i p).Alert := by
  have hwired := h.wired p (List.mem_of_getElem? hp)
  have hidle : p.fut = .idle := hwired.fresh (by rw [hphase]; rfl)
  unfold World.pollAuthed
  cases hauth : pollAuth verify fails p.uin p.ts p.sig now w.db with
  | error e =>
    refine h.move (Notify.replaced_set hp _) rfl rfl rfl (fun _ h => h)
      (Poll.wired_of_idle hidle nofun) ?_ ?_
    · exact fun hparked => nomatch hparked
    · exact fun howes => absurd howes (Poll.not_owes_of_idle hidle)
  | ok authed =>
    refine h.move (Notify.replaced_set hp _) (pollAuth_slots hauth) rfl rfl (fun _ h => h)
      (Poll.wired_of_idle hidle nofun) ?_ ?_
    · exact fun hparked => nomatch hparked
    · exact fun howes => absurd howes (Poll.not_owes_of_idle hidle)

theorem Alert.pollStep (h : w.Alert) (hp : w.calls[i]? = some p) {act : PollAct}
    (hact : ∀ msg, act = .take (some msg) → w.sending = none → p.isSpent = false) :
    (w.pollStep verify i p act).Alert := by
  have hwired := h.wired p (List.mem_of_getElem? hp)
  -- a poll that does not get to its future
  have hquiet : ∀ {phase : PollPhase} {notifies polls}, p.fut = .idle →
      (phase = .subscribed → p.key ∈ notifies) → phase ≠ .parked →
      (∀ key ∈ w.notifies, key ∈ notifies) →
      (setPoll i { p with phase := phase } { w with notifies := notifies, polls := polls }).Alert :=
    fun hidle hknown hparked hsub =>
      h.move (Notify.replaced_set hp _) rfl rfl rfl hsub (Poll.wired_of_idle hidle hknown) hparked
        fun howes => absurd howes (Poll.not_owes_of_idle hidle)
  -- a poll that stops waiting without having been chosen
  have hends : ∀ outcome, p.phase = .parked →
      (w.setPoll i { p with phase := .ending outcome }).Alert := by
    intro outcome hphase
    have hserved := hwired.served (by simp [hphase]) (by simp [hphase])
    refine h.move (Notify.replaced_set hp _) rfl rfl rfl (fun _ h => h)
      (hwired.late rfl (by simp [PollPhase.isOver]) hserved) (by simp) ?_
    exact fun howes => ⟨rfl, howes.1, howes.2.1, rfl⟩
  fun_cases World.pollStep verify i p w act with
  | case1 fails now hguard => exact h.pollAuthed hp hguard.1 fails now
  | case3 hphase | case17 hphase =>
    have hidle := hwired.fresh (by rw [hphase]; rfl)
    exact hquiet hidle (by simp) (by simp) fun _ h => h
  | case5 hphase =>
    refine hquiet (hwired.fresh (by rw [hphase]; rfl)) (fun _ => ?_) (by simp) fun key hkey => ?_
    · split
      · assumption
      · exact (AList.mem_insert _).mpr (.inl rfl)
    · split
      · exact hkey
      · exact (AList.mem_insert _).mpr (.inr hkey)
  | case7 hphase => exact h.pollEnable hp hphase
  | case9 fault hfree | case10 fault hfree =>
    refine h.pollTake hp (fun hfails => ?_) _
    obtain ⟨msg, rfl⟩ := Option.isSome_iff_exists.mp hfails
    exact hact msg rfl hfree
  | case13 =>
    refine h.move (Notify.replaced_set hp _) rfl rfl rfl (fun _ h => h) ?_ ?_ ?_
    · exact Poll.wired_of_late rfl (by simp) (by simp) fun _ => .inr rfl
    · rintro ⟨⟩
    · exact fun howes => ⟨rfl, .inr rfl, howes.2.1, rfl⟩
  | case15 hphase | case18 hphase => exact hends _ hphase
  | case20 choice outcome hphase => exact h.pollRelease hp choice hphase
  | case22 outcome hphase =>
    have hserved := hwired.served (by simp [hphase]) (by simp [hphase])
    refine h.move (Notify.replaced_set hp _) rfl rfl rfl (fun _ h => h)
      (hwired.late rfl (fun _ => hwired.ended (by rw [hphase]; rfl)) hserved) (by simp) ?_
    intro howes
    rw [Poll.Owes, hphase] at howes
    cases howes.2.2
  | _ => exact h

theorem not_waking (hflight : w.sending = some flight) (hwaking : flight.waking = none)
    (key : String × String) : ¬w.Waking key := by
  rintro ⟨flight', pk, hflight', hpk, -⟩
  cases hflight.symm.trans hflight'
  cases hwaking.symm.trans hpk

theorem Alert.sendStore (h : w.Alert) (hflight : w.sending = some flight)
    (hwaking : flight.waking = none) (pendingFault insertFault : Option String) (env : Envelope)
    (rest : List Envelope) : (w.sendStore pendingFault insertFault flight env rest).Alert := by
  have hnot := not_waking hflight hwaking
  unfold World.sendStore
  cases hstore : storeEnvelope pendingFault insertFault flight.sending env w.db.slots with
  | error e => exact h.shrink rfl rfl (fun _ h => h) fun key hwake => absurd hwake (hnot key)
  | ok stored =>
    obtain ⟨pk, -, -, -, -, -, -, rfl⟩ := storeEnvelope_eq_ok_iff.mp hstore
    refine ⟨h.wired, fun key => (h.heard key).of_calls_eq rfl ?_ fun hwake =>
      absurd hwake (hnot key)⟩
    -- the new slot is for the device that the send wakes next
    rintro ⟨r, hr, hpending⟩
    rcases List.mem_append.mp hr with hr | hr
    · exact .inl ⟨r, hr, hpending⟩
    · rw [List.mem_singleton.mp hr] at hpending
      simp only [RowTable.next, Slot.isPending, Slot.isFor, Sending.slot, Bool.and_eq_true,
        beq_iff_eq] at hpending
      exact .inr ⟨_, pk, rfl, rfl, Prod.ext hpending.1.1 hpending.1.2⟩

theorem Alert.sendStep (h : w.Alert) (hflight : w.sending = some flight) (act : SendAct) :
    (w.sendStep flight act).Alert := by
  fun_cases World.sendStep flight w act with
  | case1 pendingFault insertFault env rest _ hwaking =>
    exact h.sendStore hflight hwaking pendingFault insertFault env rest
  | case3 choice pk hwaking =>
    apply alert_wake
    · exact h.wired
    · intro key hkey
      refine (h.heard key).of_calls_eq rfl .inl ?_
      rintro ⟨flight', pk', hflight', hpk', rfl⟩
      cases hflight.symm.trans hflight'
      cases hwaking.symm.trans hpk'
      exact absurd rfl hkey
  | case5 fault _ hwaking =>
    have hnot := not_waking hflight hwaking
    cases fault with
    | none => exact h.shrink rfl rfl (fun _ h => h) fun key hwake => absurd hwake (hnot key)
    | some msg => exact h.shrink rfl rfl (fun _ h => h) fun key hwake => absurd hwake (hnot key)
  | _ => exact h

theorem Alert.callStep (h : w.Alert) (hfree : w.sending = none) (now : Int64) (c : Call) :
    (w.callStep verify now c).Alert := by
  have hnot : ∀ key, ¬w.Waking key := by
    rintro key ⟨flight, pk, hflight, -, -⟩
    cases hfree.symm.trans hflight
  cases c with
  | send fails req =>
    dsimp only [World.callStep]
    split
    · exact h
    · exact h.shrink rfl rfl (fun _ h => h) fun key hwake => absurd hwake (hnot key)
  | pull fails uin ts sig =>
    refine h.shrink rfl rfl ?_ ?_
    · rintro key ⟨r, hr, hpending⟩
      exact ⟨r, rows_pull_subset r hr, hpending⟩
    · exact fun key hwake => absurd hwake (hnot key)
  | gc fault =>
    refine h.shrink rfl rfl ?_ ?_
    · rintro key ⟨r, hr, hpending⟩
      exact ⟨r, rows_gc_subset r hr, hpending⟩
    · exact fun key hwake => absurd hwake (hnot key)

theorem Alert.step (h : w.Alert) {op : WorldOp} (hop : w.takesSpent op = false) :
    (w.step verify op).Alert := by
  fun_cases World.step verify w op with
  | case1 now hclock =>
    refine h.shrink rfl rfl ?_ fun _ h => h
    rintro key ⟨r, hr, hpending⟩
    simp only [Slot.isPending, Slot.isLive, Bool.and_eq_true, decide_eq_true_eq] at hpending
    refine ⟨r, hr, ?_⟩
    simp only [Slot.isPending, Slot.isLive, Bool.and_eq_true, decide_eq_true_eq]
    exact ⟨hpending.1, Int64.lt_of_le_of_lt hclock hpending.2⟩
  | case3 c now hguard => exact h.callStep hguard.1 now c
  | case5 act flight hflight => exact h.sendStep hflight act
  | case7 uin ts sig =>
    constructor
    · intro p hp
      rcases List.mem_append.mp hp with hp | hp
      · exact h.wired p hp
      · rw [List.mem_singleton.mp hp]
        exact Poll.wired_of_idle rfl (by simp)
    · intro key p hp hkey hphase hfut hhas
      rcases List.mem_append.mp hp with hp | hp
      · refine (h.heard key p hp hkey hphase hfut hhas).imp_left ?_
        rintro ⟨q, hq, howes⟩
        exact ⟨q, List.mem_append_left _ hq, howes⟩
      · rw [List.mem_singleton.mp hp] at hphase
        cases hphase
  | case8 i act p hp =>
    refine h.pollStep hp fun msg hact hfree => ?_
    subst hact
    simpa [takesSpent, hp, hfree] using hop
  | _ => exact h

theorem alert_start (db : Db) (clock : Int64) : (start db clock).Alert where
  wired := by simp [start]
  heard := by simp [start, Heard]

end Steps

end World

/-- Whatever sends, polls and other calls did before, as long as no statement failed of a poll
that had used up its notification: while no send is in flight and a poll waits, and no other
poll of its device has been notified without having finished taking slots or been dropped, the
table holds no unexpired slot for the device. -/
theorem no_slot_while_poll_parked (verify : String → String → String → Bool) (db : Db)
    (clock : Int64) (ops : List WorldOp)
    (hkept : Run.Along (World.step verify) (fun w op => w.takesSpent op = false)
      (.start db clock) ops) {w : World}
    (hrun : ops.foldl (World.step verify) (.start db clock) = w) (hidle : w.sending = none)
    {i : ℕ} {p : Poll} (hp : w.calls[i]? = some p) (hparked : p.phase = .parked)
    (hwaiting : p.fut = .waiting)
    (hothers : ∀ j ≠ i, ∀ q, w.calls[j]? = some q → q.key = p.key → ¬q.Owes) :
    ∀ r ∈ w.db.slots.rows, r.2.isFor p.uin p.device = true → r.2.isLive w.clock = false := by
  have halert : w.Alert := by
    rw [← hrun]
    exact Run.invariant_end (fun w op h hop => h.step hop) (World.alert_start db clock) hkept
  intro r hr hfor
  by_contra hlive
  have hhas : w.HasSlot p.key := ⟨r, hr, by simpa [Slot.isPending, hfor, Poll.key] using hlive⟩
  rcases halert.heard p.key p (List.mem_of_getElem? hp) rfl hparked hwaiting hhas with
    ⟨q, hq, hkey, howes⟩ | ⟨flight, pk, hflight, -, -⟩
  · obtain ⟨j, hj⟩ := List.mem_iff_getElem?.mp hq
    by_cases hji : j = i
    · -- the waiting poll itself owes nothing
      subst hji
      cases hp.symm.trans hj
      simp [Poll.Owes, hwaiting] at howes
    · exact hothers j hji q hj hkey howes
  · cases hidle.symm.trans hflight

/-- A poll that goes to wait. -/
def samplePark (uin : String) (now : Int64) (i : ℕ) : List WorldOp :=
  [.pollCall uin now "", .poll i (.auth (fun _ => none) now), .poll i .enter, .poll i .subscribe,
    .poll i .enable, .poll i (.take none)]

/-- A device with an expired slot. -/
def sampleMailbox : Db where
  identities := [⟨"10000", 1, "", 0⟩]
  devices := [⟨"10000", "device", "key", 0, 0⟩]
  slots := RowTable.empty.insert ⟨"10000", "device", "20000", "old", 5⟩

theorem no_slot_while_poll_parked_sample :
    ((samplePark "10000" 10 0).foldl (World.step fun _ _ _ => true)
        (.start sampleMailbox 10)).db.slots.rows.length = 1 ∧
      ∀ r ∈ ((samplePark "10000" 10 0).foldl (World.step fun _ _ _ => true)
          (.start sampleMailbox 10)).db.slots.rows,
        r.2.isFor "10000" "device" = true → r.2.isLive 10 = false := by
  refine ⟨by decide +kernel, ?_⟩
  have h := no_slot_while_poll_parked (fun _ _ _ => true) sampleMailbox 10
    (samplePark "10000" 10 0) (by decide +kernel) rfl (by decide +kernel) (i := 0)
    (p := ⟨"10000", 10, "", "device", .parked, .waiting, true⟩) (by decide +kernel) rfl rfl
    (by
      intro j hj q hq
      have hlen : ((samplePark "10000" 10 0).foldl (World.step fun _ _ _ => true)
          (.start sampleMailbox 10)).calls.length = 1 := by decide +kernel
      obtain ⟨hlt, -⟩ := List.getElem?_eq_some_iff.mp hq
      omega)
  have hclock : ((samplePark "10000" 10 0).foldl (World.step fun _ _ _ => true)
      (.start sampleMailbox 10)).clock = 10 := by decide +kernel
  rwa [hclock] at h

/-- Two polls of a device wait, a send stores a slot and wakes the first of them, and the
statement of that poll fails. -/
def sampleLost : List WorldOp :=
  samplePark "20000" 1000 0 ++ samplePark "20000" 1000 1 ++
    [.call (.send (fun _ => none) (sampleRequest [⟨sampleKey 'c', "hello"⟩])) 1000,
      .send (.store none none), .send (.wake 0), .send (.finish none), .poll 0 .complete,
      .poll 0 (.take (some "disk I/O error")), .poll 0 (.release 0), .poll 0 .leave]

/-- The first poll has returned, and the second waits while the slot is there. -/
theorem slot_while_poll_parked_lost :
    let w := sampleLost.foldl (World.step fun _ _ _ => true) (.start sampleDb 1000)
    w.sending = none ∧
      (w.calls.map fun p => (p.key, p.phase, p.fut, decide p.Owes)) =
        [(("20000", sampleKey 'c'), .ended (.failed (.internal "disk I/O error")), .done, false),
          (("20000", sampleKey 'c'), .parked, .waiting, false)] ∧
      ∃ r ∈ w.db.slots.rows,
        r.2.isFor "20000" (sampleKey 'c') = true ∧ r.2.isLive w.clock = true := by
  decide +kernel

end Mesh

end Fcore
