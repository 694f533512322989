import Fcore.Lib.Mailbox
import Fcore.Lib.Notify
import Fcore.Lib.Table
import Fcore.Mesh.Store

/-!
# Calls on one store

Sends, pulls, polls and the removal of expired slots run side by side on one store. The
connection is behind a mutex, and what a call does while it holds the mutex is one step. A send
is the exception: it holds the mutex throughout, but it wakes a poll after every slot, and the
polls take those of their steps that need no connection in the meantime. So a send is
taken apart into its check, its slots, its wake-ups and its end, and no other call gets the
connection in between.

The clock is part of the world. A send, a pull and a removal read it before they wait
for the mutex, so their reading may be any earlier one; a poll reads it again when it
takes slots. The world also keeps the history of the slots: every slot ever stored, and
what every call returned.
-/

namespace Fcore

namespace Mesh

inductive Outcome where
  | taken (rows : List (ℕ × Slot))
  | timedOut
  | failed (e : MeshError)
  | dropped
  deriving DecidableEq, Repr

/-- How far a poll has got: its device is known, its guard counts it, it has the notifier of
its device, its future is enabled, it waits in the select, the select chose the
notification. At its end it drops the future, and then the guard. -/
inductive PollPhase where
  | called
  | authed
  | entered
  | subscribed
  | enabled
  | parked
  | woken
  | ending (outcome : Outcome)
  | leaving (outcome : Outcome)
  | ended (outcome : Outcome)
  deriving DecidableEq, Repr

def PollPhase.isOver : PollPhase → Bool
  | .leaving _ | .ended _ => true
  | _ => false

structure Poll where
  uin : String
  ts : Int64
  sig : String
  device : String
  phase : PollPhase
  fut : Notified
  /-- Whether the poll has finished taking slots since it was notified. -/
  served : Bool
  deriving DecidableEq, Repr

namespace Poll

def key (p : Poll) : String × String := (p.uin, p.device)

def awaits (key : String × String) (p : Poll) : Bool :=
  decide (p.key = key) && decide (p.fut = .waiting)

def notify (p : Poll) : Poll := { p with fut := .notified, served := false }

/-- The poll was notified, has not taken slots since, and has not returned or been dropped. -/
def Owes (p : Poll) : Prop :=
  (p.fut = .notified ∨ p.fut = .done) ∧ p.served = false ∧ p.phase.isOver = false

instance (p : Poll) : Decidable p.Owes :=
  inferInstanceAs (Decidable ((p.fut = .notified ∨ p.fut = .done) ∧ p.served = false ∧
    p.phase.isOver = false))

end Poll

/-- A send that holds the connection: the envelopes left, and the device it is about to
wake. -/
structure InFlight where
  sending : Sending
  rest : List Envelope
  waking : Option String
  deriving DecidableEq, Repr

structure World where
  db : Db
  /-- The notifiers by device, and whether each keeps a notification. -/
  notifies : Table (String × String) Bool
  polls : Table (String × String) ℕ
  sending : Option InFlight
  calls : List Poll
  clock : Int64
  inserted : List (ℕ × Slot)
  returned : List (Mailbox.Taken (String × String) Int64 Slot)

/-- The steps of a poll. -/
inductive PollAct where
  | auth (fails : PullStmt → Option String) (now : Int64)
  | enter
  | subscribe
  | enable
  | take (fault : Option String)
  | complete
  | timeout
  | drop
  | release (choice : ℕ)
  | leave

inductive SendAct where
  | store (pendingFault insertFault : Option String)
  | wake (choice : ℕ)
  | finish (fault : Option String)

/-- The calls that read the clock and then wait for the connection. -/
inductive Call where
  | send (fails : SendStmt → Option String) (req : SendRequest)
  | pull (fails : PullStmt → Option String) (uin : String) (ts : Int64) (sig : String)
  | gc (fault : Option String)

inductive WorldOp where
  | tick (now : Int64)
  | call (c : Call) (now : Int64)
  | send (act : SendAct)
  | pollCall (uin : String) (ts : Int64) (sig : String)
  | poll (i : ℕ) (act : PollAct)

namespace World

def start (db : Db) (clock : Int64) : World where
  db := db
  notifies := ∅
  polls := ∅
  sending := none
  calls := []
  clock := clock
  inserted := db.slots.rows
  returned := []

def setPoll (i : ℕ) (p : Poll) (w : World) : World := { w with calls := w.calls.set i p }

/-- A notification for a device: one of its polls gets it, or its notifier keeps it. -/
def notifyOne (key : String × String) (choice : ℕ) (w : World) : World :=
  match Notify.wakeOne (Poll.awaits key) Poll.notify choice w.calls with
  | some calls => { w with calls := calls }
  | none => { w with notifies := w.notifies.insert key true }

def wake (key : String × String) (choice : ℕ) (w : World) : World :=
  if key ∈ w.notifies then w.notifyOne key choice else w

/-- A poll has taken slots that it returns. -/
def deliver (i : ℕ) (p : Poll) (rows : List (ℕ × Slot)) (slots : RowTable Slot) (w : World) :
    World :=
  setPoll i { p with phase := .ending (.taken rows), served := true }
    { w with
      db := { w.db with slots := slots }
      returned := w.returned ++ [⟨p.key, w.clock, rows⟩] }

/-- A poll takes slots. The first time it goes on when there are none. -/
def pollTake (fault : Option String) (first : Bool) (i : ℕ) (p : Poll) (w : World) : World :=
  match takeSlots fault p.uin p.device w.clock w.db.slots with
  | .error e => w.setPoll i { p with phase := .ending (.failed e) }
  | .ok taken =>
    if first && taken.1.isEmpty then
      setPoll i { p with phase := .parked, served := true }
        { w with db := { w.db with slots := taken.2 } }
    else w.deliver i p taken.1 taken.2

def pollEnable (i : ℕ) (p : Poll) (w : World) : World :=
  match w.notifies.lookup p.key with
  | some true =>
    setPoll i { p with phase := .enabled, fut := .done, served := false }
      { w with notifies := w.notifies.insert p.key false }
  | _ => w.setPoll i { p with phase := .enabled, fut := .waiting }

/-- A poll drops its future, which passes a notification on that it has not used. -/
def pollRelease (choice : ℕ) (outcome : Outcome) (i : ℕ) (p : Poll) (w : World) : World :=
  match p.fut with
  | .notified =>
    notifyOne p.key choice (w.setPoll i { p with phase := .leaving outcome, fut := .idle })
  | .done => w.setPoll i { p with phase := .leaving outcome }
  | _ => w.setPoll i { p with phase := .leaving outcome, fut := .idle }

/-- One poll less is counted for a device. -/
def uncount (key : String × String) (polls : Table (String × String) ℕ) :
    Table (String × String) ℕ :=
  match polls.lookup key with
  | none => polls
  | some n => if n - 1 = 0 then polls.erase key else polls.insert key (n - 1)

section Steps

variable (verify : String → String → String → Bool)

def pollAuthed (fails : PullStmt → Option String) (now : Int64) (i : ℕ) (p : Poll) (w : World) :
    World :=
  match pollAuth verify fails p.uin p.ts p.sig now w.db with
  | .error e => w.setPoll i { p with phase := .ended (.failed e) }
  | .ok authed =>
    setPoll i { p with device := authed.1, phase := .authed } { w with db := authed.2 }

def pollStep (i : ℕ) (p : Poll) (w : World) : PollAct → World
  | .auth fails now =>
    if p.phase = .called ∧ w.sending = none ∧ now ≤ w.clock then
      w.pollAuthed verify fails now i p
    else w
  | .enter =>
    if p.phase = .authed then
      setPoll i { p with phase := .entered }
        { w with polls := w.polls.insert p.key ((w.polls.lookup p.key).getD 0 + 1) }
    else w
  | .subscribe =>
    if p.phase = .entered then
      setPoll i { p with phase := .subscribed }
        { w with notifies :=
            if p.key ∈ w.notifies then w.notifies else w.notifies.insert p.key false }
    else w
  | .enable => if p.phase = .subscribed then w.pollEnable i p else w
  | .take fault =>
    if w.sending = none then
      match p.phase with
      | .enabled => w.pollTake fault true i p
      | .woken => w.pollTake fault false i p
      | _ => w
    else w
  | .complete =>
    if p.phase = .parked ∧ (p.fut = .notified ∨ p.fut = .done) then
      w.setPoll i { p with phase := .woken, fut := .done }
    else w
  | .timeout =>
    if p.phase = .parked then w.setPoll i { p with phase := .ending .timedOut } else w
  | .drop =>
    match p.phase with
    | .called => w.setPoll i { p with phase := .ended .dropped }
    | .parked => w.setPoll i { p with phase := .ending .dropped }
    | _ => w
  | .release choice =>
    match p.phase with
    | .ending outcome => w.pollRelease choice outcome i p
    | _ => w
  | .leave =>
    match p.phase with
    | .leaving outcome =>
      setPoll i { p with phase := .ended outcome }
        { w with polls := uncount p.key w.polls }
    | _ => w

/-- A send stores the slot of its next envelope, or ends with the error. -/
def sendStore (pendingFault insertFault : Option String) (flight : InFlight) (env : Envelope)
    (rest : List Envelope) (w : World) : World :=
  match storeEnvelope pendingFault insertFault flight.sending env w.db.slots with
  | .error _ => { w with sending := none }
  | .ok stored =>
    { w with
      db := { w.db with slots := stored.2 }
      sending := some { flight with rest := rest, waking := some stored.1 }
      inserted := w.inserted ++ [w.db.slots.next (flight.sending.slot stored.1 env)] }

def sendEnd (fault : Option String) (flight : InFlight) (w : World) : World :=
  match fault with
  | some _ => { w with sending := none }
  | none =>
    { w with db := w.db.touch flight.sending.now flight.sending.senderPk, sending := none }

/-- A step of the send that holds the connection. -/
def sendStep (flight : InFlight) (w : World) : SendAct → World
  | .store pendingFault insertFault =>
    match flight.waking, flight.rest with
    | none, env :: rest => w.sendStore pendingFault insertFault flight env rest
    | _, _ => w
  | .wake choice =>
    match flight.waking with
    | some pk =>
      wake (flight.sending.toUin, pk) choice
        { w with sending := some { flight with waking := none } }
    | none => w
  | .finish fault =>
    match flight.waking, flight.rest with
    | none, [] => w.sendEnd fault flight
    | _, _ => w

/-- What a pull that was let in for a device returns goes into the history. -/
def pulled (fails : PullStmt → Option String) (uin : String) (ts : Int64) (sig : String)
    (now : Int64) (w : World) : List (Mailbox.Taken (String × String) Int64 Slot) :=
  match pullAuth verify fails uin ts sig now w.db, (pull verify fails uin ts sig now w.db).1 with
  | .ok device, .ok rows => [⟨(uin, device), now, rows⟩]
  | _, _ => []

/-- A call gets the connection, with the clock as it has read it. -/
def callStep (now : Int64) (w : World) : Call → World
  | .send fails req =>
    match sendCheck verify fails req now w.db with
    | .error _ => w
    | .ok sending => { w with sending := some ⟨sending, req.envelopes, none⟩ }
  | .pull fails uin ts sig =>
    { w with
      db := (pull verify fails uin ts sig now w.db).2
      returned := w.returned ++ w.pulled verify fails uin ts sig now }
  | .gc fault => { w with db := gc fault now w.db }

def step (w : World) : WorldOp → World
  | .tick now => if w.clock ≤ now then { w with clock := now } else w
  | .call c now => if w.sending = none ∧ now ≤ w.clock then w.callStep verify now c else w
  | .send act =>
    match w.sending with
    | some flight => w.sendStep flight act
    | none => w
  | .pollCall uin ts sig =>
    { w with calls := w.calls ++ [⟨uin, ts, sig, "", .called, .idle, false⟩] }
  | .poll i act =>
    match w.calls[i]? with
    | some p => w.pollStep verify i p act
    | none => w

variable {verify} {w : World}

theorem pollStep_frame (i : ℕ) (p : Poll) (act : PollAct) :
    (w.pollStep verify i p act).sending = w.sending ∧
      (w.pollStep verify i p act).clock = w.clock := by
  have htake : ∀ (fault : Option String) (first : Bool),
      (w.pollTake fault first i p).sending = w.sending ∧
        (w.pollTake fault first i p).clock = w.clock := by
    intro fault first
    fun_cases pollTake fault first i p w <;> exact ⟨rfl, rfl⟩
  fun_cases pollStep verify i p w act with
  | case1 fails now =>
    unfold pollAuthed
    split <;> exact ⟨rfl, rfl⟩
  | case7 =>
    unfold pollEnable
    split <;> exact ⟨rfl, rfl⟩
  | case9 fault => exact htake fault true
  | case10 fault => exact htake fault false
  | case20 choice outcome =>
    fun_cases pollRelease choice outcome i p w with
    | case1 =>
      unfold notifyOne
      split <;> exact ⟨rfl, rfl⟩
    | _ => exact ⟨rfl, rfl⟩
  | _ => exact ⟨rfl, rfl⟩

/-- No send in flight has read a later time than the clock shows. -/
def Current (w : World) : Prop :=
  ∀ flight, w.sending = some flight → flight.sending.now ≤ w.clock

theorem Current.of_eq {w' : World} (h : w.Current) (hsending : w'.sending = w.sending)
    (hclock : w'.clock = w.clock) : w'.Current := by
  unfold Current
  rw [hsending, hclock]
  exact h

theorem Current.sendStep (h : w.Current) {flight : InFlight} (hflight : w.sending = some flight)
    (act : SendAct) : (w.sendStep flight act).Current := by
  have hnow := h flight hflight
  have hlater : ∀ (w' : World) (flight' : InFlight), w'.sending = some flight' →
      flight'.sending = flight.sending → w'.clock = w.clock → w'.Current := by
    intro w' flight' hsending hsame hclock later hlater
    cases hsending.symm.trans hlater
    rw [hclock, hsame]
    exact hnow
  fun_cases World.sendStep flight w act with
  | case1 pendingFault insertFault env rest =>
    unfold World.sendStore
    split
    · exact nofun
    · exact hlater _ _ rfl rfl rfl
  | case3 choice pk =>
    unfold World.wake World.notifyOne
    split
    · split
      · exact hlater _ _ rfl rfl rfl
      · exact hlater _ _ rfl rfl rfl
    · exact hlater _ _ rfl rfl rfl
  | case5 fault =>
    unfold World.sendEnd
    split <;> exact nofun
  | _ => exact h

theorem Current.step (h : w.Current) (op : WorldOp) : (w.step verify op).Current := by
  fun_cases World.step verify w op with
  | case1 now hclock => exact fun flight hflight => Int64.le_trans (h flight hflight) hclock
  | case3 c now hguard =>
    fun_cases World.callStep verify now w c with
    | case2 fails req sending hcheck =>
      intro flight hflight
      cases hflight
      obtain ⟨-, senderPk, -, rfl⟩ := sendCheck_eq_ok hcheck
      exact hguard.2
    | _ => exact h.of_eq rfl rfl
  | case5 act flight hflight => exact h.sendStep hflight act
  | case8 i act p => exact h.of_eq (pollStep_frame i p act).1 (pollStep_frame i p act).2
  | _ => exact h.of_eq rfl rfl

end Steps

end World

end Mesh

end Fcore
