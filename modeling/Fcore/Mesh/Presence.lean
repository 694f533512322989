import Fcore.Lib.Run
import Fcore.Mesh.World

/-!
# Who is online

A poll counts itself in the map of polls while it holds its guard, from the moment its device
is known until it ends in whatever way. A lookup reports an identity online when one of its
devices was seen in the last five minutes or one of its polls is counted.
-/

namespace Fcore

namespace Mesh

def onlineWindowSecs : Int64 := 300

structure Lookup where
  uin : String
  name : String
  online : Bool
  devices : List String
  deriving DecidableEq, Repr

inductive LookupStmt where
  | identity
  | devices
  deriving DecidableEq, Repr

/-- Whether a poll holds its guard in a phase. -/
def PollPhase.isGuarded : PollPhase → Bool
  | called | authed | ended _ => false
  | entered | subscribed | enabled | parked | woken | ending _ | leaving _ => true

/-- Whether a poll is to be counted for a device. -/
def Poll.holds (key : String × String) (p : Poll) : Bool :=
  decide (p.key = key) && p.phase.isGuarded

namespace World

/-- The lookup of an identity. It reads the clock while it has the connection. -/
def lookup (fails : LookupStmt → Option String) (now : Int64) (uin : String) (w : World) :
    Except MeshError Lookup := do
  match ← stmt (fails .identity) (w.db.identities.find? fun i => i.uin == uin) with
  | none => .error .unknownUin
  | some identity =>
    let rows ← stmt (fails .devices) (w.db.devices.filter fun d => d.uin == uin)
    let online := rows.any fun d => decide (now - d.lastSeen ≤ onlineWindowSecs) ||
      w.polls.keys.any fun key => key.1 == uin
    return ⟨uin, identity.name, online, rows.map Device.noisePubkey⟩

/-- The polls that hold a guard for a device. -/
def guards (key : String × String) (w : World) : ℕ := w.calls.countP (Poll.holds key)

/-- A map has the number of every device, and no entry for none. -/
def Counts (polls : Table (String × String) ℕ) (n : String × String → ℕ) : Prop :=
  ∀ key, polls.lookup key = if n key = 0 then none else some (n key)

def Counted (w : World) : Prop := Counts w.polls fun key => w.guards key

section Counts

variable {polls : Table (String × String) ℕ} {n n' : String × String → ℕ} {key : String × String}

theorem Counts.insert (h : Counts polls n) (hn : ∀ k, n' k = n k + if key = k then 1 else 0) :
    Counts (polls.insert key ((polls.lookup key).getD 0 + 1)) n' := by
  intro k
  have hvalue : (polls.lookup key).getD 0 = n key := by
    rw [h key]
    split <;> simp_all
  rw [hvalue, hn k]
  by_cases hk : key = k
  · simp [hk]
  · simp [hk, Ne.symm hk, h k]

theorem Counts.uncount (h : Counts polls n) (hn : ∀ k, n k = n' k + if key = k then 1 else 0) :
    Counts (World.uncount key polls) n' := by
  intro k
  have hkey : n key = n' key + 1 := by simpa using hn key
  have hlookup : polls.lookup key = some (n' key + 1) := by
    rw [h key, hkey]
    rfl
  have hother : key ≠ k → polls.lookup k = if n' k = 0 then none else some (n' k) := by
    intro hk
    rw [h k, hn k, if_neg hk, add_zero]
  rw [World.uncount, hlookup]
  dsimp only
  rw [Nat.add_sub_cancel]
  split
  case isTrue hzero =>
    rw [AList.lookup_erase_eq_ite]
    by_cases hk : key = k
    · simp [← hk, hzero]
    · simp [Ne.symm hk, hother hk]
  case isFalse hzero =>
    rw [AList.lookup_insert_eq_ite]
    by_cases hk : key = k
    · simp [← hk, hzero]
    · simp [Ne.symm hk, hother hk]

end Counts

/-- The guards and the map stay as they are. -/
structure Quiet (w w' : World) : Prop where
  polls : w'.polls = w.polls
  guards : ∀ key, w'.guards key = w.guards key

variable {w w' : World} {p p' : Poll} {i : ℕ}

theorem Counted.quiet (h : w.Counted) (hquiet : Quiet w w') : w'.Counted := by
  have hguards : (fun key => w'.guards key) = fun key => w.guards key := funext hquiet.guards
  rw [Counted, hquiet.polls, hguards]
  exact h

theorem Quiet.refl (w : World) : Quiet w w := ⟨rfl, fun _ => rfl⟩

theorem Quiet.trans {w₁ w₂ w₃ : World} (h : Quiet w₁ w₂) (h' : Quiet w₂ w₃) : Quiet w₁ w₃ :=
  ⟨h'.polls.trans h.polls, fun key => (h'.guards key).trans (h.guards key)⟩

theorem countP_replaced {α : Type*} {a a' : α} {l l' : List α} (h : Notify.Replaced a a' l l')
    (f : α → Bool) :
    l'.countP f + (if f a then 1 else 0) = l.countP f + if f a' then 1 else 0 := by
  obtain ⟨before, rest, rfl, rfl⟩ := h
  simp only [List.countP_append, List.countP_cons]
  omega

/-- A change of one poll that neither takes nor drops its guard. -/
theorem quiet_of_replaced (hpolls : w'.polls = w.polls)
    (hcalls : Notify.Replaced p p' w.calls w'.calls)
    (hholds : ∀ key, p'.holds key = p.holds key) : Quiet w w' := by
  refine ⟨hpolls, fun key => ?_⟩
  have hcount := countP_replaced hcalls (Poll.holds key)
  rw [hholds key] at hcount
  exact Nat.add_right_cancel hcount

theorem quiet_notifyOne (key : String × String) (choice : ℕ) (w : World) :
    Quiet w (w.notifyOne key choice) := by
  unfold notifyOne
  cases hwake : Notify.wakeOne (Poll.awaits key) Poll.notify choice w.calls with
  | none => exact ⟨rfl, fun _ => rfl⟩
  | some calls =>
    obtain ⟨p, -, hcalls⟩ := Notify.wakeOne_eq_some hwake
    exact quiet_of_replaced rfl hcalls fun _ => rfl

theorem quiet_wake (key : String × String) (choice : ℕ) (w : World) :
    Quiet w (w.wake key choice) := by
  unfold wake
  split
  · exact quiet_notifyOne key choice w
  · exact .refl w

section Steps

variable {verify : String → String → String → Bool}

/-- A poll keeps its guard, or stays without one. -/
theorem quiet_set (hp : w.calls[i]? = some p) (hpolls : w'.polls = w.polls)
    (hcalls : w'.calls = w.calls.set i p')
    (hholds : p'.key = p.key ∧ p'.phase.isGuarded = p.phase.isGuarded ∨
      p'.phase.isGuarded = false ∧ p.phase.isGuarded = false) : Quiet w w' := by
  refine quiet_of_replaced hpolls (hcalls ▸ Notify.replaced_set hp p') fun key => ?_
  obtain ⟨hkey, hguarded⟩ | ⟨hguarded', hguarded⟩ := hholds
  · rw [Poll.holds, Poll.holds, hkey, hguarded]
  · rw [Poll.holds, Poll.holds, hguarded', hguarded, Bool.and_false, Bool.and_false]

theorem Counted.enter (h : w.Counted) (hp : w.calls[i]? = some p) (hphase : p.phase = .authed) :
    Counted (setPoll i { p with phase := .entered }
      { w with polls := w.polls.insert p.key ((w.polls.lookup p.key).getD 0 + 1) }) := by
  refine Counts.insert h fun key => ?_
  have hcount := countP_replaced (Notify.replaced_set hp { p with phase := .entered })
    (Poll.holds key)
  have hbefore : p.holds key = false := by simp [Poll.holds, hphase, PollPhase.isGuarded]
  have hafter : Poll.holds key { p with phase := .entered } = decide (p.key = key) :=
    Bool.and_true _
  simp only [hbefore, hafter, decide_eq_true_eq] at hcount
  exact hcount

theorem Counted.leave (h : w.Counted) (hp : w.calls[i]? = some p) {outcome : Outcome}
    (hphase : p.phase = .leaving outcome) :
    Counted (setPoll i { p with phase := .ended outcome }
      { w with polls := uncount p.key w.polls }) := by
  refine Counts.uncount h fun key => ?_
  have hcount := countP_replaced (Notify.replaced_set hp { p with phase := .ended outcome })
    (Poll.holds key)
  have hbefore : p.holds key = decide (p.key = key) := by
    simp [Poll.holds, hphase, PollPhase.isGuarded]
  have hafter : Poll.holds key { p with phase := .ended outcome } = false := Bool.and_false _
  simp only [hbefore, hafter, decide_eq_true_eq] at hcount
  exact hcount.symm

theorem Quiet.pollTake (hp : w.calls[i]? = some p) (hphase : p.phase.isGuarded = true)
    (fault : Option String) (first : Bool) : Quiet w (w.pollTake fault first i p) := by
  unfold World.pollTake
  split
  · exact quiet_set hp rfl rfl (.inl ⟨rfl, hphase.symm⟩)
  · split
    · exact quiet_set hp rfl rfl (.inl ⟨rfl, hphase.symm⟩)
    · exact quiet_set hp rfl rfl (.inl ⟨rfl, hphase.symm⟩)

theorem Quiet.pollEnable (hp : w.calls[i]? = some p) (hphase : p.phase.isGuarded = true) :
    Quiet w (w.pollEnable i p) := by
  unfold World.pollEnable
  split <;> exact quiet_set hp rfl rfl (.inl ⟨rfl, hphase.symm⟩)

theorem Quiet.pollRelease (hp : w.calls[i]? = some p) (hphase : p.phase.isGuarded = true)
    (choice : ℕ) (outcome : Outcome) : Quiet w (w.pollRelease choice outcome i p) := by
  unfold World.pollRelease
  split
  · refine .trans ?_ (quiet_notifyOne p.key choice _)
    exact quiet_set hp rfl rfl (.inl ⟨rfl, hphase.symm⟩)
  · exact quiet_set hp rfl rfl (.inl ⟨rfl, hphase.symm⟩)
  · exact quiet_set hp rfl rfl (.inl ⟨rfl, hphase.symm⟩)

theorem Counted.pollStep (h : w.Counted) (hp : w.calls[i]? = some p) (act : PollAct) :
    (w.pollStep verify i p act).Counted := by
  fun_cases World.pollStep verify i p w act with
  | case1 fails now hphase =>
    refine h.quiet ?_
    unfold World.pollAuthed
    split <;> exact quiet_set hp rfl rfl (.inr ⟨rfl, by rw [hphase.1]; rfl⟩)
  | case3 hphase => exact h.enter hp hphase
  | case5 hphase => exact h.quiet (quiet_set hp rfl rfl (.inl ⟨rfl, by rw [hphase]; rfl⟩))
  | case7 hphase => exact h.quiet (.pollEnable hp (by rw [hphase]; rfl))
  | case9 fault _ hphase => exact h.quiet (.pollTake hp (by rw [hphase]; rfl) fault true)
  | case10 fault _ hphase => exact h.quiet (.pollTake hp (by rw [hphase]; rfl) fault false)
  | case13 hphase => exact h.quiet (quiet_set hp rfl rfl (.inl ⟨rfl, by rw [hphase.1]; rfl⟩))
  | case15 hphase => exact h.quiet (quiet_set hp rfl rfl (.inl ⟨rfl, by rw [hphase]; rfl⟩))
  | case17 hphase => exact h.quiet (quiet_set hp rfl rfl (.inr ⟨rfl, by rw [hphase]; rfl⟩))
  | case18 hphase => exact h.quiet (quiet_set hp rfl rfl (.inl ⟨rfl, by rw [hphase]; rfl⟩))
  | case20 choice outcome hphase =>
    exact h.quiet (.pollRelease hp (by rw [hphase]; rfl) choice outcome)
  | case22 outcome hphase => exact h.leave hp hphase
  | _ => exact h

theorem Quiet.callStep (now : Int64) (c : Call) : Quiet w (w.callStep verify now c) := by
  fun_cases World.callStep verify now w c with
  | case1 => exact .refl w
  | _ => exact ⟨rfl, fun _ => rfl⟩

theorem Quiet.sendStep (flight : InFlight) (act : SendAct) : Quiet w (w.sendStep flight act) := by
  fun_cases World.sendStep flight w act with
  | case1 =>
    unfold World.sendStore
    split <;> exact ⟨rfl, fun _ => rfl⟩
  | case3 choice pk =>
    refine Quiet.trans ?_ (quiet_wake _ choice _)
    exact ⟨rfl, fun _ => rfl⟩
  | case5 fault => cases fault <;> exact ⟨rfl, fun _ => rfl⟩
  | _ => exact .refl w

theorem Counted.step (h : w.Counted) (op : WorldOp) : (w.step verify op).Counted := by
  fun_cases World.step verify w op with
  | case1 => exact h.quiet ⟨rfl, fun _ => rfl⟩
  | case3 c now => exact h.quiet (.callStep now c)
  | case5 act flight => exact h.quiet (.sendStep flight act)
  | case7 uin ts sig =>
    refine h.quiet ⟨rfl, fun key => ?_⟩
    simp [guards, Poll.holds, PollPhase.isGuarded]
  | case8 i act p hp => exact h.pollStep hp act
  | _ => exact h

end Steps

theorem counted_start (db : Db) (clock : Int64) : (start db clock).Counted := fun _ => rfl

/-- A device has an entry in the map exactly when one of its polls holds a guard. -/
theorem Counted.mem_iff (h : w.Counted) {key : String × String} :
    key ∈ w.polls.keys ↔ ∃ p ∈ w.calls, p.key = key ∧ p.phase.isGuarded = true := by
  have hpos : 0 < w.guards key ↔ ∃ p ∈ w.calls, p.key = key ∧ p.phase.isGuarded = true := by
    simp [guards, List.countP_pos_iff, Poll.holds]
  rw [← hpos, ← AList.mem_keys, ← AList.lookup_isSome, h key]
  by_cases hzero : w.guards key = 0
  · simp [hzero]
  · simp [hzero, Nat.pos_of_ne_zero hzero]

/-- In every state that calls of all kinds reach, the map counts the guards, and the lookup of a
registered number with a device reports whether one of its devices was seen or polls. -/
theorem presence_exact (verify : String → String → String → Bool) (db : Db) (clock : Int64)
    (ops : List WorldOp) :
    ∀ w ∈ ops.scanl (step verify) (start db clock), w.Counted ∧
      ∀ fails now uin, (∀ s, fails s = none) → w.db.identityMissing uin = false →
        (∃ d ∈ w.db.devices, d.uin = uin) →
        ∃ view, w.lookup fails now uin = .ok view ∧ (view.online = true ↔
          (∃ d ∈ w.db.devices, d.uin = uin ∧ now - d.lastSeen ≤ onlineWindowSecs) ∨
            ∃ p ∈ w.calls, p.uin = uin ∧ p.phase.isGuarded = true) := by
  intro w hw
  have hcounted : w.Counted := Run.invariant_scanl (fun w op h _ => h.step op)
    (counted_start db clock) (Run.along_true _ _) w hw
  refine ⟨hcounted, ?_⟩
  intro fails now uin hfails hknown ⟨device, hdevice, hown⟩
  obtain ⟨identity, hidentity⟩ : ∃ identity, w.db.identities.find? (fun i => i.uin == uin) =
      some identity := by
    rw [← Option.isSome_iff_exists]
    simpa [Db.identityMissing] using hknown
  have hpolls : (w.polls.keys.any fun key => key.1 == uin) = true ↔
      ∃ p ∈ w.calls, p.uin = uin ∧ p.phase.isGuarded = true := by
    simp only [List.any_eq_true, beq_iff_eq, hcounted.mem_iff]
    constructor
    · rintro ⟨key, ⟨p, hp, rfl, hguarded⟩, huin⟩
      exact ⟨p, hp, huin, hguarded⟩
    · rintro ⟨p, hp, huin, hguarded⟩
      exact ⟨p.key, ⟨p, hp, rfl, hguarded⟩, huin⟩
  refine ⟨_, by simp only [lookup, hfails, stmt, hidentity]; rfl, ?_⟩
  simp only [List.any_eq_true, List.mem_filter, beq_iff_eq, Bool.or_eq_true, decide_eq_true_eq,
    hpolls]
  constructor
  · rintro ⟨d, ⟨hd, huin⟩, hseen | hpolled⟩
    · exact .inl ⟨d, hd, huin, hseen⟩
    · exact .inr hpolled
  · rintro (⟨d, hd, huin, hseen⟩ | hpolled)
    · exact ⟨d, ⟨hd, huin⟩, .inl hseen⟩
    · exact ⟨device, ⟨hdevice, hown⟩, .inr hpolled⟩

/-- A device that was not seen for long, with a poll that waits. -/
theorem presence_exact_sample :
    ∃ view, ([.pollCall "10000" 1000 "", .poll 0 (.auth (fun _ => none) 1000), .poll 0 .enter,
        .tick 9000].foldl (step fun _ _ _ => true) (start ⟨[⟨"10000", 1, "", 0⟩],
          [⟨"10000", "device", "key", 0, 0⟩], .empty⟩ 1000)).lookup (fun _ => none) 9000 "10000" =
        .ok view ∧ view.online = true := by
  have h := (presence_exact (fun _ _ _ => true) ⟨[⟨"10000", 1, "", 0⟩],
    [⟨"10000", "device", "key", 0, 0⟩], .empty⟩ 1000 [.pollCall "10000" 1000 "",
      .poll 0 (.auth (fun _ => none) 1000), .poll 0 .enter, .tick 9000] _
    (Run.foldl_mem_scanl _ _ _)).2 (fun _ => none) 9000 "10000" (fun _ => rfl) (by decide +kernel)
      (by decide +kernel)
  exact h.imp fun view hview => ⟨hview.1, hview.2.mpr (.inr (by decide +kernel))⟩

end World

end Mesh

end Fcore
