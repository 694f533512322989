import Fcore.Tasks
import Fcore.Traffic.Attribution

/-!
# Booking under partial failures

A pass that persists traffic books every segment of a connection under its day and
under its month and then moves the watermark, with one call to the database each.
Nothing ties these calls together. The books of a connection are balanced when the
day rows, the month rows and the watermark give the same bytes.

Calls that succeed keep the books balanced, and so does a first call that fails,
since nothing has been written by then. The main result is about runs of passes in
which, for each connection with bytes to book, the first call fails or none does. A
failure in between leaves bytes that are booked once and counted again by the next
pass, which starts from the old watermark.
-/

namespace Fcore

open Traffic (Direction SegmentTraffic)

namespace ConnRow

def bytes (row : ConnRow) : Direction → ℤ
  | .uplink => row.uplink
  | .downlink => row.downlink

end ConnRow

namespace Db

def booked (connId : Uuid) (period : Period) (dir : Direction) (db : Db) : ℤ :=
  sumBytes (db.connectionTraffic.entries.filter fun e =>
    decide (e.1.connectionId = connId) && decide (e.1.period = period)) dir

/-- The day rows, the month rows and the watermark of every connection agree. -/
def Balanced (db : Db) : Prop :=
  ∀ connId dir, db.booked connId .day dir = db.booked connId .month dir ∧
    ∀ row, db.connections.lookup connId = some row → row.bytes dir = db.booked connId .day dir

/-- Whether a booking is refused because its subscription is not stored. -/
def bookingRefused (connId subId : Uuid) (period : Period) (bucket : DateTime) (db : Db) : Bool :=
  (db.connectionTraffic.lookup ⟨connId, period, bucket⟩).isNone &&
    (db.subscriptions.lookup subId).isNone

end Db

structure PersistPass where
  cache : Cache
  metrics : MetricStorage
  now : DateTime

namespace World

/-- The segments a pass is going to book for a connection of a subscription. -/
def pendingSegments (metrics : MetricStorage) (watermarks : List ConnWatermark) (now : DateTime)
    (c : Uuid × Conn) (subId : Uuid) (sub : Subscription) : List SegmentTraffic :=
  Traffic.connectionDeltasBetween metrics c.1 sub.createdAt
    (watermarkOf watermarks c.1 subId c.2.env.asStr now).lastPersistAt now

/-- There is nothing to book, the first call fails, or no call does. -/
def callsWhole (connId subId : Uuid) (w : World) : List SegmentTraffic → Bool
  | [] => true
  | seg :: segs =>
    w.dbFails w.calls || w.db.bookingRefused connId subId .day seg.dayBucket ||
      ((w.db.subscriptions.lookup subId).isSome &&
        (List.range (2 * (segs.length + 1) + 1)).all fun i => !w.dbFails (w.calls + i))

/-- The work on a connection is done as a whole or not begun. And the row, if there is
one, names a subscription, so that its watermark was read. -/
def booksWhole (metrics : MetricStorage) (watermarks : List ConnWatermark) (now : DateTime)
    (w : World) (c : Uuid × Conn) : Bool :=
  c.2.subscriptionId.all fun subId => (w.mem.subscriptions.lookup subId).all fun sub =>
    (w.db.connections.lookup c.1).all (fun row => row.subscriptionId.isSome) &&
      w.callsWhole c.1 subId (pendingSegments metrics watermarks now c subId sub)

end World

namespace PersistPass

def step (w : World) (pass : PersistPass) : World :=
  World.persistConnectionTraffic pass.metrics pass.now { w with mem := pass.cache }

/-- Every connection the pass visits is booked as a whole or not at all. -/
def Whole (w : World) (pass : PersistPass) : Prop :=
  match World.dbRead Db.allWatermarks { w with mem := pass.cache } with
  | (_, .error _) => True
  | (w, .ok watermarks) =>
    Run.Along (World.persistConnection pass.metrics watermarks pass.now)
      (fun w c => w.booksWhole pass.metrics watermarks pass.now c = true) w w.mem.meteredTraffic

instance (w : World) (pass : PersistPass) : Decidable (Whole w pass) :=
  match h : World.dbRead Db.allWatermarks { w with mem := pass.cache } with
  | (_, .error _) => isTrue (by simp [Whole, h])
  | (w', .ok watermarks) =>
    decidable_of_iff
      (Run.Along (World.persistConnection pass.metrics watermarks pass.now)
        (fun w c => w.booksWhole pass.metrics watermarks pass.now c = true) w'
        w'.mem.meteredTraffic)
      (by simp [Whole, h])

end PersistPass

namespace Db

/-- Only traffic rows of one connection were written, and each period got the bytes. -/
structure Posted (connId : Uuid) (bytes : Period → Direction → ℤ) (db db' : Db) : Prop where
  only : db' = { db with connectionTraffic := db'.connectionTraffic }
  booked : ∀ c period dir, db'.booked c period dir =
    db.booked c period dir + if c = connId then bytes period dir else 0

theorem booked_eq_rowSum (c : Uuid) (period : Period) (dir : Direction) (db : Db) :
    db.booked c period dir = db.connectionTraffic.rowSum fun key row =>
      if key.connectionId = c ∧ key.period = period then row.bytes dir else 0 := by
  rw [booked, sumBytes, AList.rowSum, List.sum_map_ite]
  simp

variable {connId subId : Uuid} {db db' : Db}

theorem posted_upsertBucket {env : String} {period : Period} {bucket : DateTime}
    {uplink downlink : ℕ}
    (h : db.upsertBucket connId subId env period bucket uplink downlink = .ok (db', ())) :
    Posted connId (fun period' dir => if period' = period then dir.ofPair (uplink, downlink) else 0)
      db db' := by
  obtain ⟨row, rfl, hrow⟩ := World.upsertBucket_cases h
  refine ⟨rfl, fun c period' dir => ?_⟩
  have hbytes := hrow dir
  have hinsert := AList.rowSum_insert (fun (key : TrafficKey) (row : TrafficRow) =>
    if key.connectionId = c ∧ key.period = period' then row.bytes dir else 0)
    ⟨connId, period, bucket⟩ row db.connectionTraffic
  rw [booked_eq_rowSum, booked_eq_rowSum]
  by_cases hkey : connId = c ∧ period = period'
  · obtain ⟨rfl, rfl⟩ := hkey
    cases dir <;> simp [Direction.ofPair] at hinsert ⊢ <;> linarith
  · have hold : ((db.connectionTraffic.lookup ⟨connId, period, bucket⟩).map fun old =>
        if connId = c ∧ period = period' then old.bytes dir else 0).getD 0 = 0 := by
      cases db.connectionTraffic.lookup ⟨connId, period, bucket⟩ <;> simp [hkey]
    have hadded : (if c = connId then
        if period' = period then (dir.ofPair (uplink, downlink) : ℤ) else 0 else 0) = 0 := by
      grind
    rw [hold, if_neg hkey, add_zero] at hinsert
    rw [hinsert, hadded, add_zero]

theorem Posted.refl (connId : Uuid) (db : Db) : Posted connId 0 db db :=
  ⟨rfl, fun c period dir => by simp⟩

theorem Posted.trans {bytes₁ bytes₂ : Period → Direction → ℤ} {db₁ db₂ db₃ : Db}
    (h₁ : Posted connId bytes₁ db₁ db₂) (h₂ : Posted connId bytes₂ db₂ db₃) :
    Posted connId (bytes₁ + bytes₂) db₁ db₃ := by
  refine ⟨by rw [h₂.only, h₁.only], fun c period dir => ?_⟩
  rw [h₂.booked, h₁.booked]
  split <;> simp [add_assoc]

theorem Posted.connections {bytes : Period → Direction → ℤ} (h : Posted connId bytes db db') :
    db'.connections = db.connections := by
  rw [h.only]

theorem Posted.subscriptions {bytes : Period → Direction → ℤ} (h : Posted connId bytes db db') :
    db'.subscriptions = db.subscriptions := by
  rw [h.only]

theorem upsertBucket_of_stored (h : (db.subscriptions.lookup subId).isSome) (connId : Uuid)
    (env : String) (period : Period) (bucket : DateTime) (uplink downlink : ℤ) :
    ∃ db', db.upsertBucket connId subId env period bucket uplink downlink = .ok (db', ()) := by
  unfold upsertBucket
  dsimp only
  split
  · exact ⟨_, rfl⟩
  · rw [if_neg (by simp [Option.isNone_iff_eq_none, ← Option.not_isSome_iff_eq_none, h])]
    exact ⟨_, rfl⟩

theorem upsertBucket_of_refused {env : String} {period : Period} {bucket : DateTime}
    {uplink downlink : ℤ} (h : db.bookingRefused connId subId period bucket = true) :
    db.upsertBucket connId subId env period bucket uplink downlink = .error .constraint := by
  obtain ⟨hrow, hsub⟩ := Bool.and_eq_true_iff.mp h
  rw [Option.isNone_iff_eq_none] at hrow
  simp [upsertBucket, hrow, hsub]

end Db

namespace World

def segmentBytes (segments : List SegmentTraffic) (_ : Period) (dir : Direction) : ℤ :=
  ((segments.map fun seg => seg.bytes dir).sum : ℕ)

variable {subId connId : Uuid} {w : World} {env : String} {db : Db} {now : DateTime}
  {metrics : MetricStorage} {c : Uuid × Conn}

/-- A call that is not to fail and whose subscription is stored books its bytes. -/
theorem posted_dbCall_upsertBucket (hsub : (w.db.subscriptions.lookup subId).isSome)
    (hcall : w.dbFails w.calls = false) (connId : Uuid) (env : String) (period : Period)
    (bucket : DateTime) (seg : SegmentTraffic) :
    ∃ w', w.dbCall (Db.upsertBucket connId subId env period bucket seg.uplink seg.downlink) =
        (w', .ok ()) ∧ w'.calls = w.calls + 1 ∧ w'.dbFails = w.dbFails ∧
      Db.Posted connId (fun period' dir => if period' = period then seg.bytes dir else 0)
        w.db w'.db := by
  obtain ⟨db', hdb'⟩ :=
    Db.upsertBucket_of_stored hsub connId env period bucket seg.uplink seg.downlink
  refine ⟨_, dbCall_of_ok hcall hdb', rfl, rfl, ?_⟩
  have hposted := Db.posted_upsertBucket hdb'
  refine ⟨hposted.only, fun c period' dir => (hposted.booked c period' dir).trans ?_⟩
  cases dir <;> rfl

/-- Segments whose calls do not fail are booked under both periods. -/
theorem persistSegments_of_reliable (connId : Uuid) (env : String)
    (segments : List SegmentTraffic) (hsub : (w.db.subscriptions.lookup subId).isSome)
    (hcalls : ∀ i < 2 * segments.length, w.dbFails (w.calls + i) = false) :
    ∃ w', w.persistSegments connId subId env segments = (w', .ok ()) ∧
      w'.calls = w.calls + 2 * segments.length ∧ w'.dbFails = w.dbFails ∧
      Db.Posted connId (segmentBytes segments) w.db w'.db := by
  induction segments generalizing w with
  | nil => exact ⟨w, rfl, rfl, rfl, Db.Posted.refl connId w.db⟩
  | cons seg segs ih =>
    rw [List.length_cons] at hcalls ⊢
    have hmonth := hcalls 1 (by omega)
    obtain ⟨w₁, hw₁, hcalls₁, hfails₁, hposted₁⟩ :=
      posted_dbCall_upsertBucket hsub (hcalls 0 (by omega)) connId env .day seg.dayBucket seg
    rw [← hposted₁.subscriptions] at hsub
    rw [← hfails₁, ← hcalls₁] at hmonth
    obtain ⟨w₂, hw₂, hcalls₂, hfails₂, hposted₂⟩ :=
      posted_dbCall_upsertBucket hsub hmonth connId env .month seg.monthBucket seg
    obtain ⟨w₃, hw₃, hcalls₃, hfails₃, hposted₃⟩ := ih (w := w₂)
      (by rwa [hposted₂.subscriptions])
      (by
        intro i hi
        rw [hfails₂, hfails₁, hcalls₂, hcalls₁, add_assoc, add_assoc]
        exact hcalls _ (by omega))
    refine ⟨w₃, ?_, by omega, by rw [hfails₃, hfails₂, hfails₁], ?_⟩
    · rw [persistSegments, hw₁, andThen_ok rfl, hw₂, andThen_ok rfl, hw₃]
    · have hposted := (hposted₁.trans hposted₂).trans hposted₃
      refine ⟨hposted.only, fun c period dir => ?_⟩
      rw [hposted.booked]
      cases period <;> simp [segmentBytes]

theorem persistSegments_of_first_fails {seg : SegmentTraffic} {segs : List SegmentTraffic}
    (h : w.dbFails w.calls = true ∨ w.db.bookingRefused connId subId .day seg.dayBucket = true) :
    ∃ e, w.persistSegments connId subId env (seg :: segs) = (w.tick, .error e) := by
  rw [persistSegments]
  by_cases hcall : w.dbFails w.calls = true
  · rw [dbCall_of_fails hcall]
    exact ⟨_, rfl⟩
  · have hrefused := h.resolve_left hcall
    rw [dbCall_of_error (by simpa using hcall) (Db.upsertBucket_of_refused hrefused)]
    exact ⟨_, rfl⟩

theorem persistSegments_of_callsWhole {segments : List SegmentTraffic}
    (h : w.callsWhole connId subId segments = true) :
    (∃ e, w.persistSegments connId subId env segments = (w.tick, .error e)) ∨
      ∃ w', w.persistSegments connId subId env segments = (w', .ok ()) ∧
        Db.Posted connId (segmentBytes segments) w.db w'.db ∧
        (segments = [] ∨ w'.dbFails w'.calls = false) := by
  cases segments with
  | nil => exact .inr ⟨w, rfl, Db.Posted.refl connId w.db, .inl rfl⟩
  | cons seg segs =>
    rw [callsWhole, Bool.or_eq_true, Bool.or_eq_true, Bool.and_eq_true] at h
    rcases h with hfirst | ⟨hsub, hcalls⟩
    · exact .inl (persistSegments_of_first_fails hfirst)
    · have hcalls : ∀ i < 2 * (segs.length + 1) + 1, w.dbFails (w.calls + i) = false := by
        simpa using hcalls
      obtain ⟨w', hw', hnext, hfails, hposted⟩ := persistSegments_of_reliable connId env
        (seg :: segs) hsub fun i hi => hcalls i (by simp at hi; omega)
      refine .inr ⟨w', hw', hposted, .inr ?_⟩
      rw [hfails, hnext]
      exact hcalls _ (by simp)

theorem connections_persistSegments (connId subId : Uuid) (env : String)
    (segments : List SegmentTraffic) (w : World) :
    (w.persistSegments connId subId env segments).1.db.connections = w.db.connections := by
  have hcall : ∀ period bucket (uplink downlink : ℕ) (w : World),
      (w.dbCall (Db.upsertBucket connId subId env period bucket uplink downlink)).1.db.connections =
        w.db.connections := by
    intro period bucket uplink downlink w
    refine dbCall_rel (R := fun db db' => db'.connections = db.connections) rfl fun db _ h => ?_
    exact (Db.posted_upsertBucket h).connections
  induction segments generalizing w with
  | nil => rfl
  | cons seg segs ih =>
    refine andThen_rel (R := fun w w' => w'.db.connections = w.db.connections)
      (fun _ _ _ h h' => h'.trans h) (hcall ..) fun _ => ?_
    refine andThen_rel (R := fun w w' => w'.db.connections = w.db.connections)
      (fun _ _ _ h h' => h'.trans h) (hcall ..) fun _ => ih _

/-- Moving the watermark to what is booked keeps the books balanced. -/
theorem balanced_updateWatermark {uplink downlink : ℤ} (now : DateTime)
    {segments : List SegmentTraffic} {db' : Db} (hbal : db.Balanced)
    (hposted : Db.Posted connId (segmentBytes segments) db db')
    (hmark : ∀ row, db.connections.lookup connId = some row →
      uplink = row.uplink + segmentBytes segments .day .uplink ∧
        downlink = row.downlink + segmentBytes segments .day .downlink) :
    (db'.updateWatermark connId uplink downlink now).Balanced := by
  intro c dir
  have hbooked : ∀ period, (db'.updateWatermark connId uplink downlink now).booked c period dir =
      db.booked c period dir + if c = connId then segmentBytes segments period dir else 0 :=
    fun period => hposted.booked c period dir
  obtain ⟨hperiods, hrow⟩ := hbal c dir
  refine ⟨by rw [hbooked, hbooked, hperiods]; rfl, fun row' hrow' => ?_⟩
  rw [Db.updateWatermark, AList.lookup_modify, hposted.connections] at hrow'
  obtain ⟨row, hlookup, rfl⟩ := Option.map_eq_some_iff.mp hrow'
  have hold := hrow row hlookup
  rw [hbooked, ← hold]
  by_cases hc : c = connId
  · subst hc
    obtain ⟨hup, hdown⟩ := hmark row hlookup
    rw [if_pos rfl, if_pos rfl]
    cases dir
    · exact hup
    · exact hdown
  · rw [if_neg hc, if_neg hc, add_zero]

theorem watermarkOf_allWatermarks {s : Uuid} {row : ConnRow}
    (hrow : db.connections.lookup connId = some row) (hs : row.subscriptionId = some s) :
    watermarkOf db.allWatermarks connId subId env now = row.watermark connId s := by
  have hmem : row.watermark connId s ∈ db.allWatermarks :=
    List.mem_filterMap.mpr ⟨⟨connId, row⟩, AList.mem_entries_iff.mpr hrow, by simp [hs]⟩
  unfold watermarkOf
  cases hfind : db.allWatermarks.find? fun wm => decide (wm.connId = connId) with
  | none => exact absurd (List.find?_eq_none.mp hfind _ hmem) (by simp [ConnRow.watermark])
  | some wm =>
    have hid : wm.connId = connId := by simpa using List.find?_some hfind
    obtain ⟨e, he, hwm⟩ := List.mem_filterMap.mp (List.mem_of_find?_eq_some hfind)
    obtain ⟨s', hs', rfl⟩ := Option.map_eq_some_iff.mp hwm
    replace hid : e.1 = connId := hid
    have hlookup := AList.lookup_of_mem_entries he
    rw [hid, hrow] at hlookup
    cases hlookup
    rw [hs] at hs'
    cases hs'
    rw [hid]
    rfl

theorem watermarkOf_named {row : ConnRow} (hrow : db.connections.lookup connId = some row)
    (hnamed : row.subscriptionId.isSome = true) (subId : Uuid) (env : String) (now : DateTime) :
    (watermarkOf db.allWatermarks connId subId env now).uplink = row.uplink ∧
      (watermarkOf db.allWatermarks connId subId env now).downlink = row.downlink := by
  obtain ⟨s, hs⟩ := Option.isSome_iff_exists.mp hnamed
  rw [watermarkOf_allWatermarks hrow hs]
  exact ⟨rfl, rfl⟩

theorem lookup_persistConnection {watermarks : List ConnWatermark} {c' : Uuid} (hne : c' ≠ c.1) :
    (w.persistConnection metrics watermarks now c).db.connections.lookup c' =
      w.db.connections.lookup c' := by
  unfold persistConnection
  split
  · rfl
  · split
    · rfl
    · refine andThen_rel
        (R := fun w w' => w'.db.connections.lookup c' = w.db.connections.lookup c')
        (fun _ _ _ h h' => h'.trans h) (by rw [connections_persistSegments]) fun _ => ?_
      refine dbCall_rel (R := fun db db' => db'.connections.lookup c' = db.connections.lookup c')
        rfl fun db _ h => ?_
      cases h
      exact AList.lookup_modify_ne hne _ _

theorem persistConnection_eq {watermarks : List ConnWatermark} {sub : Subscription}
    (hsubId : c.2.subscriptionId = some subId)
    (hsub : w.mem.subscriptions.lookup subId = some sub) :
    w.persistConnection metrics watermarks now c =
      (andThen (w.persistSegments c.1 subId c.2.env.asStr
        (pendingSegments metrics watermarks now c subId sub)) fun w _ =>
        w.dbExec (Db.updateWatermark c.1
          ((watermarkOf watermarks c.1 subId c.2.env.asStr now).uplink +
            segmentBytes (pendingSegments metrics watermarks now c subId sub) .day .uplink)
          ((watermarkOf watermarks c.1 subId c.2.env.asStr now).downlink +
            segmentBytes (pendingSegments metrics watermarks now c subId sub) .day .downlink)
          now)).1 := by
  simp only [persistConnection, hsubId, hsub]
  rfl

theorem balanced_persistConnection {db₀ : Db} (hbal : w.db.Balanced)
    (hsame : w.db.connections.lookup c.1 = db₀.connections.lookup c.1)
    (hwhole : w.booksWhole metrics db₀.allWatermarks now c = true) :
    (w.persistConnection metrics db₀.allWatermarks now c).db.Balanced := by
  cases hsubId : c.2.subscriptionId with
  | none => rwa [persistConnection, hsubId]
  | some subId =>
    cases hsub : w.mem.subscriptions.lookup subId with
    | none =>
      simp only [persistConnection, hsubId, hsub]
      exact hbal
    | some sub =>
      simp only [booksWhole, hsubId, hsub, Option.all_some, Bool.and_eq_true] at hwhole
      obtain ⟨hnamed, hcalls⟩ := hwhole
      rw [persistConnection_eq hsubId hsub]
      rcases persistSegments_of_callsWhole hcalls with
        ⟨e, hfailed⟩ | ⟨w', hbooked, hposted, hnext⟩
      · rw [hfailed]
        exact hbal
      · rw [hbooked, andThen_ok rfl]
        have hmoved := balanced_updateWatermark now hbal hposted fun row hrow => by
          rw [hrow] at hnamed
          obtain ⟨hup, hdown⟩ :=
            watermarkOf_named (hsame ▸ hrow) hnamed subId c.2.env.asStr now
          rw [← hup, ← hdown]
          exact ⟨rfl, rfl⟩
        rcases hnext with hnone | hnext
        · rw [hnone] at hbooked
          cases hbooked
          rcases dbExec_cases (Db.updateWatermark c.1 _ _ now) w with ⟨-, hdb⟩ | ⟨-, hdb⟩
          · rw [hdb]
            exact hbal
          · rw [hdb]
            exact hmoved
        · rw [dbExec, dbCall_of_ok hnext rfl]
          exact hmoved

theorem nodup_meteredTraffic (mem : Cache) : (mem.meteredTraffic.map Prod.fst).Nodup := by
  have hmap : mem.meteredTraffic.map Prod.fst = (mem.connections.entries.filter fun e =>
      !e.2.isDeleted && e.2.subscriptionId.isSome).keys := by
    rw [Cache.meteredTraffic, List.map_map]
    rfl
  rw [hmap]
  exact mem.connections.nodupKeys.sublist List.filter_sublist

/-- The turns of one pass. The watermarks were read at its start, and no turn but its
own changes the row of a connection. -/
theorem balanced_foldl_persistConnection {db₀ : Db} {cs : List (Uuid × Conn)}
    (hnodup : (cs.map Prod.fst).Nodup) (hbal : w.db.Balanced)
    (hsame : ∀ c ∈ cs, w.db.connections.lookup c.1 = db₀.connections.lookup c.1)
    (hwhole : Run.Along (persistConnection metrics db₀.allWatermarks now)
      (fun w c => w.booksWhole metrics db₀.allWatermarks now c = true) w cs) :
    (cs.foldl (persistConnection metrics db₀.allWatermarks now) w).db.Balanced := by
  induction cs generalizing w with
  | nil => exact hbal
  | cons c cs ih =>
    rw [List.map_cons, List.nodup_cons] at hnodup
    apply ih hnodup.2 (balanced_persistConnection hbal (hsame c (by simp)) hwhole.1) _ hwhole.2
    intro c' hc'
    have hne : c'.1 ≠ c.1 := by
      intro heq
      exact hnodup.1 (heq ▸ List.mem_map_of_mem hc')
    rw [lookup_persistConnection hne]
    exact hsame c' (List.mem_cons_of_mem c hc')

end World

theorem PersistPass.balanced_step {w : World} {pass : PersistPass} (hbal : w.db.Balanced)
    (hwhole : pass.Whole w) : (pass.step w).db.Balanced := by
  have hdb := World.dbRead_db Db.allWatermarks { w with mem := pass.cache }
  have hanswer := World.dbRead_cases Db.allWatermarks { w with mem := pass.cache }
  unfold step World.persistConnectionTraffic
  unfold Whole at hwhole
  cases hread : World.dbRead Db.allWatermarks { w with mem := pass.cache } with
  | mk w' result =>
    rw [hread] at hdb hanswer hwhole
    cases result with
    | error e =>
      rwa [hdb]
    | ok watermarks =>
      obtain rfl : watermarks = w.db.allWatermarks := by simpa using hanswer
      have hnodup := World.nodup_meteredTraffic w'.mem
      apply World.balanced_foldl_persistConnection hnodup _ _ hwhole
      · rwa [hdb]
      · intro c _
        rw [hdb]

/-- Along every run of passes that book each connection as a whole or not at all, the
books stay balanced. -/
theorem persisted_traffic_balanced {w : World} {passes : List PersistPass}
    (hbal : w.db.Balanced) (hwhole : Run.Along PersistPass.step PersistPass.Whole w passes) :
    ∀ w' ∈ passes.scanl PersistPass.step w, w'.db.Balanced :=
  Run.invariant_scanl (I := fun w : World => w.db.Balanced)
    (fun _ _ hbal hwhole => PersistPass.balanced_step hbal hwhole) hbal hwhole

section Runs

/-- A subscription with one connection and nothing booked. -/
def meteredWorld (dbFails : ℕ → Bool) : World :=
  let conn := Conn.new .dev (some 1) (.xray .vlessTcpReality) none 0
  let w := World.init dbFails fun _ => false
  { w with
    mem := { w.mem with
      connections := AList.insert 5 conn ∅
      subscriptions := AList.insert 1 (.new 1 "" none none 0) ∅ }
    db := { w.db with
      connections := AList.insert 5 (.ofConn conn) ∅
      subscriptions := AList.insert 1 ((Subscription.new 1 "" none none 0).toRow 0) ∅ } }

theorem balanced_meteredWorld (dbFails : ℕ → Bool) : (meteredWorld dbFails).db.Balanced := by
  refine fun connId dir => ⟨rfl, fun row hrow => ?_⟩
  have hlookup : (AList.insert 5 (.ofConn (.new .dev (some 1) (.xray .vlessTcpReality) none 0))
      ∅ : Table Uuid ConnRow).lookup connId = some row := hrow
  obtain ⟨rfl, rfl⟩ := AList.eq_of_lookup_single hlookup
  cases dir <;> rfl

/-- A pass at 23:00 and one at 24:00 over a growth of 100 bytes. -/
def twoPasses : List PersistPass :=
  let metrics := Traffic.uplinkStore [(20, 0), (22, 100)]
  let cache := (meteredWorld fun _ => false).mem
  [⟨cache, metrics, 23 * Traffic.hourNanos⟩, ⟨cache, metrics, 24 * Traffic.hourNanos⟩]

/-- The first call for the connection fails, and the second pass books its bytes. -/
theorem persisted_traffic_balanced_first_call :
    (meteredWorld fun n => decide (n = 1)).db.Balanced ∧
      ∀ w' ∈ twoPasses.scanl PersistPass.step (meteredWorld fun n => decide (n = 1)),
        w'.db.Balanced :=
  ⟨balanced_meteredWorld _, persisted_traffic_balanced (balanced_meteredWorld _)
    (by decide +kernel)⟩

/-- Booking the month fails in the first pass, and the second pass books the day again:
200 bytes for the day and 100 for the month. When moving the watermark fails instead,
both have 200 and the watermark 100. -/
theorem not_persisted_traffic_balanced :
    (meteredWorld fun n => decide (n = 2)).db.Balanced ∧
      (¬ ∀ w' ∈ twoPasses.scanl PersistPass.step (meteredWorld fun n => decide (n = 2)),
        w'.db.Balanced) ∧
      ¬ ∀ w' ∈ twoPasses.scanl PersistPass.step (meteredWorld fun n => decide (n = 3)),
        w'.db.Balanced := by
  refine ⟨balanced_meteredWorld _, fun h => ?_, fun h => ?_⟩
  · have hlast := h _ (List.mem_of_getLast? rfl)
    have hday : (twoPasses.foldl PersistPass.step
        (meteredWorld fun n => decide (n = 2))).db.booked 5 .day .uplink = 200 := by
      decide +kernel
    exact absurd (hday.symm.trans (hlast 5 .uplink).1) (by decide +kernel)
  · have hlast := h _ (List.mem_of_getLast? rfl)
    have hmark : ((twoPasses.foldl PersistPass.step
        (meteredWorld fun n => decide (n = 3))).db.connections.lookup 5).map
          (fun row => row.bytes .uplink) = some 100 := by decide +kernel
    obtain ⟨row, hrow, hbytes⟩ := Option.map_eq_some_iff.mp hmark
    exact absurd (hbytes.symm.trans ((hlast 5 .uplink).2 row hrow)) (by decide +kernel)

end Runs

end Fcore
