import Mathlib.Data.Finset.Card
import Fcore.Lib.Run
import Fcore.Memory.Connection

/-!
# Full syncs on a node

A node that asks for the full list of its connections of one tag arms a tracker,
collects the identifiers of the messages that arrive, and learns from the answer
how many connections were listed. Once at least that many identifiers were seen
they are released as the set to keep, and every other connection of the tag is
removed.

The tracker compares numbers, not sets, and messages about connections that are
not on the list count as well. The main result says when every set it releases
contains the list: whenever it may release, the identifiers seen outside the list
are fewer than the listed ones still missing, unless none is missing.
-/

namespace Fcore

structure FullSyncState where
  seen : Finset Uuid
  expected : Option ℕ
  deriving DecidableEq

structure FullSyncTracker where
  states : Table Tag FullSyncState

namespace FullSyncTracker

def arm (tag : Tag) (tracker : FullSyncTracker) : FullSyncTracker :=
  ⟨AList.insert tag ⟨∅, none⟩ tracker.states⟩

def cancel (tag : Tag) (tracker : FullSyncTracker) : FullSyncTracker :=
  ⟨AList.erase tag tracker.states⟩

def record (tag : Tag) (connId : Uuid) (tracker : FullSyncTracker) : FullSyncTracker :=
  ⟨tracker.states.modify tag fun state => { state with seen := insert connId state.seen }⟩

def finish (tag : Tag) (expected : ℕ) (tracker : FullSyncTracker) :
    FullSyncTracker × Option (Finset Uuid) :=
  match tracker.states.lookup tag with
  | none => (tracker, none)
  | some state =>
    if expected ≤ state.seen.card then (tracker.cancel tag, some state.seen)
    else
      (⟨tracker.states.modify tag fun state => { state with expected := some expected }⟩, none)

def isReady (state : FullSyncState) : Bool :=
  state.expected.any fun expected => decide (expected ≤ state.seen.card)

def takeReady (tracker : FullSyncTracker) : FullSyncTracker × List (Tag × Finset Uuid) :=
  (⟨tracker.states.filterRows fun _ state => !isReady state⟩,
    (tracker.states.entries.filter fun e => isReady e.2).map fun e => (e.1, e.2.seen))

end FullSyncTracker

/-- The calls on the tracker. -/
inductive FullSyncOp where
  | arm (tag : Tag)
  | cancel (tag : Tag)
  | record (tag : Tag) (connId : Uuid)
  | finish (tag : Tag) (expected : ℕ)
  | takeReady
  deriving DecidableEq, Repr

namespace FullSyncTracker

def step (tracker : FullSyncTracker) : FullSyncOp → FullSyncTracker
  | .arm tag => tracker.arm tag
  | .cancel tag => tracker.cancel tag
  | .record tag connId => tracker.record tag connId
  | .finish tag expected => (tracker.finish tag expected).1
  | .takeReady => tracker.takeReady.1

def released (tracker : FullSyncTracker) : FullSyncOp → List (Tag × Finset Uuid)
  | .finish tag expected => (tracker.finish tag expected).2.toList.map fun keep => (tag, keep)
  | .takeReady => tracker.takeReady.2
  | _ => []

/-- Every set a run releases for a tag contains the list. -/
def KeepsListed (tag : Tag) (listed : Finset Uuid) (tracker : FullSyncTracker)
    (ops : List FullSyncOp) : Prop :=
  Run.Along step (fun tracker op => ∀ keep, (tag, keep) ∈ tracker.released op → listed ⊆ keep)
    tracker ops

end FullSyncTracker

/-- What a full sync of one tag has been told: the identifiers of the messages, and
whether the answer with their number has come. -/
structure SyncProgress where
  told : Finset Uuid
  answered : Bool
  deriving DecidableEq

namespace FullSyncOp

/-- A call that belongs to one full sync of a tag: the tag is not armed again and not
given up, and the answer carries the length of the list. -/
def belongs (tag : Tag) (expected : ℕ) : FullSyncOp → Bool
  | .arm tag' => decide (tag' ≠ tag)
  | .cancel tag' => decide (tag' ≠ tag)
  | .finish tag' expected' => decide (tag' = tag → expected' = expected)
  | _ => true

/-- What the calls tell the full sync of a tag. -/
def tells (tag : Tag) (p : SyncProgress) : FullSyncOp → SyncProgress
  | .record tag' connId => if tag' = tag then { p with told := insert connId p.told } else p
  | .finish tag' _ => if tag' = tag then { p with answered := true } else p
  | _ => p

def mayRelease (tag : Tag) (p : SyncProgress) : FullSyncOp → Bool
  | .finish tag' _ => decide (tag' = tag)
  | .takeReady => p.answered
  | _ => false

/-- A call that may release finds the whole list told, or fewer identifiers told
outside it than are missing from it. -/
def timely (tag : Tag) (listed : Finset Uuid) (p : SyncProgress) (op : FullSyncOp) : Bool :=
  !op.mayRelease tag p || decide (listed ⊆ p.told) ||
    decide ((p.told \ listed).card < (listed \ p.told).card)

end FullSyncOp

namespace FullSyncTracker

variable {tag : Tag} {listed : Finset Uuid} {tracker : FullSyncTracker} {p : SyncProgress}
  {op : FullSyncOp}

theorem mem_released_iff {keep : Finset Uuid} :
    (tag, keep) ∈ tracker.released op ↔
      ∃ state, tracker.states.lookup tag = some state ∧ keep = state.seen ∧
        ((∃ expected, op = .finish tag expected ∧ expected ≤ state.seen.card) ∨
          op = .takeReady ∧ isReady state = true) := by
  cases op with
  | finish tag' expected =>
    simp only [released, finish, FullSyncOp.finish.injEq, reduceCtorEq, false_and, or_false]
    cases hstate : tracker.states.lookup tag' with
    | none =>
      simp only [Option.toList_none, List.map_nil, List.not_mem_nil, false_iff]
      rintro ⟨state, hlookup, -, n, ⟨rfl, -⟩, -⟩
      rw [hstate] at hlookup
      cases hlookup
    | some state =>
      by_cases hle : expected ≤ state.seen.card
      · simp only [if_pos hle, Option.toList_some, List.map_cons, List.map_nil,
          List.mem_singleton, Prod.mk.injEq]
        constructor
        · rintro ⟨rfl, rfl⟩
          exact ⟨state, hstate, rfl, expected, ⟨rfl, rfl⟩, hle⟩
        · rintro ⟨state', hlookup, rfl, n, ⟨rfl, -⟩, -⟩
          rw [hstate] at hlookup
          cases hlookup
          exact ⟨rfl, rfl⟩
      · simp only [if_neg hle, Option.toList_none, List.map_nil, List.not_mem_nil, false_iff]
        rintro ⟨state', hlookup, -, n, ⟨rfl, rfl⟩, hle'⟩
        rw [hstate] at hlookup
        cases hlookup
        exact hle hle'
  | takeReady =>
    simp only [released, takeReady, List.mem_map, List.mem_filter, Prod.mk.injEq, reduceCtorEq,
      false_and, exists_false, true_and, false_or]
    constructor
    · rintro ⟨⟨tag', state⟩, ⟨hmem, hready⟩, rfl, rfl⟩
      exact ⟨state, AList.mem_entries_iff.mp hmem, rfl, hready⟩
    · rintro ⟨state, hlookup, rfl, hready⟩
      exact ⟨⟨tag, state⟩, ⟨AList.mem_entries_iff.mpr hlookup, hready⟩, rfl, rfl⟩
  | _ => simp [released]

/-- The tracker has seen what was told, or it has released a set with the whole
list. -/
def Tracks (tag : Tag) (listed : Finset Uuid) (tracker : FullSyncTracker) (p : SyncProgress) :
    Prop :=
  tracker.states.lookup tag = some ⟨p.told, if p.answered then some listed.card else none⟩ ∨
    tracker.states.lookup tag = none ∧ listed ⊆ p.told

theorem Tracks.congr (h : Tracks tag listed tracker p) {tracker' : FullSyncTracker}
    (hlookup : tracker'.states.lookup tag = tracker.states.lookup tag) :
    Tracks tag listed tracker' p := by
  rw [Tracks, hlookup]
  exact h

theorem mem_released_iff_of_pending
    (h : tracker.states.lookup tag = some ⟨p.told, if p.answered then some listed.card else none⟩)
    (hop : op.belongs tag listed.card = true) {keep : Finset Uuid} :
    (tag, keep) ∈ tracker.released op ↔
      keep = p.told ∧ op.mayRelease tag p = true ∧ listed.card ≤ p.told.card := by
  rw [mem_released_iff, h]
  simp only [Option.some.injEq, exists_eq_left']
  refine and_congr_right fun _ => ?_
  cases op with
  | finish tag' expected =>
    simp only [FullSyncOp.finish.injEq, reduceCtorEq, false_and, or_false,
      FullSyncOp.mayRelease, decide_eq_true_eq]
    constructor
    · rintro ⟨n, ⟨rfl, rfl⟩, hle⟩
      have hn : expected = listed.card := by simpa [FullSyncOp.belongs] using hop
      exact ⟨rfl, hn ▸ hle⟩
    · rintro ⟨rfl, hle⟩
      have hn : expected = listed.card := by simpa [FullSyncOp.belongs] using hop
      exact ⟨expected, ⟨rfl, rfl⟩, hn ▸ hle⟩
  | takeReady =>
    cases hanswered : p.answered <;> simp [FullSyncOp.mayRelease, isReady, hanswered]
  | _ => simp [FullSyncOp.mayRelease]

theorem Tracks.released_iff (h : Tracks tag listed tracker p)
    (hop : op.belongs tag listed.card = true) :
    (∀ keep, (tag, keep) ∈ tracker.released op → listed ⊆ keep) ↔
      op.timely tag listed p = true := by
  rcases h with h | ⟨hnone, hsub⟩
  · simp only [mem_released_iff_of_pending h hop, FullSyncOp.timely, Bool.or_eq_true,
      Bool.not_eq_true', decide_eq_true_eq, Finset.card_sdiff_lt_card_sdiff_iff]
    constructor
    · intro hall
      cases hmay : op.mayRelease tag p with
      | false => exact .inl (.inl rfl)
      | true =>
        by_cases hle : listed.card ≤ p.told.card
        · exact .inl (.inr (hall p.told ⟨rfl, hmay, hle⟩))
        · exact .inr (not_le.mp hle)
    · rintro ((hmay | hsub) | hlt) keep ⟨rfl, hmay', hle⟩
      · rw [hmay] at hmay'
        cases hmay'
      · exact hsub
      · exact absurd hlt (not_lt.mpr hle)
  · constructor
    · simp [FullSyncOp.timely, hsub]
    · intro _ keep hkeep
      obtain ⟨state, hstate, -⟩ := mem_released_iff.mp hkeep
      rw [hnone] at hstate
      cases hstate

theorem lookup_finish_ne {tag' : Tag} (hne : tag ≠ tag') (expected : ℕ)
    (tracker : FullSyncTracker) :
    (tracker.finish tag' expected).1.states.lookup tag = tracker.states.lookup tag := by
  unfold finish
  split
  · rfl
  · split
    · exact AList.lookup_erase_ne hne
    · exact AList.lookup_modify_ne hne _ _

theorem Tracks.finish (h : Tracks tag listed tracker p)
    (htimely : (FullSyncOp.finish tag listed.card).timely tag listed p = true) :
    Tracks tag listed (tracker.finish tag listed.card).1 { p with answered := true } := by
  rcases h with h | ⟨hnone, hsub⟩
  · unfold FullSyncTracker.finish
    rw [h]
    dsimp only
    split
    · rename_i hle
      refine .inr ⟨AList.lookup_erase _ _, ?_⟩
      simpa [FullSyncOp.timely, FullSyncOp.mayRelease, Finset.card_sdiff_lt_card_sdiff_iff,
        not_lt.mpr hle] using htimely
    · exact .inl (by simp [h])
  · refine .inr ⟨?_, hsub⟩
    unfold FullSyncTracker.finish
    rw [hnone]
    exact hnone

theorem Tracks.takeReady (h : Tracks tag listed tracker p)
    (htimely : FullSyncOp.takeReady.timely tag listed p = true) :
    Tracks tag listed tracker.takeReady.1 p := by
  rcases h with h | ⟨hnone, hsub⟩
  · simp only [Tracks, FullSyncTracker.takeReady, AList.lookup_filterRows, h, Option.filter_some]
    cases hanswered : p.answered with
    | false => simp [isReady]
    | true =>
      by_cases hle : listed.card ≤ p.told.card
      · refine .inr ⟨by simp [isReady, hle], ?_⟩
        simpa [FullSyncOp.timely, FullSyncOp.mayRelease, hanswered,
          Finset.card_sdiff_lt_card_sdiff_iff, not_lt.mpr hle] using htimely
      · exact .inl (by simp [isReady, hle])
  · exact .inr ⟨by simp [FullSyncTracker.takeReady, hnone], hsub⟩

theorem Tracks.step (h : Tracks tag listed tracker p) (hop : op.belongs tag listed.card = true)
    (htimely : op.timely tag listed p = true) :
    Tracks tag listed (tracker.step op) (op.tells tag p) := by
  cases op with
  | arm tag' =>
    have hne : tag ≠ tag' := fun heq => by simp [FullSyncOp.belongs, heq] at hop
    exact h.congr (AList.lookup_insert_ne hne)
  | cancel tag' =>
    have hne : tag ≠ tag' := fun heq => by simp [FullSyncOp.belongs, heq] at hop
    exact h.congr (AList.lookup_erase_ne hne)
  | record tag' connId =>
    by_cases htag : tag' = tag
    · subst htag
      simp only [FullSyncTracker.step, record, FullSyncOp.tells, if_true]
      rcases h with h | ⟨hnone, hsub⟩
      · exact .inl (by simp [h])
      · exact .inr ⟨by simp [hnone], hsub.trans (Finset.subset_insert _ _)⟩
    · simp only [FullSyncTracker.step, FullSyncOp.tells, if_neg htag]
      exact h.congr (AList.lookup_modify_ne (Ne.symm htag) _ _)
  | finish tag' expected =>
    by_cases htag : tag' = tag
    · subst htag
      obtain rfl : expected = listed.card := by simpa [FullSyncOp.belongs] using hop
      simpa only [FullSyncTracker.step, FullSyncOp.tells, if_true] using h.finish htimely
    · simp only [FullSyncTracker.step, FullSyncOp.tells, if_neg htag]
      exact h.congr (lookup_finish_ne (Ne.symm htag) expected tracker)
  | takeReady => exact h.takeReady htimely

theorem Tracks.keepsListed_iff (h : Tracks tag listed tracker p) {ops : List FullSyncOp}
    (hops : ∀ op ∈ ops, op.belongs tag listed.card = true) :
    KeepsListed tag listed tracker ops ↔
      Run.Along (FullSyncOp.tells tag) (fun p op => op.timely tag listed p = true) p ops := by
  induction ops generalizing tracker p with
  | nil => exact Iff.rfl
  | cons op ops ih =>
    have hop := hops op (by simp)
    have hrest : ∀ op' ∈ ops, op'.belongs tag listed.card = true :=
      fun op' hop' => hops op' (List.mem_cons_of_mem op hop')
    rw [KeepsListed, Run.along_cons, h.released_iff hop]
    exact and_congr_right fun htimely => ih (h.step hop htimely) hrest

end FullSyncTracker

/-- In the full sync of a tag, whatever else happens on the tracker, every set
released contains the list exactly when every call that may release is timely. -/
theorem fullSync_keepsListed_iff (tracker : FullSyncTracker) (tag : Tag) (listed : Finset Uuid)
    (ops : List FullSyncOp) (hops : ∀ op ∈ ops, op.belongs tag listed.card = true) :
    (tracker.arm tag).KeepsListed tag listed ops ↔
      Run.Along (FullSyncOp.tells tag) (fun p op => op.timely tag listed p = true) ⟨∅, false⟩
        ops :=
  FullSyncTracker.Tracks.keepsListed_iff (.inl (by simp [FullSyncTracker.arm])) hops

/-- The listed connection arrives before the answer, and an unlisted one after it. -/
theorem fullSync_keepsListed_delta_last :
    Run.Along (FullSyncOp.tells .wireguard)
        (fun p op => op.timely .wireguard {1} p = true) ⟨∅, false⟩
        [.record .wireguard 1, .finish .wireguard 1, .record .wireguard 2, .takeReady] ∧
      ((⟨∅⟩ : FullSyncTracker).arm .wireguard).KeepsListed .wireguard {1}
        [.record .wireguard 1, .finish .wireguard 1, .record .wireguard 2, .takeReady] := by
  have htimely : Run.Along (FullSyncOp.tells .wireguard)
      (fun p op => op.timely .wireguard {1} p = true) ⟨∅, false⟩
      [.record .wireguard 1, .finish .wireguard 1, .record .wireguard 2, .takeReady] := by decide
  exact ⟨htimely, (fullSync_keepsListed_iff ⟨∅⟩ .wireguard {1} _ (by decide)).mpr htimely⟩

/-- A message about an unlisted connection that arrives between the request and the
answer is enough for the answer to release a set without the listed connection,
whose message comes later. -/
theorem not_fullSync_keepsListed_delta_first :
    (∀ op ∈ [FullSyncOp.record .wireguard 2, .finish .wireguard 1, .record .wireguard 1],
        op.belongs .wireguard ({1} : Finset Uuid).card = true) ∧
      ¬ ((⟨∅⟩ : FullSyncTracker).arm .wireguard).KeepsListed .wireguard {1}
        [.record .wireguard 2, .finish .wireguard 1, .record .wireguard 1] := by
  have hops : ∀ op ∈ [FullSyncOp.record .wireguard 2, .finish .wireguard 1, .record .wireguard 1],
      op.belongs .wireguard ({1} : Finset Uuid).card = true := by decide
  have hstart : FullSyncTracker.Tracks .wireguard {1}
      ((⟨∅⟩ : FullSyncTracker).arm .wireguard) ⟨∅, false⟩ := .inl rfl
  refine ⟨hops, fun hkeeps => ?_⟩
  exact absurd ((hstart.keepsListed_iff hops).mp hkeeps) (by decide)

end Fcore
