import Mathlib.Data.List.Pairwise
import Mathlib.Order.Defs.LinearOrder
import Mathlib.Order.Lattice
import Fcore.Lib.RowTable
import Fcore.Lib.Run

/-!
# Mailboxes with expiry

Messages wait in a table until the one they are addressed to takes them, or until they
expire. Every operation works with a reading of the clock that may be older than the
clock itself, for the reading is taken before the operation gets its turn.

The history of a run is part of the state: every message inserted, and for each
take what it took. `Sound` says that no message is lost or handed out twice and that
no mailbox holds more than its capacity; every operation keeps it. Messages of one
mailbox come out in the order in which they went in as long as no take works with an
older reading than an earlier one, and `Settled` is the reason: what a take leaves in
the table has expired by its reading, or is younger than what it took.
-/

namespace Fcore

namespace Mailbox

variable {κ τ α : Type*}

structure Taken (κ τ α : Type*) where
  key : κ
  now : τ
  rows : List (ℕ × α)
  deriving DecidableEq

structure State (κ τ α : Type*) where
  table : RowTable α
  inserted : List (ℕ × α)
  taken : List (Taken κ τ α)
  clock : τ

inductive Op (κ τ α : Type*) where
  | insert (a : α) (now : τ)
  | take (key : κ) (now : τ)
  | expire (now : τ)
  | tick (now : τ)

variable {now : τ}

section Machine

variable [LinearOrder τ] [DecidableEq κ] (addr : α → κ) (expires : α → τ) (cap : ℕ)

def pending (key : κ) (now : τ) (a : α) : Bool := decide (addr a = key) && decide (now < expires a)

def step (s : State κ τ α) : Op κ τ α → State κ τ α
  | .insert a now =>
    if now ≤ s.clock ∧ s.table.count (pending addr expires (addr a) now) < cap then
      { s with table := s.table.insert a, inserted := s.inserted ++ [s.table.next a] }
    else s
  | .take key now =>
    if now ≤ s.clock then
      { s with
        table := s.table.deleteWhere (pending addr expires key now)
        taken := s.taken ++ [⟨key, now, s.table.select (pending addr expires key now)⟩] }
    else s
  | .expire now =>
    if now ≤ s.clock then
      { s with table := s.table.deleteWhere fun a => !decide (now < expires a) }
    else s
  | .tick now => { s with clock := max s.clock now }

def start (table : RowTable α) (clock : τ) : State κ τ α := ⟨table, table.rows, [], clock⟩

/-- What holds of the messages at every moment. -/
structure Sound (s : State κ τ α) : Prop where
  ordered : s.inserted.Pairwise fun r r' => r.1 < r'.1
  bounded : ∀ r ∈ s.inserted, r.1 ≤ s.table.last
  rows_mem : ∀ r ∈ s.table.rows, r ∈ s.inserted
  taken_mem : ∀ t ∈ s.taken, ∀ r ∈ t.rows, r ∈ s.inserted ∧ r ∉ s.table.rows ∧ addr r.2 = t.key
  once : (s.taken.flatMap Taken.rows).Nodup
  kept : ∀ r ∈ s.inserted, r ∈ s.table.rows ∨ (∃ t ∈ s.taken, r ∈ t.rows) ∨ expires r.2 ≤ s.clock
  capped : ∀ key, s.table.count (pending addr expires key s.clock) ≤ cap
  readings : ∀ t ∈ s.taken, t.now ≤ s.clock

/-- What a take has left for its key is younger than what it took, or had expired. -/
def Settled (s : State κ τ α) : Prop :=
  ∀ t ∈ s.taken, ∀ r ∈ s.table.rows, addr r.2 = t.key →
    (∀ r' ∈ t.rows, r'.1 < r.1) ∨ expires r.2 ≤ t.now

/-- The messages taken for a key, in the order of the takes. -/
def State.takenFor (key : κ) (s : State κ τ α) : List (ℕ × α) :=
  (s.taken.filter fun t => decide (t.key = key)).flatMap Taken.rows

def InOrder (s : State κ τ α) : Prop :=
  ∀ key, (s.takenFor key).Pairwise fun r r' => r.1 < r'.1

/-- A take does not work with an older reading than an earlier take for its key. -/
def Timely (s : State κ τ α) : Op κ τ α → Prop
  | .take key now => ∀ t ∈ s.taken, t.key = key → t.now ≤ now
  | _ => True

variable {addr expires cap} {s : State κ τ α}

theorem pending_iff {key : κ} {a : α} :
    pending addr expires key now a = true ↔ addr a = key ∧ now < expires a := by
  simp [pending]

theorem sound_start {table : RowTable α} {clock : τ}
    (h : ∀ key, table.count (pending addr expires key clock) ≤ cap) :
    Sound addr expires cap (start table clock : State κ τ α) where
  ordered := table.ordered
  bounded := table.bounded
  rows_mem := fun r hr => hr
  taken_mem := by simp [start]
  once := by simp [start]
  kept := fun r hr => .inl hr
  capped := h
  readings := by simp [start]

theorem count_pending_anti (table : RowTable α) (key : κ) {now' : τ} (h : now ≤ now') :
    table.count (pending addr expires key now') ≤ table.count (pending addr expires key now) := by
  apply List.Sublist.length_le
  apply List.monotone_filter_right
  intro r hr
  obtain ⟨haddr, hexpires⟩ := pending_iff.mp hr
  exact pending_iff.mpr ⟨haddr, lt_of_le_of_lt h hexpires⟩

theorem count_deleteWhere_le (p q : α → Bool) (table : RowTable α) :
    (table.deleteWhere p).count q ≤ table.count q :=
  (List.Sublist.filter _ List.filter_sublist).length_le

theorem Sound.insert (h : Sound addr expires cap s) {a : α} (hnow : now ≤ s.clock)
    (hroom : s.table.count (pending addr expires (addr a) now) < cap) :
    Sound addr expires cap
      { s with table := s.table.insert a, inserted := s.inserted ++ [s.table.next a] } where
  ordered := by
    refine List.pairwise_append.mpr ⟨h.ordered, List.pairwise_singleton _ _, ?_⟩
    intro r hr r' hr'
    rw [List.mem_singleton.mp hr']
    exact Nat.lt_succ_of_le (h.bounded r hr)
  bounded := by
    intro r hr
    rcases List.mem_append.mp hr with hr | hr
    · exact Nat.le_succ_of_le (h.bounded r hr)
    · rw [List.mem_singleton.mp hr]
      exact Nat.le_refl _
  rows_mem := by
    intro r hr
    rcases List.mem_append.mp hr with hr | hr
    · exact List.mem_append_left _ (h.rows_mem r hr)
    · exact List.mem_append_right _ hr
  taken_mem := by
    intro t ht r hr
    obtain ⟨hmem, hnot, haddr⟩ := h.taken_mem t ht r hr
    refine ⟨List.mem_append_left _ hmem, ?_, haddr⟩
    intro hrow
    rcases List.mem_append.mp hrow with hrow | hrow
    · exact hnot hrow
    · have hnext := h.bounded r hmem
      rw [List.mem_singleton.mp hrow] at hnext
      exact Nat.not_succ_le_self _ hnext
  once := h.once
  kept := by
    intro r hr
    rcases List.mem_append.mp hr with hr | hr
    · exact (h.kept r hr).imp_left (List.mem_append_left _)
    · exact .inl (List.mem_append_right _ hr)
  capped := by
    intro key
    rw [RowTable.count_insert]
    split
    · rename_i hpending
      obtain ⟨rfl, -⟩ := pending_iff.mp hpending
      exact Nat.lt_of_le_of_lt (count_pending_anti s.table (addr a) hnow) hroom
    · exact h.capped key
  readings := h.readings

theorem Sound.take (h : Sound addr expires cap s) (key : κ) (hnow : now ≤ s.clock) :
    Sound addr expires cap
      { s with
        table := s.table.deleteWhere (pending addr expires key now)
        taken := s.taken ++ [⟨key, now, s.table.select (pending addr expires key now)⟩] } where
  ordered := h.ordered
  bounded := h.bounded
  rows_mem := fun r hr => h.rows_mem r (List.mem_of_mem_filter hr)
  taken_mem := by
    intro t ht r hr
    rcases List.mem_append.mp ht with ht | ht
    · obtain ⟨hmem, hnot, haddr⟩ := h.taken_mem t ht r hr
      exact ⟨hmem, fun hrow => hnot (List.mem_of_mem_filter hrow), haddr⟩
    · rw [List.mem_singleton.mp ht] at hr ⊢
      obtain ⟨hrow, hpending⟩ := RowTable.mem_select.mp hr
      refine ⟨h.rows_mem r hrow, ?_, (pending_iff.mp hpending).1⟩
      intro hleft
      have hnot := (List.mem_filter.mp hleft).2
      rw [hpending] at hnot
      cases hnot
  once := by
    rw [List.flatMap_append, List.flatMap_singleton]
    have hnodup : (s.table.select (pending addr expires key now)).Nodup := by
      have hrows : s.table.rows.Nodup := s.table.ordered.imp fun hlt heq => by
        rw [heq] at hlt
        exact Nat.lt_irrefl _ hlt
      exact hrows.filter _
    refine List.nodup_append.mpr ⟨h.once, hnodup, ?_⟩
    intro r hr r' hr' heq
    obtain ⟨t, ht, hrt⟩ := List.mem_flatMap.mp hr
    rw [heq] at hrt
    exact (h.taken_mem t ht r' hrt).2.1 (RowTable.mem_select.mp hr').1
  kept := by
    intro r hr
    rcases h.kept r hr with hrow | ⟨t, ht, hrt⟩ | hexpired
    · cases hpending : pending addr expires key now r.2 with
      | true =>
        exact .inr (.inl ⟨_, List.mem_append_right _ (List.mem_singleton_self _),
          RowTable.mem_select.mpr ⟨hrow, hpending⟩⟩)
      | false => exact .inl (List.mem_filter.mpr ⟨hrow, by simp [hpending]⟩)
    · exact .inr (.inl ⟨t, List.mem_append_left _ ht, hrt⟩)
    · exact .inr (.inr hexpired)
  capped := fun key' => (count_deleteWhere_le _ _ _).trans (h.capped key')
  readings := by
    intro t ht
    rcases List.mem_append.mp ht with ht | ht
    · exact h.readings t ht
    · rw [List.mem_singleton.mp ht]
      exact hnow

theorem Sound.expire (h : Sound addr expires cap s) (hnow : now ≤ s.clock) :
    Sound addr expires cap
      { s with table := s.table.deleteWhere fun a => !decide (now < expires a) } where
  ordered := h.ordered
  bounded := h.bounded
  rows_mem := fun r hr => h.rows_mem r (List.mem_of_mem_filter hr)
  taken_mem := by
    intro t ht r hr
    obtain ⟨hmem, hnot, haddr⟩ := h.taken_mem t ht r hr
    exact ⟨hmem, fun hrow => hnot (List.mem_of_mem_filter hrow), haddr⟩
  once := h.once
  kept := by
    intro r hr
    rcases h.kept r hr with hrow | htaken
    · by_cases hlive : now < expires r.2
      · exact .inl (List.mem_filter.mpr ⟨hrow, by simp [hlive]⟩)
      · exact .inr (.inr ((not_lt.mp hlive).trans hnow))
    · exact .inr htaken
  capped := fun key => (count_deleteWhere_le _ _ _).trans (h.capped key)
  readings := h.readings

theorem Sound.tick (h : Sound addr expires cap s) (now : τ) :
    Sound addr expires cap { s with clock := max s.clock now } where
  ordered := h.ordered
  bounded := h.bounded
  rows_mem := h.rows_mem
  taken_mem := h.taken_mem
  once := h.once
  kept := fun r hr => (h.kept r hr).imp_right fun hr =>
    hr.imp_right fun hexpired => hexpired.trans (le_max_left _ _)
  capped := fun key => (count_pending_anti s.table key (le_max_left _ _)).trans (h.capped key)
  readings := fun t ht => (h.readings t ht).trans (le_max_left _ _)

theorem Sound.step (h : Sound addr expires cap s) (op : Op κ τ α) :
    Sound addr expires cap (step addr expires cap s op) := by
  cases op with
  | insert a now =>
    dsimp only [Mailbox.step]
    split
    · rename_i hok
      exact h.insert hok.1 hok.2
    · exact h
  | take key now =>
    dsimp only [Mailbox.step]
    split
    · rename_i hnow
      exact h.take key hnow
    · exact h
  | expire now =>
    dsimp only [Mailbox.step]
    split
    · rename_i hnow
      exact h.expire hnow
    · exact h
  | tick now => exact h.tick now

omit [DecidableEq κ] in
theorem Settled.of_subset (h : Settled addr expires s) {s' : State κ τ α}
    (htaken : s'.taken = s.taken) (hrows : ∀ r ∈ s'.table.rows, r ∈ s.table.rows) :
    Settled addr expires s' := by
  intro t ht r hr haddr
  rw [htaken] at ht
  exact h t ht r (hrows r hr) haddr

theorem Settled.step (h : Settled addr expires s) (hs : Sound addr expires cap s)
    (op : Op κ τ α) : Settled addr expires (step addr expires cap s op) := by
  cases op with
  | insert a now =>
    dsimp only [Mailbox.step]
    split
    · intro t ht r hr haddr
      rcases List.mem_append.mp hr with hr | hr
      · exact h t ht r hr haddr
      · left
        intro r' hr'
        rw [List.mem_singleton.mp hr]
        exact Nat.lt_succ_of_le (hs.bounded r' (hs.taken_mem t ht r' hr').1)
    · exact h
  | take key now =>
    dsimp only [Mailbox.step]
    split
    · intro t ht r hr haddr
      rcases List.mem_append.mp ht with ht | ht
      · exact h t ht r (List.mem_of_mem_filter hr) haddr
      · right
        rw [List.mem_singleton.mp ht] at haddr ⊢
        have hnot := (List.mem_filter.mp hr).2
        simpa [pending, haddr] using hnot
    · exact h
  | expire now =>
    dsimp only [Mailbox.step]
    split
    · exact h.of_subset rfl fun r hr => List.mem_of_mem_filter hr
    · exact h
  | tick now => exact h

theorem InOrder.step (h : InOrder s) (hsettled : Settled addr expires s) (op : Op κ τ α)
    (hop : Timely s op) : InOrder (step addr expires cap s op) := by
  cases op with
  | take key now =>
    dsimp only [Mailbox.step]
    split
    · intro key'
      simp only [State.takenFor, List.filter_append, List.flatMap_append]
      by_cases hkey : key = key'
      · subst hkey
        simp only [List.filter_cons, decide_true, if_true, List.filter_nil,
          List.flatMap_singleton]
        refine List.pairwise_append.mpr ⟨h key, s.table.ordered.filter _, ?_⟩
        intro r hr r' hr'
        obtain ⟨t, ht, hrt⟩ := List.mem_flatMap.mp hr
        obtain ⟨htaken, htkey⟩ := List.mem_filter.mp ht
        obtain ⟨hrow, hpending⟩ := RowTable.mem_select.mp hr'
        obtain ⟨haddr, hlive⟩ := pending_iff.mp hpending
        have htkey := of_decide_eq_true htkey
        rcases hsettled t htaken r' hrow (haddr.trans htkey.symm) with hyounger | hexpired
        · exact hyounger r hrt
        · exact absurd (hexpired.trans (hop t htaken htkey)) (not_le.mpr hlive)
      · have horder := h key'
        simp only [State.takenFor] at horder
        simpa [hkey] using horder
    · exact h
  | insert a now =>
    dsimp only [Mailbox.step]
    split
    · exact h
    · exact h
  | expire now =>
    dsimp only [Mailbox.step]
    split
    · exact h
    · exact h
  | tick now => exact h

end Machine

end Mailbox

end Fcore
