import Fcore.Lib.Interleave
import Fcore.Metrics.Snapshot

/-!
# Collection next to insertions

Each map of the metric store has locks of its own, and an operation on one map is one step. An
insertion that finds no metadata for its key holds the shard of the metadata while it indexes the
tags one by one, and then puts the metadata there. A collection drops from the metadata what it
has not found alive, and in a later step drops the same keys from the index. A series that gets
its metadata between these two steps is dropped from the index and stays in the metadata. No
query by tags finds it from then on, since later insertions see the metadata and do not index it
again.
-/

namespace Fcore

inductive InsertStage where
  | waiting
  | indexing (tags : Tags)
  | described
  | done

inductive GcStage where
  | waiting
  | scanning (alive : List UInt64)
  | forgetting (alive : List UInt64)
  | done

inductive MetricTask where
  | insert (e : MetricEnvelope) (stage : InsertStage)
  | gc (now : ℤ) (stage : GcStage)

/-- The store, and the keys whose metadata are being made. -/
structure MetricWorld where
  store : MetricStorage
  locked : List UInt64

namespace MetricTask

open MetricStorage

def isWaiting : MetricTask → Bool
  | insert _ .waiting | gc _ .waiting => true
  | _ => false

def isDone : MetricTask → Bool
  | insert _ .done | gc _ .done => true
  | _ => false

variable (seriesKey : String → Tags → UInt64) (shard : UInt64 → ℕ)

def advanceInsert (e : MetricEnvelope) (w : MetricWorld) : InsertStage → MetricWorld × InsertStage
  | .waiting =>
    let key := seriesKey e.name e.tags
    if w.locked.any fun key' => shard key' = shard key then (w, .waiting)
    else
      match w.store.metadata.lookup key with
      | some _ => (w, .described)
      | none => ({ w with locked := key :: w.locked }, .indexing e.tags)
  | .indexing (tag :: tags) =>
    ({ w with store := { w.store with
        tagIndex := indexTag (seriesKey e.name e.tags) w.store.tagIndex tag } }, .indexing tags)
  | .indexing [] =>
    (⟨{ w.store with
        metadata := w.store.metadata.insert (seriesKey e.name e.tags) (e.name, e.tags) },
      w.locked.erase (seriesKey e.name e.tags)⟩, .described)
  | .described => ({ w with store := w.store.pushPoint (seriesKey e.name e.tags) e }, .done)
  | .done => (w, .done)

/-- The scan over the nodes takes one node at a time, until there is none to come. -/
def advanceGc (visit : Option Uuid) (now : ℤ) (w : MetricWorld) :
    GcStage → MetricWorld × GcStage
  | .waiting => ({ w with store := { w.store with
      inner := retainInner (w.store.minTs now) w.store.inner } }, .scanning [])
  | .scanning alive =>
    match visit with
    | some nodeId => (w, .scanning (alive ++ ((w.store.inner.lookup nodeId).getD ∅).keys))
    | none =>
      if w.locked.isEmpty then
        ({ w with store := { w.store with
          metadata := retainMetadata alive w.store.metadata } }, .forgetting alive)
      else (w, .scanning alive)
  | .forgetting alive => ({ w with store := { w.store with
      tagIndex := retainIndex alive w.store.tagIndex } }, .done)
  | .done => (w, .done)

def advance (visit : Option Uuid) (task : MetricTask) (w : MetricWorld) :
    MetricWorld × MetricTask :=
  match task with
  | insert e stage => (advanceInsert seriesKey shard e w stage).map id (insert e)
  | gc now stage => (advanceGc visit now w stage).map id (gc now)

/-- The collections that are about to clear the index have found the key alive. -/
def sparesKey (key : UInt64) : MetricTask → Bool
  | gc _ (.forgetting alive) => decide (key ∈ alive)
  | _ => true

/-- An insertion makes metadata only for a key that no collection drops from the index next. -/
def careful (p : Pool MetricWorld MetricTask) (turn : ℕ × Option Uuid) : Bool :=
  match p.threads[turn.1]? with
  | some (insert e .waiting) =>
    (p.shared.store.metadata.lookup (seriesKey e.name e.tags)).isSome ||
      p.threads.all (sparesKey (seriesKey e.name e.tags))
  | _ => true

/-- The shard that a task holds. -/
def held : MetricTask → Option ℕ
  | insert e (.indexing _) => some (shard (seriesKey e.name e.tags))
  | _ => none

/-- What a task has done so far, and may rely on. -/
def Fits (w : MetricWorld) : MetricTask → Prop
  | insert e (.indexing todo) => seriesKey e.name e.tags ∈ w.locked ∧
      ∀ tag ∈ e.tags, tag ∈ todo ∨ seriesKey e.name e.tags ∈ indexed w.store.tagIndex tag
  | gc _ (.forgetting alive) => (∀ key ∈ w.locked, key ∈ alive) ∧
      ∀ key, (w.store.metadata.lookup key).isSome → key ∈ alive
  | _ => True

end MetricTask

namespace MetricStorage

/-- A key with metadata is indexed under all its tags. -/
def Consistent (m : MetricStorage) : Prop :=
  ∀ key, ∀ entry ∈ m.metadata.lookup key, ∀ tag ∈ entry.2, key ∈ indexed m.tagIndex tag

end MetricStorage

namespace MetricTask

open MetricStorage

variable {seriesKey : String → Tags → UInt64} {shard : UInt64 → ℕ}
  {p : Pool MetricWorld MetricTask} {w w' : MetricWorld} {task task' : MetricTask}

structure Safe (seriesKey : String → Tags → UInt64) (shard : UInt64 → ℕ)
    (p : Pool MetricWorld MetricTask) : Prop where
  consistent : p.shared.store.Consistent
  apart : p.HeldApart (held seriesKey shard)
  fits : ∀ task ∈ p.threads, Fits seriesKey p.shared task

/-- Only a task that indexes, or is about to clear the index, relies on anything. -/
theorem Fits.frame (h : Fits seriesKey w task)
    (hindexing : ∀ e todo, task = insert e (.indexing todo) → seriesKey e.name e.tags ∈ w.locked →
      seriesKey e.name e.tags ∈ w'.locked ∧ ∀ tag,
        seriesKey e.name e.tags ∈ indexed w.store.tagIndex tag →
          seriesKey e.name e.tags ∈ indexed w'.store.tagIndex tag)
    (hforgetting : ∀ now alive, task = gc now (.forgetting alive) →
      (∀ key ∈ w.locked, key ∈ alive) →
        (∀ key, (w.store.metadata.lookup key).isSome → key ∈ alive) →
          (∀ key ∈ w'.locked, key ∈ alive) ∧
            ∀ key, (w'.store.metadata.lookup key).isSome → key ∈ alive) :
    Fits seriesKey w' task := by
  match task, h with
  | insert e (.indexing todo), ⟨hlocked, htags⟩ =>
    obtain ⟨hlocked', hindex⟩ := hindexing e todo rfl hlocked
    exact ⟨hlocked', fun tag htag => (htags tag htag).imp_right (hindex tag)⟩
  | gc now (.forgetting alive), ⟨hlocked, hmetadata⟩ =>
    exact hforgetting now alive rfl hlocked hmetadata
  | insert _ .waiting, _ | insert _ .described, _ | insert _ .done, _ => trivial
  | gc _ .waiting, _ | gc _ (.scanning _), _ | gc _ .done, _ => trivial

theorem exists_of_held {k : ℕ} (hheld : held seriesKey shard task = some k) :
    ∃ e todo, task = insert e (.indexing todo) ∧ shard (seriesKey e.name e.tags) = k := by
  match task, hheld with
  | insert e (.indexing todo), hheld => exact ⟨e, todo, rfl, Option.some.inj hheld⟩

theorem Safe.set (h : Safe seriesKey shard p) {i : ℕ} (htask : p.threads[i]? = some task)
    (hconsistent : w'.store.Consistent)
    (hheld : ∀ k, held seriesKey shard task' = some k → held seriesKey shard task = some k ∨
      ∀ t ∈ p.threads, held seriesKey shard t ≠ some k)
    (hown : Fits seriesKey w' task')
    (hother : ∀ t ∈ p.threads, (∀ k, held seriesKey shard task = some k →
      held seriesKey shard t ≠ some k) → Fits seriesKey p.shared t → Fits seriesKey w' t) :
    Safe seriesKey shard ⟨w', p.threads.set i task'⟩ := by
  refine ⟨hconsistent, h.apart.set htask (fun k hk => ?_) _, fun t ht => ?_⟩
  · rcases hheld k hk with hkept | hfree
    · exact .inl hkept
    · exact .inr fun j t ht => hfree t (List.mem_of_getElem? ht)
  · obtain ⟨j, hj⟩ := List.getElem?_of_mem ht
    rcases Pool.eq_or_of_getElem?_set hj with ⟨-, rfl⟩ | ⟨hne, hj⟩
    · exact hown
    · have hmem := List.mem_of_getElem? hj
      exact hother t hmem (fun k hk => h.apart i j task t k hne.symm htask hj hk) (h.fits t hmem)

/-- A move that leaves the locks, the metadata and the index as they are. -/
theorem Safe.set_of_same (h : Safe seriesKey shard p) {i : ℕ} (htask : p.threads[i]? = some task)
    (hlocked : w'.locked = p.shared.locked)
    (hmetadata : w'.store.metadata = p.shared.store.metadata)
    (hindex : w'.store.tagIndex = p.shared.store.tagIndex)
    (hheld : held seriesKey shard task' = none) (hown : Fits seriesKey w' task') :
    Safe seriesKey shard ⟨w', p.threads.set i task'⟩ := by
  refine h.set htask ?_ (fun k hk => ?_) hown fun t _ _ hfits => hfits.frame ?_ ?_
  · rw [Consistent, hmetadata, hindex]
    exact h.consistent
  · rw [hheld] at hk
    cases hk
  · intro e todo _ hmem
    rw [hlocked, hindex]
    exact ⟨hmem, fun _ => id⟩
  · intro now alive _ hkeys hsome
    rw [hlocked, hmetadata]
    exact ⟨hkeys, hsome⟩

theorem Safe.insert_step (h : Safe seriesKey shard p) {i : ℕ} {e : MetricEnvelope}
    {stage : InsertStage} (htask : p.threads[i]? = some (insert e stage))
    (hcareful : stage = .waiting →
      (p.shared.store.metadata.lookup (seriesKey e.name e.tags)).isSome ∨
        ∀ t ∈ p.threads, sparesKey (seriesKey e.name e.tags) t = true) :
    Safe seriesKey shard ⟨(advanceInsert seriesKey shard e p.shared stage).1,
      p.threads.set i (insert e (advanceInsert seriesKey shard e p.shared stage).2)⟩ := by
  have hfits := h.fits _ (List.mem_of_getElem? htask)
  match stage with
  | .waiting =>
    rw [advanceInsert]
    split_ifs with hbusy
    · exact h.set_of_same htask rfl rfl rfl rfl trivial
    · cases hlookup : p.shared.store.metadata.lookup (seriesKey e.name e.tags) with
      | some entry => exact h.set_of_same htask rfl rfl rfl rfl trivial
      | none =>
        have hspares := (hcareful rfl).resolve_left (by simp [hlookup])
        refine h.set htask h.consistent (fun k hk => .inr fun t ht hheld => ?_)
          ⟨List.mem_cons_self, fun tag htag => .inl htag⟩ fun t ht _ hfits => hfits.frame ?_ ?_
        · -- a task that holds the shard has locked a key in it
          cases hk
          obtain ⟨e', todo, rfl, hshard⟩ := exists_of_held hheld
          refine hbusy (List.any_eq_true.mpr ⟨_, (h.fits _ ht).1, ?_⟩)
          exact decide_eq_true hshard
        · intro e' todo _ hmem
          exact ⟨List.mem_cons_of_mem _ hmem, fun _ => id⟩
        · intro now alive heq hkeys hsome
          refine ⟨fun key hkey => ?_, hsome⟩
          rcases List.mem_cons.mp hkey with rfl | hkey
          · have := hspares t ht
            rw [heq] at this
            exact of_decide_eq_true this
          · exact hkeys key hkey
  | .indexing (tag :: tags) =>
    have hgrows : ∀ key tag', key ∈ indexed p.shared.store.tagIndex tag' →
        key ∈ indexed (indexTag (seriesKey e.name e.tags) p.shared.store.tagIndex tag) tag' :=
      fun key tag' hkey => mem_indexed_indexTag.mpr (.inl hkey)
    refine h.set htask (fun key entry hentry tag' htag' => hgrows key tag' ?_)
      (fun k hk => .inl hk) ⟨hfits.1, fun tag' htag' => ?_⟩ fun t _ _ hfits => hfits.frame ?_ ?_
    · exact h.consistent key entry hentry tag' htag'
    · rcases hfits.2 tag' htag' with hmem | hindexed
      · rcases List.mem_cons.mp hmem with rfl | hmem
        · exact .inr (mem_indexed_indexTag.mpr (.inr ⟨rfl, rfl⟩))
        · exact .inl hmem
      · exact .inr (hgrows _ tag' hindexed)
    · intro e' todo _ hmem
      exact ⟨hmem, fun tag' => hgrows _ tag'⟩
    · intro now alive _ hkeys hsome
      exact ⟨hkeys, hsome⟩
  | .indexing [] =>
    have hindexed : ∀ tag ∈ e.tags,
        seriesKey e.name e.tags ∈ indexed p.shared.store.tagIndex tag := by
      intro tag htag
      exact (hfits.2 tag htag).resolve_left List.not_mem_nil
    have hlookup : ∀ key, (advanceInsert seriesKey shard e p.shared
        (.indexing [])).1.store.metadata.lookup key = if key = seriesKey e.name e.tags then
          some (e.name, e.tags) else p.shared.store.metadata.lookup key :=
      fun key => AList.lookup_insert_eq_ite _ key _ _
    refine h.set htask (fun key entry hentry tag htag => ?_) (fun k hk => by cases hk) trivial
      fun t _ hapart hfits' => hfits'.frame ?_ ?_
    · rw [hlookup] at hentry
      split_ifs at hentry with heq
      · cases hentry
        rw [heq]
        exact hindexed tag htag
      · exact h.consistent key entry hentry tag htag
    · rintro e' todo rfl hmem
      have hne : seriesKey e'.name e'.tags ≠ seriesKey e.name e.tags := by
        intro heq
        exact hapart _ rfl (congrArg some (congrArg shard heq))
      exact ⟨(List.mem_erase_of_ne hne).mpr hmem, fun _ => id⟩
    · intro now alive _ hkeys hsome
      refine ⟨fun key hkey => hkeys key (List.mem_of_mem_erase hkey), fun key hkey => ?_⟩
      rw [hlookup] at hkey
      split_ifs at hkey with heq
      · rw [heq]
        exact hkeys _ hfits.1
      · exact hsome key hkey
  | .described => exact h.set_of_same htask rfl rfl rfl rfl trivial
  | .done => exact h.set_of_same htask rfl rfl rfl rfl trivial

theorem Safe.gc_step (h : Safe seriesKey shard p) {i : ℕ} {now : ℤ} {stage : GcStage}
    (htask : p.threads[i]? = some (gc now stage)) (visit : Option Uuid) :
    Safe seriesKey shard ⟨(advanceGc visit now p.shared stage).1,
      p.threads.set i (gc now (advanceGc visit now p.shared stage).2)⟩ := by
  have hfits := h.fits _ (List.mem_of_getElem? htask)
  match stage, visit with
  | .waiting, _ => exact h.set_of_same htask rfl rfl rfl rfl trivial
  | .scanning alive, some nodeId => exact h.set_of_same htask rfl rfl rfl rfl trivial
  | .scanning alive, none =>
    rw [advanceGc]
    split_ifs with hempty
    · have hmetadata : ∀ key, ∀ entry ∈
          (retainMetadata alive p.shared.store.metadata).lookup key,
            entry ∈ p.shared.store.metadata.lookup key ∧ key ∈ alive := by
        intro key entry hentry
        rw [retainMetadata, AList.lookup_filterRows] at hentry
        obtain ⟨hold, halive⟩ := Option.filter_eq_some_iff.mp hentry
        exact ⟨hold, of_decide_eq_true halive⟩
      have hnone : p.shared.locked = [] := List.isEmpty_iff.mp hempty
      refine h.set htask (fun key entry hentry tag htag => ?_) (fun k hk => by cases hk)
        ⟨fun key hkey => ?_, fun key hkey => ?_⟩ fun t _ _ hfits' => hfits'.frame ?_ ?_
      · exact h.consistent key entry (hmetadata key entry hentry).1 tag htag
      · rw [hnone] at hkey
        cases hkey
      · obtain ⟨entry, hentry⟩ := Option.isSome_iff_exists.mp hkey
        exact (hmetadata key entry hentry).2
      · intro e todo _ hmem
        exact ⟨hmem, fun _ => id⟩
      · intro now' alive' _ hkeys hsome
        refine ⟨hkeys, fun key hkey => hsome key ?_⟩
        obtain ⟨entry, hentry⟩ := Option.isSome_iff_exists.mp hkey
        exact Option.isSome_of_mem (hmetadata key entry hentry).1
    · exact h.set_of_same htask rfl rfl rfl rfl trivial
  | .forgetting alive, _ =>
    have hkept : ∀ key ∈ alive, ∀ tag, key ∈ indexed p.shared.store.tagIndex tag →
        key ∈ indexed (retainIndex alive p.shared.store.tagIndex) tag := by
      intro key hkey tag hmem
      rw [indexed_retainIndex]
      exact List.mem_filter.mpr ⟨hmem, decide_eq_true hkey⟩
    refine h.set htask (fun key entry hentry tag htag => ?_) (fun k hk => by cases hk) trivial
      fun t _ _ hfits' => hfits'.frame ?_ ?_
    · exact hkept key (hfits.2 key (Option.isSome_of_mem hentry)) tag
        (h.consistent key entry hentry tag htag)
    · intro e todo _ hmem
      exact ⟨hmem, hkept _ (hfits.1 _ hmem)⟩
    · intro now' alive' _ hkeys hsome
      exact ⟨hkeys, hsome⟩
  | .done, _ => exact h.set_of_same htask rfl rfl rfl rfl trivial

theorem Safe.step (h : Safe seriesKey shard p) (turn : ℕ × Option Uuid)
    (hcareful : careful seriesKey p turn = true) :
    Safe seriesKey shard (p.step (advance seriesKey shard) turn) := by
  refine Pool.step_keeps h fun task htask => ?_
  cases task with
  | insert e stage =>
    refine h.insert_step htask ?_
    rintro rfl
    rw [careful, htask] at hcareful
    simpa using hcareful
  | gc now stage => exact h.gc_step htask turn.2

/-- In a run of insertions and collections in which no insertion makes metadata for a key that a
collection has dropped from the metadata and is about to drop from the index, every key with
metadata is indexed under all its tags. -/
theorem consistent_of_careful (seriesKey : String → Tags → UInt64) (shard : UInt64 → ℕ)
    (m : MetricStorage) (tasks : List MetricTask) (turns : List (ℕ × Option Uuid))
    (hm : m.Consistent) (htasks : ∀ task ∈ tasks, task.isWaiting = true)
    (hrun : Run.Along (Pool.step (advance seriesKey shard))
      (fun p turn => careful seriesKey p turn = true) ⟨⟨m, []⟩, tasks⟩ turns) :
    (turns.foldl (Pool.step (advance seriesKey shard)) ⟨⟨m, []⟩, tasks⟩).shared.store.Consistent := by
  have hwaiting : ∀ task ∈ tasks, held seriesKey shard task = none ∧
      Fits seriesKey ⟨m, []⟩ task := by
    intro task htask
    match task, htasks task htask with
    | insert e .waiting, _ => exact ⟨rfl, trivial⟩
    | gc now .waiting, _ => exact ⟨rfl, trivial⟩
  have hstart : Safe seriesKey shard ⟨⟨m, []⟩, tasks⟩ := by
    refine ⟨hm, fun i j t t' k _ ht _ hk => ?_, fun task htask => (hwaiting task htask).2⟩
    rw [(hwaiting t (List.mem_of_getElem? ht)).1] at hk
    cases hk
  exact (Run.invariant_end (fun p turn h hturn => h.step turn hturn) hstart hrun).consistent

def connEnvelope : MetricEnvelope := ⟨0, uplinkMetric, 5, 1000, [("conn_id", "c")]⟩

/-- An insertion before, and one after, the steps that drop keys. -/
def carefulTurns : List (ℕ × Option Uuid) :=
  [(0, none), (0, none), (0, none), (0, none), (2, none), (2, some 0), (2, none), (1, none),
    (1, none), (2, none)]

theorem consistent_of_careful_run :
    let p := carefulTurns.foldl (Pool.step (advance (fun _ _ => 7) fun _ => 0))
      ⟨⟨new 10 60, []⟩, [insert connEnvelope .waiting, insert connEnvelope .waiting,
        gc 2000 .waiting]⟩
    p.threads.all isDone = true ∧ p.shared.store.Consistent := by
  refine ⟨by decide +kernel, consistent_of_careful (fun _ _ => 7) (fun _ => 0) (new 10 60)
    [insert connEnvelope .waiting, insert connEnvelope .waiting, gc 2000 .waiting] carefulTurns
    (fun key entry hentry => ?_) (by decide) (by decide +kernel)⟩
  cases hentry

-- the insertion runs between the two steps of the collection
theorem inconsistent_after_gc :
    let p := ([(1, none), (1, none), (0, none), (0, none), (0, none), (0, none), (1, none)] :
      List (ℕ × Option Uuid)).foldl (Pool.step (advance (fun _ _ => 7) fun _ => 0))
        ⟨⟨new 10 60, []⟩, [insert connEnvelope .waiting, gc 2000 .waiting]⟩
    p.threads.all isDone = true ∧
      seriesIn p.shared.store.inner 0 7 = some [⟨1000, 5⟩] ∧
      p.shared.store.metadata.lookup 7 = some (uplinkMetric, [("conn_id", "c")]) ∧
      indexed p.shared.store.tagIndex ("conn_id", "c") = [] := by
  decide +kernel

end MetricTask

end Fcore
