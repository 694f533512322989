import Mathlib.Algebra.BigOperators.Group.List.Basic
import Mathlib.Algebra.Order.BigOperators.Group.List
import Mathlib.Algebra.Order.Group.Unbundled.Int
import Mathlib.Data.Int.ConditionallyCompleteOrder
import Mathlib.Tactic.Abel
import Mathlib.Tactic.Linarith
import Fcore.Lib.SortDedup

/-!
# Cutting a time line

A period is cut into windows at a sorted list of edges. This file has what is
needed to reason about the windows: what a loop that walks down a sequence of
edges collects, and what the windows of a list are.

The last part is about a series of samples, each with a time and a value, read
window by window. The rise of the series inside a closed window is its last
value there less its first. Summed over all windows, the rise between two
consecutive samples is counted once for every window that holds both, so a rise
across an edge is lost and a rise between two samples on an edge is counted
again. `sum_rise_add_lost` is the exact account.
-/

namespace Fcore

namespace Timeline

section Windows

variable {α β : Type*}

def windows (l : List α) : List (α × α) := l.zip l.tail

@[simp] theorem windows_nil : windows ([] : List α) = [] := rfl

@[simp] theorem windows_singleton (a : α) : windows [a] = [] := rfl

@[simp] theorem windows_cons_cons (a b : α) (l : List α) :
    windows (a :: b :: l) = (a, b) :: windows (b :: l) := rfl

theorem windows_map (f : α → β) (l : List α) :
    windows (l.map f) = (windows l).map (Prod.map f f) := by
  rw [windows, windows, ← List.map_tail, List.zip_map]

theorem windows_append_cons (l m : List α) (b : α) :
    windows (l ++ b :: m) = windows (l ++ [b]) ++ windows (b :: m) := by
  induction l with
  | nil => simp
  | cons a l ih =>
    cases l with
    | nil => simp
    | cons a' l => simpa using ih

theorem mem_of_mem_windows {l : List α} {w : α × α} (h : w ∈ windows l) :
    w.1 ∈ l ∧ w.2 ∈ l :=
  ⟨(List.of_mem_zip h).1, List.mem_of_mem_tail (List.of_mem_zip h).2⟩

theorem windows_ne_nil {l : List α} {a b : α} (ha : a ∈ l) (hb : b ∈ l) (hne : a ≠ b) :
    windows l ≠ [] := by
  match l with
  | [] => simp at ha
  | [c] =>
    rw [List.mem_singleton] at ha hb
    exact absurd (ha.trans hb.symm) hne
  | c :: d :: l => simp

theorem rel_of_mem_windows {R : α → α → Prop} {l : List α} (hl : l.Pairwise R) {w : α × α}
    (h : w ∈ windows l) : R w.1 w.2 := by
  induction l with
  | nil => simp at h
  | cons a l ih =>
    cases l with
    | nil => simp at h
    | cons b l =>
      rw [windows_cons_cons, List.mem_cons] at h
      rcases h with rfl | h
      · exact List.rel_of_pairwise_cons hl (by simp)
      · exact ih hl.of_cons h

theorem le_or_le_of_mem_windows [LinearOrder α] {l : List α} (hl : l.Pairwise (· < ·))
    {w : α × α} (h : w ∈ windows l) {x : α} (hx : x ∈ l) : x ≤ w.1 ∨ w.2 ≤ x := by
  induction l with
  | nil => simp at h
  | cons a l ih =>
    cases l with
    | nil => simp at h
    | cons b l =>
      rw [windows_cons_cons, List.mem_cons] at h
      rcases h with rfl | h
      · rcases List.mem_cons.mp hx with rfl | hx
        · exact .inl le_rfl
        · rcases List.mem_cons.mp hx with rfl | hx
          · exact .inr le_rfl
          · exact .inr (List.rel_of_pairwise_cons hl.of_cons hx).le
      · rcases List.mem_cons.mp hx with rfl | hx
        · exact .inl (List.rel_of_pairwise_cons hl (mem_of_mem_windows h).1).le
        · exact ih hl.of_cons h hx

theorem windows_eq_append [LinearOrder α] {l : List α} (hl : l.Pairwise (· < ·)) {m : α}
    (hm : m ∈ l) :
    windows l = windows (l.filter (· ≤ m)) ++ windows (l.filter (m ≤ ·)) := by
  obtain ⟨before, after, rfl⟩ := List.append_of_mem hm
  obtain ⟨-, hafter, hbefore⟩ := List.pairwise_append.mp hl
  have hlt : ∀ x ∈ before, x < m := fun x hx => hbefore x hx m (by simp)
  have hgt : ∀ x ∈ after, m < x := fun x hx => List.rel_of_pairwise_cons hafter hx
  have hlow : (before ++ m :: after).filter (· ≤ m) = before ++ [m] := by
    rw [List.filter_append, List.filter_cons_of_pos (by simp),
      List.filter_eq_self.mpr fun x hx => by simpa using (hlt x hx).le,
      List.filter_eq_nil_iff.mpr fun x hx => by simpa using hgt x hx]
  have hhigh : (before ++ m :: after).filter (m ≤ ·) = m :: after := by
    rw [List.filter_append, List.filter_cons_of_pos (by simp),
      List.filter_eq_nil_iff.mpr fun x hx => by simpa using hlt x hx,
      List.filter_eq_self.mpr fun x hx => by simpa using (hgt x hx).le, List.nil_append]
  rw [hlow, hhigh, windows_append_cons]

end Windows

section WalkDown

/-- A loop that collects edges from the latest one downwards, as long as they lie
in `(lo, hi]`. -/
def walkDown (prev : ℤ → ℤ) (lo hi : ℤ) : ℕ → ℤ → List ℤ
  | 0, _ => []
  | fuel + 1, x => if lo < x ∧ x ≤ hi then x :: walkDown prev lo hi fuel (prev x) else []

variable {prev edge : ℤ → ℤ} {lo hi gap : ℤ}

/-- The loop collects every edge above the lower bound, given a turn for every
gap. -/
theorem mem_walkDown (hgap : 0 < gap) (hstep : ∀ k, edge k + gap ≤ edge (k + 1))
    (hprev : ∀ k, prev (edge k) = edge (k - 1)) {k : ℤ} (hk : edge k ≤ hi) {fuel : ℕ}
    (hfuel : edge k - lo ≤ fuel * gap) {x : ℤ} :
    x ∈ walkDown prev lo hi fuel (edge k) ↔ ∃ j ≤ k, x = edge j ∧ lo < x := by
  have hmono : StrictMono edge := strictMono_int_of_lt_succ fun k => by linarith [hstep k]
  induction fuel generalizing k with
  | zero =>
    simp only [walkDown, List.not_mem_nil, false_iff, not_exists, not_and]
    rintro j hj rfl
    have := hmono.monotone hj
    simp only [Nat.cast_zero, zero_mul] at hfuel
    linarith
  | succ fuel ih =>
    have hbelow : edge (k - 1) + gap ≤ edge k := by simpa using hstep (k - 1)
    by_cases hlo : lo < edge k
    · have hfuel' : edge (k - 1) - lo ≤ fuel * gap := by
        push_cast at hfuel
        linarith
      have hk' : edge (k - 1) ≤ hi := by linarith
      rw [walkDown, if_pos ⟨hlo, hk⟩, hprev, List.mem_cons]
      constructor
      · rintro (rfl | hmem)
        · exact ⟨k, le_rfl, rfl, hlo⟩
        · obtain ⟨j, hj, hx⟩ := (ih hk' hfuel').mp hmem
          exact ⟨j, by omega, hx⟩
      · rintro ⟨j, hj, rfl, hx⟩
        rcases hj.eq_or_lt with rfl | hj
        · exact .inl rfl
        · exact .inr ((ih hk' hfuel').mpr ⟨j, by omega, rfl, hx⟩)
    · rw [walkDown, if_neg (fun h => hlo h.1)]
      simp only [List.not_mem_nil, false_iff, not_exists, not_and]
      rintro j hj rfl hx
      exact hlo (hx.trans_le (hmono.monotone hj))

/-- The same loop where going down to the previous edge may fail; `none` also stands for a
loop that has not ended after the given number of turns. -/
def descend (prev? : ℤ → Option ℤ) (lo hi : ℤ) : ℕ → ℤ → Option (List ℤ)
  | 0, _ => none
  | turns + 1, x =>
    if lo < x ∧ x ≤ hi then
      (prev? x).bind fun y => (descend prev? lo hi turns y).map fun l => x :: l
    else some []

theorem descend_mono {prev? : ℤ → Option ℤ} {turns turns' : ℕ} (h : turns ≤ turns') {x : ℤ}
    {l : List ℤ} (hl : descend prev? lo hi turns x = some l) :
    descend prev? lo hi turns' x = some l := by
  induction turns generalizing turns' x l with
  | zero => cases hl
  | succ turns ih =>
    obtain ⟨turns', rfl⟩ := Nat.exists_eq_add_of_le' (Nat.one_le_of_lt h)
    rw [descend] at hl ⊢
    split
    · rename_i hx
      rw [if_pos hx, Option.bind_eq_some_iff] at hl
      obtain ⟨y, hy, hmap⟩ := hl
      obtain ⟨rest, hrest, rfl⟩ := Option.map_eq_some_iff.mp hmap
      rw [hy, Option.bind_some, ih (Nat.le_of_succ_le_succ h) hrest, Option.map_some]
    · rename_i hx
      rwa [if_neg hx] at hl

/-- Where the previous edge of every edge of the range exists, the loop ends, a turn after
the last gap at the latest. -/
theorem descend_eq_walkDown {prev? : ℤ → Option ℤ} (hstep : ∀ k, edge k + gap ≤ edge (k + 1))
    (hprev : ∀ k, prev (edge k) = edge (k - 1))
    (hprev? : ∀ k, lo < edge k → edge k ≤ hi → prev? (edge k) = some (edge (k - 1)))
    {turns : ℕ} {k : ℤ} (hturns : edge k - lo ≤ turns * gap) :
    descend prev? lo hi (turns + 1) (edge k) =
      some (walkDown prev lo hi (turns + 1) (edge k)) := by
  induction turns generalizing k with
  | zero =>
    simp only [Nat.cast_zero, zero_mul] at hturns
    have hx : ¬ (lo < edge k ∧ edge k ≤ hi) := fun hx => by linarith [hx.1]
    rw [descend, walkDown, if_neg hx, if_neg hx]
  | succ turns ih =>
    have hbelow : edge (k - 1) + gap ≤ edge k := by simpa using hstep (k - 1)
    rw [descend, walkDown]
    split
    · rename_i hx
      push_cast at hturns
      rw [hprev? k hx.1 hx.2, Option.bind_some, ih (by linarith), Option.map_some, hprev]
    · rfl

def IsFloor (edge : ℤ → ℤ) (t x : ℤ) : Prop :=
  ∃ k, x = edge k ∧ edge k ≤ t ∧ t < edge (k + 1)

namespace IsFloor

variable {t t' x y : ℤ}

theorem le (h : IsFloor edge t x) : x ≤ t := by
  obtain ⟨k, rfl, hle, -⟩ := h
  exact hle

theorem unique (hmono : StrictMono edge) (hx : IsFloor edge t x) (hy : IsFloor edge t y) :
    x = y := by
  obtain ⟨j, rfl, hj, hj'⟩ := hx
  obtain ⟨k, rfl, hk, hk'⟩ := hy
  have hjk : j < k + 1 := hmono.lt_iff_lt.mp (hj.trans_lt hk')
  have hkj : k < j + 1 := hmono.lt_iff_lt.mp (hk.trans_lt hj')
  rw [show j = k by omega]

theorem of_edge (hmono : StrictMono edge) (k : ℤ) : IsFloor edge (edge k) (edge k) :=
  ⟨k, rfl, le_rfl, hmono (by omega)⟩

theorem eq_of_no_edge (hmono : StrictMono edge) (hx : IsFloor edge t x) (hy : IsFloor edge t' y)
    (ht : t ≤ t') (h : ∀ k, ¬ (t < edge k ∧ edge k ≤ t')) : x = y := by
  obtain ⟨k, rfl, hk, hk'⟩ := hy
  have hle : edge k ≤ t := not_lt.mp fun hlt => h k ⟨hlt, hk⟩
  exact hx.unique hmono ⟨k, rfl, hle, ht.trans_lt hk'⟩

/-- The loop that starts at the last edge of a range collects the edges of the
range. -/
theorem mem_walkDown (hgap : 0 < gap) (hstep : ∀ k, edge k + gap ≤ edge (k + 1))
    (hprev : ∀ k, prev (edge k) = edge (k - 1)) (hx : IsFloor edge hi x) {fuel : ℕ}
    (hfuel : hi - lo ≤ fuel * gap) :
    y ∈ walkDown prev lo hi fuel x ↔ lo < y ∧ y ≤ hi ∧ ∃ k, y = edge k := by
  have hmono : StrictMono edge := strictMono_int_of_lt_succ fun k => by linarith [hstep k]
  obtain ⟨k, rfl, hk, hk'⟩ := hx
  rw [Timeline.mem_walkDown hgap hstep hprev hk (by linarith)]
  constructor
  · rintro ⟨j, hj, rfl, hlo⟩
    exact ⟨hlo, (hmono.monotone hj).trans hk, j, rfl⟩
  · rintro ⟨hlo, hhi, j, rfl⟩
    have hj : j < k + 1 := hmono.lt_iff_lt.mp (hhi.trans_lt hk')
    exact ⟨j, by omega, rfl, hlo⟩

/-- The loop that may fail ends where it cannot, and collects the same. -/
theorem descend_spec (prev : ℤ → ℤ) {prev? : ℤ → Option ℤ} (hgap : 0 < gap)
    (hstep : ∀ k, edge k + gap ≤ edge (k + 1)) (hprev : ∀ k, prev (edge k) = edge (k - 1))
    (hprev? : ∀ k, lo < edge k → edge k ≤ hi → prev? (edge k) = some (edge (k - 1)))
    (hx : IsFloor edge hi x) {fuel : ℕ} (hfuel : hi - lo ≤ fuel * gap) :
    ∃ l, (∀ turns, fuel < turns → descend prev? lo hi turns x = some l) ∧
      ∀ y, y ∈ l ↔ lo < y ∧ y ≤ hi ∧ ∃ k, y = edge k := by
  refine ⟨walkDown prev lo hi (fuel + 1) x, fun turns hturns => descend_mono hturns ?_,
    fun y => hx.mem_walkDown hgap hstep hprev ?_⟩
  · obtain ⟨k, rfl, hk, -⟩ := hx
    exact descend_eq_walkDown hstep hprev hprev? (by linarith)
  · push_cast
    linarith

end IsFloor

end WalkDown

section Covers

variable {τ : Type*} [LinearOrder τ]

def covers (edges : List τ) (lo hi : τ) : ℕ :=
  (windows edges).countP fun w => decide (w.1 ≤ lo ∧ hi ≤ w.2)

theorem covers_cons_cons (a b : τ) (edges : List τ) (lo hi : τ) :
    covers (a :: b :: edges) lo hi =
      covers (b :: edges) lo hi + if a ≤ lo ∧ hi ≤ b then 1 else 0 := by
  simp [covers, List.countP_cons]

theorem covers_eq_zero {edges : List τ} {lo hi : τ} (h : ∀ e ∈ edges, lo < e) :
    covers edges lo hi = 0 := by
  refine List.countP_eq_zero.mpr fun w hw hcovers => ?_
  have hlo : w.1 ≤ lo := (of_decide_eq_true hcovers).1
  exact absurd (h w.1 (mem_of_mem_windows hw).1) (not_lt.mpr hlo)

theorem head_le_of_mem {a e : τ} {edges : List τ} (hedges : (a :: edges).Pairwise (· ≤ ·))
    (he : e ∈ a :: edges) : a ≤ e := by
  rcases List.mem_cons.mp he with rfl | hmem
  · exact le_rfl
  · exact List.rel_of_pairwise_cons hedges hmem

/-- Two different times are in one window together, or they are separated by an
edge and in none. -/
theorem covers_of_lt {edges : List τ} (hedges : edges.Pairwise (· ≤ ·)) {lo hi : τ}
    (hlt : lo < hi) (hfirst : ∃ e ∈ edges, e ≤ lo) (hlast : ∃ e ∈ edges, hi ≤ e) :
    covers edges lo hi = if ∃ e ∈ edges, lo < e ∧ e < hi then 0 else 1 := by
  induction edges with
  | nil => simp at hfirst
  | cons a edges ih =>
    obtain ⟨first, hfirst, hfirst_le⟩ := hfirst
    have ha : a ≤ lo := (head_le_of_mem hedges hfirst).trans hfirst_le
    have hlast' : ∃ e ∈ edges, hi ≤ e := by
      obtain ⟨last, hlast, hlast_le⟩ := hlast
      rcases List.mem_cons.mp hlast with rfl | hmem
      · exact absurd (hlt.trans_le (hlast_le.trans ha)) (lt_irrefl _)
      · exact ⟨last, hmem, hlast_le⟩
    cases edges with
    | nil => simp at hlast'
    | cons b edges =>
      have hexists : (∃ e ∈ a :: b :: edges, lo < e ∧ e < hi) ↔
          ∃ e ∈ b :: edges, lo < e ∧ e < hi := by
        simp [not_lt.mpr ha]
      rw [covers_cons_cons]
      by_cases hbl : b ≤ lo
      · have hearlier : ¬ (a ≤ lo ∧ hi ≤ b) := fun h =>
          absurd (hbl.trans_lt hlt) (not_lt.mpr h.2)
        rw [if_neg hearlier, Nat.add_zero, ih hedges.of_cons ⟨b, by simp, hbl⟩ hlast']
        simp only [hexists]
      · have hzero : covers (b :: edges) lo hi = 0 :=
          covers_eq_zero fun e he => (not_le.mp hbl).trans_le (head_le_of_mem hedges.of_cons he)
        rw [hzero]
        by_cases hhi : hi ≤ b
        · rw [if_pos ⟨ha, hhi⟩, if_neg]
          rw [hexists]
          rintro ⟨e, he, -, hlt'⟩
          exact absurd hlt' (not_lt.mpr (hhi.trans (head_le_of_mem hedges.of_cons he)))
        · rw [if_neg fun h => hhi h.2, if_pos]
          exact ⟨b, by simp, not_le.mp hbl, not_le.mp hhi⟩

theorem one_le_covers {edges : List τ} (hedges : edges.Pairwise (· ≤ ·)) {x : τ}
    (hfirst : ∃ e ∈ edges, e ≤ x) (hlast : ∃ e ∈ edges, x ≤ e) (hlength : windows edges ≠ []) :
    1 ≤ covers edges x x := by
  induction edges with
  | nil => simp at hlength
  | cons a edges ih =>
    cases edges with
    | nil => simp at hlength
    | cons b edges =>
      have ha : a ≤ x := by
        obtain ⟨first, hfirst, hle⟩ := hfirst
        exact (head_le_of_mem hedges hfirst).trans hle
      rw [covers_cons_cons]
      by_cases hx : x ≤ b
      · rw [if_pos ⟨ha, hx⟩]
        exact Nat.le_add_left 1 _
      · have hbx : b < x := not_le.mp hx
        obtain ⟨last, hlast, hle⟩ := hlast
        have hlast' : last ∈ edges := by
          rcases List.mem_cons.mp hlast with rfl | hmem
          · exact absurd ((List.rel_of_pairwise_cons hedges (by simp)).trans_lt hbx)
              (not_lt.mpr hle)
          · rcases List.mem_cons.mp hmem with rfl | hmem
            · exact absurd hbx (not_lt.mpr hle)
            · exact hmem
        have hrest : windows (b :: edges) ≠ [] := by
          cases edges with
          | nil => simp at hlast'
          | cons c edges => simp
        have := ih hedges.of_cons ⟨b, by simp, hbx.le⟩
          ⟨last, List.mem_cons_of_mem b hlast', hle⟩ hrest
        omega

end Covers

section Samples

variable {σ τ ν : Type*} [LinearOrder τ] [AddCommGroup ν] (time : σ → τ) (value : σ → ν)

/-- The last value of a series less its first. -/
def rise (value : σ → ν) (l : List σ) : ν :=
  match l.head?, l.getLast? with
  | some first, some last => value last - value first
  | _, _ => 0

def within (lo hi : τ) (l : List σ) : List σ :=
  l.filter fun p => decide (lo ≤ time p) && decide (time p ≤ hi)

@[simp] theorem rise_nil : rise value [] = 0 := rfl

@[simp] theorem rise_singleton (a : σ) : rise value [a] = 0 := sub_self _

theorem rise_cons_cons (a b : σ) (l : List σ) :
    rise value (a :: b :: l) = value b - value a + rise value (b :: l) := by
  obtain ⟨last, hlast⟩ : ∃ last, (b :: l).getLast? = some last :=
    ⟨_, List.getLast?_eq_some_getLast (List.cons_ne_nil b l)⟩
  simp only [rise, List.head?_cons, List.getLast?_cons_cons, hlast]
  abel

theorem rise_eq_sub {l : List σ} (hl : l ≠ []) :
    ∃ first ∈ l, ∃ last ∈ l, rise value l = value last - value first := by
  refine ⟨l.head hl, List.head_mem hl, l.getLast hl, List.getLast_mem hl, ?_⟩
  rw [rise, List.head?_eq_some_head hl, List.getLast?_eq_some_getLast hl]

theorem rise_eq_sum (l : List σ) :
    rise value l = ((windows l).map fun w => value w.2 - value w.1).sum := by
  induction l with
  | nil => rfl
  | cons a l ih =>
    cases l with
    | nil => simp
    | cons b l => rw [rise_cons_cons, ih, windows_cons_cons, List.map_cons, List.sum_cons]

theorem rise_nonneg [PartialOrder ν] [IsOrderedAddMonoid ν] {l : List σ}
    (hl : l.Pairwise fun p q => value p ≤ value q) : 0 ≤ rise value l := by
  rw [rise_eq_sum]
  refine List.sum_nonneg fun x hx => ?_
  obtain ⟨w, hw, rfl⟩ := List.mem_map.mp hx
  exact sub_nonneg.mpr (rel_of_mem_windows hl hw)

theorem within_eq_nil {lo hi : τ} {l : List σ} (h : ∀ p ∈ l, hi < time p) :
    within time lo hi l = [] := by
  refine List.filter_eq_nil_iff.mpr fun p hp => ?_
  simp [h p hp]

/-- Inside a window a series rises by what it rises between consecutive samples
that are both there. -/
theorem rise_within {l : List σ} (hl : l.Pairwise fun p q => time p ≤ time q) (lo hi : τ) :
    rise value (within time lo hi l) = ((windows l).map fun w =>
      if lo ≤ time w.1 ∧ time w.2 ≤ hi then value w.2 - value w.1 else 0).sum := by
  induction l with
  | nil => rfl
  | cons p l ih =>
    cases l with
    | nil => by_cases h : lo ≤ time p ∧ time p ≤ hi <;> simp [within, h]
    | cons q l =>
      have hpq : time p ≤ time q := List.rel_of_pairwise_cons hl (by simp)
      rw [windows_cons_cons, List.map_cons, List.sum_cons, ← ih hl.of_cons]
      by_cases hp : lo ≤ time p ∧ time p ≤ hi
      · by_cases hq : time q ≤ hi
        · have hlo : lo ≤ time q := hp.1.trans hpq
          simp [within, hp, hq, hlo, rise_cons_cons]
        · -- from `q` on every sample is after the window
          have hrest : within time lo hi (q :: l) = [] := by
            refine within_eq_nil time fun r hr => (not_le.mp hq).trans_le ?_
            rcases List.mem_cons.mp hr with rfl | hr
            · exact le_rfl
            · exact List.rel_of_pairwise_cons hl.of_cons hr
          have hwithin : within time lo hi (p :: q :: l) = [p] := by
            rw [within, List.filter_cons_of_pos (by simp [hp]), ← within, hrest]
          simp [hwithin, hrest, hq]
      · have hwithin : within time lo hi (p :: q :: l) = within time lo hi (q :: l) :=
          List.filter_cons_of_neg (by simpa using hp)
        have hnot : ¬ (lo ≤ time p ∧ time q ≤ hi) := fun h => hp ⟨h.1, hpq.trans h.2⟩
        rw [hwithin, if_neg hnot, zero_add]

/-- Summed over all windows, the rise between two consecutive samples is counted
once for every window that holds both. -/
theorem sum_rise_within {l : List σ} (hl : l.Pairwise fun p q => time p ≤ time q)
    (edges : List τ) :
    ((windows edges).map fun w => rise value (within time w.1 w.2 l)).sum =
      ((windows l).map fun w =>
        covers edges (time w.1) (time w.2) • (value w.2 - value w.1)).sum := by
  unfold covers
  induction windows edges with
  | nil => simp
  | cons e es ih =>
    rw [List.map_cons, List.sum_cons, ih, rise_within time value hl, ← List.sum_map_add]
    refine congrArg List.sum (List.map_congr_left fun w _ => ?_)
    by_cases h : e.1 ≤ time w.1 ∧ time w.2 ≤ e.2
    · simp [h, succ_nsmul']
    · simp [h]

/-- The rises between consecutive samples that an edge separates. -/
def lost (edges : List τ) (l : List σ) : ν :=
  ((windows l).map fun w =>
    if ∃ e ∈ edges, time w.1 < e ∧ e < time w.2 then value w.2 - value w.1 else 0).sum

/-- The rises between consecutive samples of one time, once for every window
that holds the time after the first. -/
def recounted (edges : List τ) (l : List σ) : ν :=
  ((windows l).map fun w => if time w.1 = time w.2 then
    (covers edges (time w.1) (time w.2) - 1) • (value w.2 - value w.1) else 0).sum

/-- The account of a series cut at edges: what is found window by window and what
is lost add up to the rise of the series and what is counted again. -/
theorem sum_rise_add_lost {l : List σ} (hl : l.Pairwise fun p q => time p ≤ time q)
    {edges : List τ} (hedges : edges.Pairwise (· ≤ ·)) (hlength : windows edges ≠ [])
    (hfirst : ∀ p ∈ l, ∃ e ∈ edges, e ≤ time p) (hlast : ∀ p ∈ l, ∃ e ∈ edges, time p ≤ e) :
    ((windows edges).map fun w => rise value (within time w.1 w.2 l)).sum +
        lost time value edges l =
      rise value l + recounted time value edges l := by
  rw [sum_rise_within time value hl, lost, ← List.sum_map_add, rise_eq_sum, recounted,
    ← List.sum_map_add]
  refine congrArg List.sum (List.map_congr_left fun w hw => ?_)
  obtain ⟨hw₁, hw₂⟩ := mem_of_mem_windows hw
  rcases (rel_of_mem_windows hl hw).eq_or_lt with heq | hlt
  · have hcovers : 1 ≤ covers edges (time w.1) (time w.2) := by
      rw [← heq]
      exact one_le_covers hedges (hfirst _ hw₁) (hlast _ hw₁) hlength
    have hnone : ¬ ∃ e ∈ edges, time w.1 < e ∧ e < time w.2 := by
      rintro ⟨e, -, hlo, hhi⟩
      exact absurd (hlo.trans hhi) (by simp [heq])
    obtain ⟨n, hn⟩ := Nat.exists_eq_add_of_le hcovers
    rw [if_neg hnone, if_pos heq, hn, add_zero, Nat.add_sub_cancel_left, add_nsmul, one_nsmul]
  · rw [covers_of_lt hedges hlt (hfirst _ hw₁) (hlast _ hw₂), if_neg hlt.ne, add_zero]
    split
    · rw [zero_nsmul, zero_add]
    · rw [one_nsmul, add_zero]

theorem recounted_eq_zero {l : List σ} (hl : l.Pairwise fun p q => time p < time q)
    (edges : List τ) : recounted time value edges l = 0 := by
  refine List.sum_eq_zero fun x hx => ?_
  obtain ⟨w, hw, rfl⟩ := List.mem_map.mp hx
  exact if_neg (rel_of_mem_windows hl hw).ne

theorem lost_nonneg [PartialOrder ν] [IsOrderedAddMonoid ν] {l : List σ}
    (hl : l.Pairwise fun p q => value p ≤ value q) (edges : List τ) :
    0 ≤ lost time value edges l := by
  refine List.sum_nonneg fun x hx => ?_
  obtain ⟨w, hw, rfl⟩ := List.mem_map.mp hx
  split
  · exact sub_nonneg.mpr (rel_of_mem_windows hl hw)
  · exact le_rfl

/-- A series that never falls loses nothing exactly when no edge separates two
consecutive samples of different values. -/
theorem lost_eq_zero_iff [PartialOrder ν] [IsOrderedAddMonoid ν] {l : List σ}
    (hl : l.Pairwise fun p q => value p ≤ value q) (edges : List τ) :
    lost time value edges l = 0 ↔ ∀ w ∈ windows l, value w.1 < value w.2 →
      ∀ e ∈ edges, ¬ (time w.1 < e ∧ e < time w.2) := by
  constructor
  · intro h w hw hrise e he hbetween
    have hterm := List.all_zero_of_le_zero_le_of_sum_eq_zero (fun x hx => ?_) h
      (List.mem_map_of_mem hw)
    · rw [if_pos ⟨e, he, hbetween⟩, sub_eq_zero] at hterm
      exact hrise.ne' hterm
    · obtain ⟨w', hw', rfl⟩ := List.mem_map.mp hx
      split
      · exact sub_nonneg.mpr (rel_of_mem_windows hl hw')
      · exact le_rfl
  · intro h
    refine List.sum_eq_zero fun x hx => ?_
    obtain ⟨w, hw, rfl⟩ := List.mem_map.mp hx
    split
    · rename_i hbetween
      obtain ⟨e, he, hbetween⟩ := hbetween
      rcases (rel_of_mem_windows hl hw).eq_or_lt with heq | hrise
      · rw [heq, sub_self]
      · exact absurd hbetween (h w hw hrise e he)
    · rfl

end Samples

end Timeline

end Fcore
