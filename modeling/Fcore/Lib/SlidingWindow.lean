import Fcore.Lib.Table

/-!
# Sliding windows

A limiter keeps, for each key, the instants of the checks it let through, and forgets those
that are a window old. Along a run of checks in order of time, what it still keeps are the
accepted checks that are younger than the window. So any set of instants that fits into a
window has at most `limit` accepted checks, and a check is rejected only if that many were
accepted in the window before it.
-/

namespace Fcore

structure WindowLimiter (κ : Type*) where
  limit : ℕ
  window : ℤ
  requests : Table κ (List ℤ)

namespace WindowLimiter

variable {κ : Type*} [DecidableEq κ]

def new (limit : ℕ) (window : ℤ) : WindowLimiter κ := ⟨limit, window, ∅⟩

def entries (l : WindowLimiter κ) (key : κ) : List ℤ := (l.requests.lookup key).getD []

def check (l : WindowLimiter κ) (key : κ) (now : ℤ) : Bool × WindowLimiter κ :=
  let kept := (l.entries key).filter fun t => now - t < l.window
  if l.limit ≤ kept.length then (false, { l with requests := AList.insert key kept l.requests })
  else (true, { l with requests := AList.insert key (kept ++ [now]) l.requests })

/-- The checks of a run with their results. -/
def run : WindowLimiter κ → List (κ × ℤ) → List ((κ × ℤ) × Bool)
  | _, [] => []
  | l, e :: es => (e, (l.check e.1 e.2).1) :: (l.check e.1 e.2).2.run es

/-- The instants of the accepted checks of a key. -/
def accepted (results : List ((κ × ℤ) × Bool)) (key : κ) : List ℤ :=
  results.filterMap fun r => if r.2 ∧ r.1.1 = key then some r.1.2 else none

/-- Instants that fit into a half-open interval of the length of the window. -/
def Fits (window : ℤ) (p : ℤ → Bool) : Prop := ∀ t t', p t → p t' → t' - t < window

/-- The law of a limiter, over the results of a run. -/
structure Limits (limit : ℕ) (window : ℤ) (results : List ((κ × ℤ) × Bool)) : Prop where
  bound : ∀ key p, Fits window p → (accepted results key).countP p ≤ limit
  rejected : ∀ before e after, results = before ++ (e, false) :: after →
    (accepted before e.1).countP (fun t => e.2 - t < window) = limit

theorem accepted_append (results results' : List ((κ × ℤ) × Bool)) (key : κ) :
    accepted (results ++ results') key = accepted results key ++ accepted results' key :=
  List.filterMap_append

theorem accepted_singleton (e : κ × ℤ) (ok : Bool) (key : κ) :
    accepted [(e, ok)] key = if ok = true ∧ e.1 = key then [e.2] else [] := by
  simp only [accepted, List.filterMap_cons, List.filterMap_nil]
  split <;> simp_all

theorem le_of_mem_accepted {results : List ((κ × ℤ) × Bool)} {key : κ} {now t : ℤ}
    (hpast : ∀ r ∈ results, r.1.2 ≤ now) (ht : t ∈ accepted results key) : t ≤ now := by
  obtain ⟨r, hr, hsome⟩ := List.mem_filterMap.mp ht
  split at hsome
  · cases hsome
    exact hpast r hr
  · cases hsome

/-- What the limiter keeps and has let through so far. -/
structure Tracks (l : WindowLimiter κ) (past : List ((κ × ℤ) × Bool)) : Prop where
  entries : ∀ key now, (∀ r ∈ past, r.1.2 ≤ now) →
    (l.entries key).filter (fun t => now - t < l.window) =
      (accepted past key).filter fun t => now - t < l.window
  law : Limits l.limit l.window past

section Step

variable {l : WindowLimiter κ} {past : List ((κ × ℤ) × Bool)} {e : κ × ℤ}

theorem tracks_new (limit : ℕ) (window : ℤ) : (new limit window : WindowLimiter κ).Tracks [] where
  entries _ _ _ := rfl
  law := ⟨fun _ _ _ => Nat.zero_le _, fun before _ _ h => absurd h (by simp)⟩

theorem limit_check (l : WindowLimiter κ) (key : κ) (now : ℤ) :
    (l.check key now).2.limit = l.limit := by
  unfold check
  dsimp only
  split <;> rfl

theorem window_check (l : WindowLimiter κ) (key : κ) (now : ℤ) :
    (l.check key now).2.window = l.window := by
  unfold check
  dsimp only
  split <;> rfl

theorem check_eq_true_iff (l : WindowLimiter κ) (key : κ) (now : ℤ) :
    (l.check key now).1 = true ↔ (l.entries key).countP (fun t => now - t < l.window) < l.limit := by
  rw [List.countP_eq_length_filter]
  unfold check
  dsimp only
  split <;> simp_all

theorem entries_check (l : WindowLimiter κ) (key key' : κ) (now : ℤ) :
    (l.check key now).2.entries key' = if key' = key then
      (l.entries key).filter (fun t => now - t < l.window) ++
        (if (l.check key now).1 = true then [now] else [])
      else l.entries key' := by
  unfold check entries
  dsimp only
  split <;> rw [AList.lookup_insert_eq_ite] <;> split <;> simp

theorem Tracks.countP_entries (h : l.Tracks past) (hpast : ∀ r ∈ past, r.1.2 ≤ e.2) :
    (l.entries e.1).countP (fun t => e.2 - t < l.window) =
      (accepted past e.1).countP fun t => e.2 - t < l.window := by
  rw [List.countP_eq_length_filter, List.countP_eq_length_filter, h.entries e.1 e.2 hpast]

theorem Tracks.entries_check (h : l.Tracks past) (hpast : ∀ r ∈ past, r.1.2 ≤ e.2) (key : κ)
    {now : ℤ} (hnow : e.2 ≤ now) :
    ((l.check e.1 e.2).2.entries key).filter (fun t => now - t < l.window) =
      (accepted (past ++ [(e, (l.check e.1 e.2).1)]) key).filter fun t => now - t < l.window := by
  have hlater : ∀ r ∈ past, r.1.2 ≤ now := fun r hr => Int.le_trans (hpast r hr) hnow
  rw [accepted_append, accepted_singleton, WindowLimiter.entries_check]
  by_cases hkey : key = e.1
  · subst hkey
    -- what is forgotten at the check is too old at any later instant
    have hkept : ((accepted past e.1).filter fun t => e.2 - t < l.window).filter
        (fun t => now - t < l.window) = (accepted past e.1).filter fun t => now - t < l.window := by
      rw [List.filter_filter]
      refine List.filter_congr fun t _ => ?_
      rw [Bool.and_eq_left_iff_imp, decide_eq_true_eq, decide_eq_true_eq]
      omega
    rw [if_pos rfl, h.entries e.1 e.2 hpast, List.filter_append, hkept]
    simp
  · rw [if_neg hkey, if_neg fun hok => hkey hok.2.symm, List.append_nil, h.entries key now hlater]

theorem Tracks.bound_check (h : l.Tracks past) (hpast : ∀ r ∈ past, r.1.2 ≤ e.2) (key : κ)
    {p : ℤ → Bool} (hp : Fits l.window p) :
    (accepted (past ++ [(e, (l.check e.1 e.2).1)]) key).countP p ≤ l.limit := by
  have hold := h.law.bound key p hp
  rw [accepted_append, accepted_singleton, List.countP_append]
  split
  · rename_i hnew
    obtain ⟨hok, rfl⟩ := hnew
    by_cases hin : p e.2 = true
    · have hroom := (check_eq_true_iff l e.1 e.2).mp hok
      rw [h.countP_entries hpast] at hroom
      have hle : (accepted past e.1).countP p ≤
          (accepted past e.1).countP fun t => e.2 - t < l.window :=
        List.countP_mono_left fun t _ ht => decide_eq_true (hp t e.2 ht hin)
      rw [List.countP_cons_of_pos hin, List.countP_nil]
      omega
    · rwa [List.countP_cons_of_neg hin]
  · rwa [List.countP_nil]

/-- A check that is rejected has found the window full, and never more than full. -/
theorem Tracks.rejected_check (h : l.Tracks past) (hpast : ∀ r ∈ past, r.1.2 ≤ e.2)
    (hno : (l.check e.1 e.2).1 = false) :
    (accepted past e.1).countP (fun t => e.2 - t < l.window) = l.limit := by
  have hfull : ¬ (l.check e.1 e.2).1 = true := by rw [hno]; exact Bool.false_ne_true
  rw [check_eq_true_iff, h.countP_entries hpast, not_lt] at hfull
  have hfits : Fits l.window fun t => decide (e.2 - t < l.window) && decide (t ≤ e.2) := by
    intro t t' ht ht'
    simp only [Bool.and_eq_true, decide_eq_true_eq] at ht ht'
    omega
  refine le_antisymm (le_trans (le_of_eq (List.countP_congr fun t ht => ?_))
    (h.law.bound e.1 _ hfits)) hfull
  simp [le_of_mem_accepted hpast ht]

theorem Tracks.check (h : l.Tracks past) (hpast : ∀ r ∈ past, r.1.2 ≤ e.2) :
    (l.check e.1 e.2).2.Tracks (past ++ [(e, (l.check e.1 e.2).1)]) where
  entries key now hnow := by
    rw [window_check]
    exact h.entries_check hpast key (hnow (e, (l.check e.1 e.2).1) (by simp))
  law := by
    rw [limit_check, window_check]
    refine ⟨fun key p hp => h.bound_check hpast key hp, fun before e' after heq => ?_⟩
    rcases List.eq_nil_or_concat after with rfl | ⟨after', last, rfl⟩
    · obtain ⟨rfl, hlast⟩ := List.append_inj' heq rfl
      obtain ⟨rfl, hno⟩ : e = e' ∧ (l.check e.1 e.2).1 = false := by simpa using hlast
      exact h.rejected_check hpast hno
    · rw [List.concat_eq_append, ← List.cons_append, ← List.append_assoc] at heq
      exact h.law.rejected before e' after' (List.append_inj' heq rfl).1

end Step

theorem Tracks.limits_run {l : WindowLimiter κ} {past : List ((κ × ℤ) × Bool)}
    {es : List (κ × ℤ)} (h : l.Tracks past) (hes : (es.map Prod.snd).Pairwise (· ≤ ·))
    (hpast : ∀ r ∈ past, ∀ e ∈ es, r.1.2 ≤ e.2) : Limits l.limit l.window (past ++ l.run es) := by
  induction es generalizing l past with
  | nil => simpa [run] using h.law
  | cons e es ih =>
    obtain ⟨hfirst, hrest⟩ := List.pairwise_cons.mp hes
    have hstep := h.check fun r hr => hpast r hr e List.mem_cons_self
    have hlaw := ih hstep hrest ?_
    · rwa [limit_check, window_check, List.append_assoc] at hlaw
    · intro r hr e' he'
      rcases List.mem_append.mp hr with hr | hr
      · exact hpast r hr e' (List.mem_cons_of_mem e he')
      · rw [List.mem_singleton.mp hr]
        exact hfirst e'.2 (List.mem_map_of_mem he')

/-- The law holds along every run of checks in order of time. -/
theorem limits_run (limit : ℕ) (window : ℤ) {es : List (κ × ℤ)}
    (hes : (es.map Prod.snd).Pairwise (· ≤ ·)) :
    Limits limit window ((new limit window : WindowLimiter κ).run es) :=
  (tracks_new limit window).limits_run hes (List.forall_mem_nil _)

end WindowLimiter

end Fcore
