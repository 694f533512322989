import Fcore.Lib.Table

/-!
# Rows with an index

A list of rows grows at its end while an index remembers, for some of them, the
key they were pushed under. When the list is complete a second pass goes over
the index and rewrites every row it points to.

`Slots.Sound` says what the two passes need: the index points at rows, no two
keys at the same one. Under it the second pass rewrites each indexed row exactly
once, whatever order the index is scanned in.
-/

namespace Fcore

structure Slots (κ ρ : Type*) where
  rows : List ρ
  index : Table κ ℕ

namespace Slots

variable {κ ρ : Type*}

def empty : Slots κ ρ := ⟨[], ∅⟩

def push (row : ρ) (s : Slots κ ρ) : Slots κ ρ := { s with rows := s.rows ++ [row] }

/-- The pass over the index. -/
def fill (f : κ → ρ → ρ) (s : Slots κ ρ) : List ρ :=
  s.index.entries.foldl (fun rows e => rows.modify e.2 (f e.1)) s.rows

variable [DecidableEq κ]

/-- Push a row under a key, unless there is one already. -/
def claim (key : κ) (row : ρ) (s : Slots κ ρ) : Slots κ ρ :=
  if (s.index.lookup key).isSome then s
  else ⟨s.rows ++ [row], AList.insert key s.rows.length s.index⟩

theorem isSome_lookup_claim (key : κ) (row : ρ) (s : Slots κ ρ) :
    ((s.claim key row).index.lookup key).isSome := by
  unfold claim
  split
  · assumption
  · simp

theorem isSome_lookup_claim_of {key key' : κ} {row : ρ} {s : Slots κ ρ}
    (h : (s.index.lookup key').isSome) : ((s.claim key row).index.lookup key').isSome := by
  unfold claim
  split
  · exact h
  · rw [AList.lookup_insert_eq_ite]
    split
    · rfl
    · exact h

/-- Every indexed row satisfies `K` with its key, every other row satisfies
`L`. -/
structure Sound (K : κ → ρ → Prop) (L : ρ → Prop) (s : Slots κ ρ) : Prop where
  keyed : ∀ key i, s.index.lookup key = some i → ∃ row, s.rows[i]? = some row ∧ K key row
  plain : ∀ i row, s.rows[i]? = some row → (∀ key, s.index.lookup key ≠ some i) → L row
  apart : ∀ key key' i, s.index.lookup key = some i → s.index.lookup key' = some i → key = key'

variable {K : κ → ρ → Prop} {L : ρ → Prop} {s : Slots κ ρ}

theorem sound_empty : Sound K L (empty : Slots κ ρ) where
  keyed := by simp [empty]
  plain := by simp [empty]
  apart := by simp [empty]

variable {rows : List ρ}

omit [DecidableEq κ] in
theorem getElem?_concat_eq_some {row row' : ρ} {i : ℕ} (h : (rows ++ [row])[i]? = some row') :
    rows[i]? = some row' ∨ i = rows.length ∧ row' = row := by
  rw [List.getElem?_append] at h
  split at h
  · exact .inl h
  · have hi : i - rows.length = 0 := by
      by_contra hne
      obtain ⟨n, hn⟩ := Nat.exists_eq_succ_of_ne_zero hne
      simp [hn] at h
    rw [hi] at h
    exact .inr ⟨by omega, (Option.some.inj h).symm⟩

omit [DecidableEq κ] in
theorem getElem?_foldl_modify_not_mem {f : κ → ρ → ρ} {es : List (Σ _ : κ, ℕ)} {i : ℕ}
    (h : ∀ e ∈ es, e.2 ≠ i) :
    (es.foldl (fun rows e => rows.modify e.2 (f e.1)) rows)[i]? = rows[i]? := by
  induction es generalizing rows with
  | nil => rfl
  | cons e es ih =>
    rw [List.foldl_cons, ih fun e' he' => h e' (List.mem_cons_of_mem e he'),
      List.getElem?_modify]
    simp [h e List.mem_cons_self]

omit [DecidableEq κ] in
theorem getElem?_foldl_modify_mem {f : κ → ρ → ρ} {es : List (Σ _ : κ, ℕ)}
    (hes : es.Pairwise fun e e' => e.2 ≠ e'.2) {e : Σ _ : κ, ℕ} (he : e ∈ es) :
    (es.foldl (fun rows e => rows.modify e.2 (f e.1)) rows)[e.2]? = rows[e.2]?.map (f e.1) := by
  induction es generalizing rows with
  | nil => cases he
  | cons first es ih =>
    obtain ⟨hfirst, hes⟩ := List.pairwise_cons.mp hes
    rw [List.foldl_cons]
    rcases List.mem_cons.mp he with rfl | he
    · rw [getElem?_foldl_modify_not_mem fun e' he' => (hfirst e' he').symm,
        List.getElem?_modify]
      simp
    · rw [ih hes he, List.getElem?_modify]
      simp [hfirst e he]

namespace Sound

variable {key : κ} {row : ρ}

theorem lt_length (h : Sound K L s) {i : ℕ} (hi : s.index.lookup key = some i) :
    i < s.rows.length := by
  obtain ⟨row, hrow, -⟩ := h.keyed key i hi
  exact (List.getElem?_eq_some_iff.mp hrow).1

theorem push (h : Sound K L s) (hrow : L row) : Sound K L (s.push row) where
  keyed := by
    intro key i hi
    obtain ⟨old, hold, hK⟩ := h.keyed key i hi
    refine ⟨old, ?_, hK⟩
    rw [Slots.push, List.getElem?_append_left (h.lt_length hi), hold]
  plain := by
    intro i row' hrow' hfree
    rcases getElem?_concat_eq_some hrow' with hold | ⟨-, rfl⟩
    · exact h.plain i row' hold hfree
    · exact hrow
  apart := h.apart

theorem lookup_insert_cases (h : Sound K L s) {key' : κ} {i : ℕ}
    (hi : (AList.insert key s.rows.length s.index).lookup key' = some i) :
    key' = key ∧ i = s.rows.length ∨ s.index.lookup key' = some i ∧ i < s.rows.length := by
  rcases AList.lookup_insert_cases hi with ⟨hkey, hrow⟩ | hold
  · exact .inl ⟨hkey, hrow.symm⟩
  · exact .inr ⟨hold, h.lt_length hold⟩

theorem insert (h : Sound K L s) (hfresh : s.index.lookup key = none) (hrow : K key row) :
    Sound K L ⟨s.rows ++ [row], AList.insert key s.rows.length s.index⟩ where
  keyed := by
    intro key' i hi
    rcases h.lookup_insert_cases hi with ⟨rfl, rfl⟩ | ⟨hi, hlt⟩
    · exact ⟨row, List.getElem?_concat_length, hrow⟩
    · obtain ⟨old, hold, hK⟩ := h.keyed key' i hi
      exact ⟨old, by rw [List.getElem?_append_left hlt, hold], hK⟩
  plain := by
    intro i row' hrow' hfree
    rcases getElem?_concat_eq_some hrow' with hold | ⟨rfl, -⟩
    · apply h.plain i row' hold
      intro key' hi
      have hne : key' ≠ key := by
        rintro rfl
        rw [hfresh] at hi
        cases hi
      apply hfree key'
      rw [AList.lookup_insert_eq_ite, if_neg hne, hi]
    · exact absurd (AList.lookup_insert _) (hfree key)
  apart := by
    intro key' key'' i hi hi'
    rcases h.lookup_insert_cases hi with ⟨rfl, rfl⟩ | ⟨hi, hlt⟩ <;>
      rcases h.lookup_insert_cases hi' with ⟨rfl, heq⟩ | ⟨hi', hlt'⟩
    · rfl
    · exact absurd hlt' (lt_irrefl _)
    · exact absurd hlt (heq ▸ lt_irrefl _)
    · exact h.apart key' key'' i hi hi'

theorem claim (h : Sound K L s) (hrow : K key row) : Sound K L (s.claim key row) := by
  unfold Slots.claim
  split
  · exact h
  · rename_i hfresh
    exact h.insert (by simpa using hfresh) hrow

theorem pairwise_entries (h : Sound K L s) : s.index.entries.Pairwise fun e e' => e.2 ≠ e'.2 := by
  refine (List.pairwise_map.mp s.index.nodupKeys).imp_of_mem ?_
  intro e e' he he' hne heq
  apply hne
  apply h.apart e.1 e'.1 e.2
  · exact AList.lookup_of_mem_entries he
  · rw [heq]
    exact AList.lookup_of_mem_entries he'

theorem of_mem_fill (h : Sound K L s) {f : κ → ρ → ρ} (hrow : row ∈ s.fill f) :
    (∃ key old, (s.index.lookup key).isSome ∧ K key old ∧ row = f key old) ∨ L row := by
  obtain ⟨i, hi⟩ := List.mem_iff_getElem?.mp hrow
  by_cases hkey : ∃ key, s.index.lookup key = some i
  · obtain ⟨key, hkey⟩ := hkey
    obtain ⟨old, hold, hK⟩ := h.keyed key i hkey
    rw [fill, getElem?_foldl_modify_mem h.pairwise_entries (AList.mem_entries_iff.mpr hkey),
      hold] at hi
    exact .inl ⟨key, old, by simp [hkey], hK, (Option.some.inj hi).symm⟩
  · have hfree : ∀ key, s.index.lookup key ≠ some i := fun key hi => hkey ⟨key, hi⟩
    right
    apply h.plain i row _ hfree
    rw [← hi, fill, getElem?_foldl_modify_not_mem]
    intro e he heq
    exact hfree e.1 (heq ▸ AList.lookup_of_mem_entries he)

theorem exists_mem_fill (h : Sound K L s) (f : κ → ρ → ρ) (hkey : (s.index.lookup key).isSome) :
    ∃ old, K key old ∧ f key old ∈ s.fill f := by
  obtain ⟨i, hi⟩ := Option.isSome_iff_exists.mp hkey
  obtain ⟨old, hold, hK⟩ := h.keyed key i hi
  refine ⟨old, hK, List.mem_of_getElem? (i := i) ?_⟩
  rw [fill, getElem?_foldl_modify_mem h.pairwise_entries (AList.mem_entries_iff.mpr hi), hold]
  rfl

end Sound

end Slots

end Fcore
