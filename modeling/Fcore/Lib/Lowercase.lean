import Fcore.Lib.Text

/-!
# Lower case

The lower-case mapping of a text follows a table of the Unicode character database, which
may map one character to several. The one mapping that depends on the context is that of
the capital sigma, which has a form of its own at the end of a word: after a cased letter
and not before one, where characters that case ignores are skipped.

The table is a structure with the facts about the database that results on texts need. They
say that a text is settled, that is left as it is, exactly where its characters are, and
that mapping any text gives a settled one.
-/

namespace Fcore

/-- The part of the character database that the mapping reads. -/
structure CaseTable where
  toLower : Char → List Char
  cased : Char → Bool
  caseIgnorable : Char → Bool
  toLower_ascii : ∀ c, c.toNat < 128 → toLower c = [c.toLower]
  toLower_toLower : ∀ c, ∀ d ∈ toLower c, toLower d = [d]
  sigma_notMem : ∀ c, 'Σ' ∉ toLower c
  toLower_smallSigma : toLower 'σ' = ['σ']
  toLower_finalSigma : toLower 'ς' = ['ς']

namespace CaseTable

variable (table : CaseTable)

def caseIgnorableThenCased (cs : List Char) : Bool :=
  match cs.dropWhile table.caseIgnorable with
  | c :: _ => table.cased c
  | [] => false

/-- The capital sigma between two texts, the first of which is given backwards. -/
def mapUppercaseSigma (before after : List Char) : Char :=
  if table.caseIgnorableThenCased before && !table.caseIgnorableThenCased after then 'ς' else 'σ'

/-- The mapping of a text that follows another one, which is given backwards. -/
def lowerAfter (before : List Char) : List Char → List Char
  | [] => []
  | c :: rest =>
    (if c = 'Σ' then [table.mapUppercaseSigma before rest] else table.toLower c) ++
      lowerAfter (c :: before) rest

def toLowercase (s : String) : String := String.ofList (table.lowerAfter [] s.toList)

def Settled (s : String) : Prop := ∀ c ∈ s.toList, table.toLower c = [c]

variable {table}

variable {s : String}

theorem settled_append {s' : String} :
    table.Settled (s ++ s') ↔ table.Settled s ∧ table.Settled s' := by
  simp only [Settled, String.toList_append, List.mem_append]
  constructor
  · intro h
    exact ⟨fun c hc => h c (.inl hc), fun c hc => h c (.inr hc)⟩
  · rintro ⟨h, h'⟩ c (hc | hc)
    · exact h c hc
    · exact h' c hc

theorem Settled.of_sublist {s' : String} (h : table.Settled s) (hsub : s'.toList.Sublist s.toList) :
    table.Settled s' :=
  fun c hc => h c (hsub.subset hc)

theorem settled_of_ascii
    (h : (s.toList.all fun c => decide (c.toNat < 128 ∧ c.toLower = c)) = true) :
    table.Settled s := by
  intro c hc
  obtain ⟨hascii, hlower⟩ := of_decide_eq_true (List.all_eq_true.mp h c hc)
  rw [table.toLower_ascii c hascii, hlower]

theorem lowerAfter_of_settled {cs : List Char} (h : ∀ c ∈ cs, table.toLower c = [c])
    (before : List Char) : table.lowerAfter before cs = cs := by
  induction cs generalizing before with
  | nil => rfl
  | cons c rest ih =>
    have hc := h c List.mem_cons_self
    have hsigma : c ≠ 'Σ' := by
      rintro rfl
      exact table.sigma_notMem 'Σ' (by rw [hc]; exact List.mem_singleton_self _)
    rw [lowerAfter, if_neg hsigma, hc, ih fun c' hc' => h c' (List.mem_cons_of_mem c hc')]
    rfl

theorem toLowercase_of_settled (h : table.Settled s) : table.toLowercase s = s := by
  rw [toLowercase, lowerAfter_of_settled h, String.ofList_toList]

theorem settled_lowerAfter (cs before : List Char) :
    ∀ c ∈ table.lowerAfter before cs, table.toLower c = [c] := by
  induction cs generalizing before with
  | nil =>
    intro c hc
    cases hc
  | cons c rest ih =>
    intro d hd
    rw [lowerAfter, List.mem_append] at hd
    rcases hd with hd | hd
    · split at hd
      · rw [List.mem_singleton, mapUppercaseSigma] at hd
        split at hd
        · rw [hd]
          exact table.toLower_finalSigma
        · rw [hd]
          exact table.toLower_smallSigma
      · exact table.toLower_toLower c d hd
    · exact ih (c :: before) d hd

theorem settled_toLowercase (s : String) : table.Settled (table.toLowercase s) := by
  intro c hc
  rw [toLowercase, String.toList_ofList] at hc
  exact settled_lowerAfter s.toList [] c hc

theorem toNat_toLower (c : Char) :
    c.toLower.toNat = if 65 ≤ c.toNat ∧ c.toNat ≤ 90 then c.toNat + 32 else c.toNat := by
  unfold Char.toLower
  by_cases h : c.val ≥ 'A'.val ∧ c.val ≤ 'Z'.val
  · have hrange : 65 ≤ c.toNat ∧ c.toNat ≤ 90 := h
    rw [dif_pos h, if_pos hrange]
    change (c.val.toNat + 32) % 2 ^ 32 = c.val.toNat + 32
    have hle : c.val.toNat ≤ 90 := hrange.2
    omega
  · have hrange : ¬ (65 ≤ c.toNat ∧ c.toNat ≤ 90) := h
    rw [dif_neg h, if_neg hrange]

theorem toLower_toLower_char (c : Char) : c.toLower.toLower = c.toLower := by
  apply Char.toNat_inj.mp
  rw [toNat_toLower, toNat_toLower]
  split
  · rw [if_neg (by omega)]
  · rfl

theorem toLower_ne_sigma {c : Char} (h : c ≠ 'Σ') : c.toLower ≠ 'Σ' := by
  intro hsigma
  have hvalue : c.toLower.toNat = 931 := by
    rw [hsigma]
    rfl
  rw [toNat_toLower] at hvalue
  split at hvalue
  · omega
  · exact h (Char.toNat_inj.mp hvalue)

/-- The table of a text in ASCII letters, where besides these only the capital sigma has a
lower case. -/
def ascii : CaseTable where
  toLower c := if c = 'Σ' then ['σ'] else [c.toLower]
  cased c := c.isAlpha || c = 'Σ' || c = 'σ' || c = 'ς'
  caseIgnorable c := [0x27, 0x2E, 0x3A, 0x5E, 0x60].contains c.toNat
  toLower_ascii := by
    intro c hc
    rw [if_neg]
    rintro rfl
    exact absurd hc (by decide)
  toLower_toLower := by
    intro c d hd
    split at hd
    · rw [List.mem_singleton] at hd
      subst hd
      decide
    · rename_i hc
      rw [List.mem_singleton] at hd
      subst hd
      rw [if_neg (toLower_ne_sigma hc), toLower_toLower_char]
  sigma_notMem := by
    intro c hc
    split at hc
    · revert hc
      decide
    · rename_i hne
      exact toLower_ne_sigma hne (List.mem_singleton.mp hc).symm
  toLower_smallSigma := by decide
  toLower_finalSigma := by decide

end CaseTable

end Fcore
