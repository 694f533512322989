import Fcore.Mesh.Register

/-!
# Issued numbers

A new identity gets a number of the least width of which not more than four fifths are taken,
from five digits to ten. It is drawn at random until a free one is found, at most 64 times.
-/

namespace Fcore

namespace Mesh

/-- SQLite keeps at most this many bytes in a database, and so at most as many rows. -/
def sqliteMaxBytes : ℕ := 2 ^ 48

def Db.countAtWidth (db : Db) (width : ℕ) : ℕ :=
  db.identities.countP fun i => i.uin.toList.length == width

/-- A width is taken when it is the last one or has enough free numbers. -/
def Db.Roomy (db : Db) (width : ℕ) : Prop :=
  width = 10 ∨ db.countAtWidth width * 10 ≤ 9 * 10 ^ (width - 1) * 8

structure Db.LeastWidth (db : Db) (width : ℕ) : Prop where
  five_le : 5 ≤ width
  le_ten : width ≤ 10
  roomy : db.Roomy width
  least : ∀ v, 5 ≤ v → v < width → ¬ db.Roomy v

/-- A decimal numeral of the width, without a leading zero. -/
structure IsNumeral (width : ℕ) (uin : String) : Prop where
  length_eq : uin.toList.length = width
  digits : ∀ c ∈ uin.toList, c.isDigit = true
  head_ne : uin.toList.head? ≠ some '0'

/-- The number of a draw. -/
def candidate (width : ℕ) (draw : ℕ → ℕ) (i : ℕ) : ℕ :=
  10 ^ (width - 1) + draw i % (10 ^ width - 1 - 10 ^ (width - 1) + 1)

variable {db : Db} {fails : RegisterStmt → Option String}

section Width

variable {fuel width : ℕ}

theorem settleWidth_of_fault {msg : String} (hfails : fails (.widthCount width) = some msg) :
    settleWidth fails db (fuel + 1) width = .error (.internal msg) := by
  rw [settleWidth, hfails]
  rfl

theorem settleWidth_of_roomy (hfails : fails (.widthCount width) = none) (h : db.Roomy width) :
    settleWidth fails db (fuel + 1) width = .ok width := by
  have hchoose : chooseWidth (db.countAtWidth width) width = width := by
    unfold chooseWidth
    obtain rfl | h := h
    · rfl
    · rw [if_neg (by omega : ¬ 9 * 10 ^ (width - 1) * 8 < _), ite_self]
  rw [settleWidth, hfails]
  exact if_pos hchoose

theorem settleWidth_of_not_roomy (hwidth : width ≤ 10)
    (hfails : fails (.widthCount width) = none) (h : ¬ db.Roomy width) :
    settleWidth fails db (fuel + 1) width = settleWidth fails db fuel (width + 1) := by
  obtain ⟨hne, hcount⟩ := not_or.mp h
  have hchoose : chooseWidth (db.countAtWidth width) width = width + 1 := by
    rw [chooseWidth, if_neg (by omega), if_pos (by omega)]
  rw [settleWidth, hfails]
  change (if chooseWidth (db.countAtWidth width) width = width then _ else
    settleWidth fails db fuel (chooseWidth (db.countAtWidth width) width)) = _
  rw [hchoose, if_neg (by omega)]

/-- The widening ends with the first width that has room, or with a statement that fails; more
rounds would not change it. -/
theorem settleWidth_spec (hwidth : width ≤ 10) (hfuel : 10 < fuel + width) :
    (∀ k, settleWidth fails db (fuel + k) width = settleWidth fails db fuel width) ∧
      ((∃ v, settleWidth fails db fuel width = .ok v ∧ width ≤ v ∧ v ≤ 10 ∧ db.Roomy v ∧
        ∀ u, width ≤ u → u < v → ¬ db.Roomy u) ∨
      ∃ s msg, fails s = some msg ∧ settleWidth fails db fuel width = .error (.internal msg)) := by
  induction fuel generalizing width with
  | zero => omega
  | succ fuel ih =>
    simp only [Nat.add_right_comm fuel 1]
    cases hfails : fails (.widthCount width) with
    | some msg =>
      simp only [settleWidth_of_fault hfails]
      exact ⟨fun _ => trivial, .inr ⟨_, msg, hfails, rfl⟩⟩
    | none =>
      by_cases hroomy : db.Roomy width
      · simp only [settleWidth_of_roomy hfails hroomy]
        refine ⟨fun _ => trivial, .inl ⟨width, rfl, le_rfl, hwidth, hroomy, fun u hu hlt => ?_⟩⟩
        omega
      · simp only [settleWidth_of_not_roomy hwidth hfails hroomy]
        have hne : width ≠ 10 := fun h => hroomy (.inl h)
        obtain ⟨hmore, ⟨v, hv, hle, hten, hroom, hleast⟩ | hfault⟩ :=
          @ih (width + 1) (by omega) (by omega)
        · refine ⟨hmore, .inl ⟨v, hv, by omega, hten, hroom, fun u hu hlt => ?_⟩⟩
          obtain rfl | hu := hu.eq_or_lt
          · exact hroomy
          · exact hleast u hu hlt
        · exact ⟨hmore, .inr hfault⟩

end Width

/-- What a number found means, and what a failure means. -/
theorem drawUin_spec (number : ℕ → ℕ) (fuel i : ℕ) :
    (∀ u, drawUin fails number db fuel i = .ok u →
      db.identityMissing u = true ∧ ∃ j, u = toString (number j)) ∧
      ∀ e, drawUin fails number db fuel i = .error e →
        (∃ s msg, fails s = some msg ∧ e = .internal msg) ∨
          ∀ j, i ≤ j → j < i + fuel → db.identityMissing (toString (number j)) = false := by
  induction fuel generalizing i with
  | zero => exact ⟨fun u h => (nomatch h), fun e _ => .inr fun j hj hlt => by omega⟩
  | succ fuel ih =>
    cases hfails : fails (.taken i) with
    | some msg =>
      rw [drawUin, hfails]
      refine ⟨fun u h => (nomatch h), fun e h => ?_⟩
      cases h
      exact .inl ⟨_, msg, hfails, rfl⟩
    | none =>
      cases hfree : db.identityMissing (toString (number i)) with
      | true =>
        rw [drawUin, hfails, hfree]
        refine ⟨fun u h => ?_, fun e h => (nomatch h)⟩
        cases h
        exact ⟨hfree, i, rfl⟩
      | false =>
        have hnext : drawUin fails number db (fuel + 1) i =
            drawUin fails number db fuel (i + 1) := by
          rw [drawUin, hfails, hfree]
          rfl
        rw [hnext]
        refine ⟨(ih (i + 1)).1, fun e h => ((ih (i + 1)).2 e h).imp_right fun hall j hj hlt => ?_⟩
        obtain rfl | hj := hj.eq_or_lt
        · exact hfree
        · exact hall j hj (by omega)

theorem isNumeral_candidate {width : ℕ} (hwidth : 2 ≤ width) (draw : ℕ → ℕ) (i : ℕ) :
    IsNumeral width (toString (candidate width draw i)) := by
  have hpow : 10 ^ width = 10 * 10 ^ (width - 1) := by
    rw [← pow_succ', Nat.sub_add_cancel (by omega)]
  have hpos : 0 < 10 ^ (width - 1) := Nat.pow_pos (by decide)
  have hlow : 10 ^ (width - 1) ≤ candidate width draw i := Nat.le_add_right _ _
  have hmod : draw i % (10 ^ width - 1 - 10 ^ (width - 1) + 1) < _ := Nat.mod_lt _ (by omega)
  have hhigh : candidate width draw i < 10 ^ width := by
    unfold candidate
    omega
  refine ⟨le_antisymm ?_ ?_, fun c => Text.isDigit_of_mem_toString, ?_⟩
  · exact (Text.length_toString_nat (by omega)).mpr hhigh
  · by_contra hlt
    have hshort := (Text.length_toString_nat (by omega : 0 < width - 1)).mp
      (Nat.le_sub_one_of_lt (not_le.mp hlt))
    omega
  · exact Text.head?_toString_nat (by omega)

theorem issueUin_of_settleWidth {draw : ℕ → ℕ} {width : ℕ}
    (h : settleWidth fails db 6 5 = .ok width) :
    issueUin fails draw db = drawUin fails (candidate width draw) db 64 0 := by
  rw [issueUin, h]
  rfl

/-- An issued number is free and of the least width that has room. Without a failed statement,
no number is issued only if all the draws hit taken ones. The rounds of the widening suffice,
and no product leaves the range of its type. -/
theorem issueUin_spec (fails : RegisterStmt → Option String) (draw : ℕ → ℕ) (db : Db) :
    (∀ u, issueUin fails draw db = .ok u →
      db.identityMissing u = true ∧ ∃ width, db.LeastWidth width ∧ IsNumeral width u) ∧
      (∀ e, issueUin fails draw db = .error e →
        (∃ s msg, fails s = some msg ∧ e = .internal msg) ∨
          ∃ width, db.LeastWidth width ∧
            ∀ i < 64, db.identityMissing (toString (candidate width draw i)) = false) ∧
      (∀ k, settleWidth fails db (6 + k) 5 = settleWidth fails db 6 5) ∧
      (db.identities.length ≤ sqliteMaxBytes → ∀ width ≤ 10,
        (width < 10 → db.countAtWidth width * 10 < 2 ^ 63 ∧ 9 * 10 ^ (width - 1) * 8 < 2 ^ 63) ∧
          10 ^ width < 2 ^ 64) := by
  obtain ⟨hmore, hsettled⟩ := @settleWidth_spec db fails 6 5 (by decide) (by decide)
  have hbounds : db.identities.length ≤ sqliteMaxBytes → ∀ width ≤ 10,
      (width < 10 → db.countAtWidth width * 10 < 2 ^ 63 ∧ 9 * 10 ^ (width - 1) * 8 < 2 ^ 63) ∧
        10 ^ width < 2 ^ 64 := by
    intro hrows width hwidth
    have hcount : db.countAtWidth width ≤ 2 ^ 48 := List.countP_le_length.trans hrows
    have hpowers : ∀ w ≤ 10, (w < 10 → 9 * 10 ^ (w - 1) * 8 < 2 ^ 63) ∧ 10 ^ w < 2 ^ 64 := by decide
    exact ⟨fun hlt => ⟨by omega, (hpowers width hwidth).1 hlt⟩, (hpowers width hwidth).2⟩
  obtain ⟨width, hwidth, hle, hten, hroomy, hleast⟩ | ⟨s, msg, hfails, hwidth⟩ := hsettled
  · have hleast : db.LeastWidth width := ⟨hle, hten, hroomy, hleast⟩
    rw [issueUin_of_settleWidth hwidth]
    obtain ⟨hok, herror⟩ := @drawUin_spec db fails (candidate width draw) 64 0
    refine ⟨fun u h => ?_, fun e h => ?_, hmore, hbounds⟩
    · obtain ⟨hfree, i, rfl⟩ := hok u h
      exact ⟨hfree, width, hleast, isNumeral_candidate (by omega) draw i⟩
    · refine (herror e h).imp_right fun hall => ⟨width, hleast, fun i hi => ?_⟩
      exact hall i (Nat.zero_le i) (by omega)
  · have hissue : issueUin fails draw db = .error (.internal msg) := by
      rw [issueUin, hwidth]
      rfl
    rw [hissue]
    refine ⟨fun u h => (nomatch h), fun e h => ?_, hmore, hbounds⟩
    cases h
    exact .inl ⟨s, msg, hfails, rfl⟩

/-- In an empty table a number of five digits is issued. -/
theorem issueUin_spec_empty :
    Db.empty.identityMissing "10007" = true ∧
      ∃ width, Db.empty.LeastWidth width ∧ IsNumeral width "10007" :=
  (issueUin_spec (fun _ => none) (fun _ => 7) .empty).1 "10007" (by decide +kernel)

end Mesh

end Fcore
