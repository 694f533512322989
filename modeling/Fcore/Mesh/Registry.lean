import Fcore.Lib.Interleave
import Fcore.Lib.Table
import Fcore.Memory.Env

/-!
# The registry of the mesh relay

The relay keeps its identities in two concurrent maps, from the number of an identity to
the identity and from its device key to the number. `register` reads one, draws a number
that the other does not have, and writes both, with no lock over the whole: a call is taken
apart into its single map operations, and the calls take turns.

The maps are inverse to each other while nobody is writing (`Integral`). `Inv` says what is
left of that in between, with what each call holds: from its miss on, its device key, and
from its draw to its insertion, the number it drew. Two calls of one key that both miss, or
two calls that both draw one number, are what breaks it; `Undisturbed` excludes just that.
-/

namespace Fcore

structure MeshIdentity where
  uin : String
  noisePubkey : String
  signingPubkey : String
  createdAt : ℤ
  lastSeen : ℤ
  deriving DecidableEq, Repr

structure MeshRegistry where
  byUin : Table String MeshIdentity
  byNoise : Table String String

namespace MeshRegistry

def new : MeshRegistry := ⟨∅, ∅⟩

abbrev Draw := { n : ℕ // 10000000 ≤ n ∧ n ≤ 999999999 }

def Draw.uin (n : Draw) : String := toString n.val

/-- Where a call of `register` stands: before its first operation, with the number it found,
drawing, with a number it found free, with the identity it has inserted, and done. -/
inductive Stage where
  | start
  | found (uin : String)
  | drawing (now : ℤ)
  | drawn (identity : MeshIdentity)
  | inserted (identity : MeshIdentity)
  | done (identity : MeshIdentity)
  deriving DecidableEq, Repr

structure Call where
  noisePubkey : String
  signingPubkey : String
  stage : Stage
  deriving DecidableEq, Repr

structure Turn where
  draw : Draw
  now : ℤ

/-- One map operation of a call, with what the call computes before its next one. -/
def advance (turn : Turn) (call : Call) (r : MeshRegistry) : MeshRegistry × Call :=
  match call.stage with
  | .start =>
    match r.byNoise.lookup call.noisePubkey with
    | some uin => (r, { call with stage := .found uin })
    | none => (r, { call with stage := .drawing turn.now })
  | .found uin =>
    match r.byUin.lookup uin with
    | some entry =>
      let entry := { entry with lastSeen := turn.now }
      ({ r with byUin := AList.insert uin entry r.byUin }, { call with stage := .done entry })
    | none => (r, { call with stage := .drawing turn.now })
  | .drawing now =>
    let uin := turn.draw.uin
    match r.byUin.lookup uin with
    | some _ => (r, call)
    | none =>
      (r, { call with stage := .drawn ⟨uin, call.noisePubkey, call.signingPubkey, now, now⟩ })
  | .drawn identity =>
    ({ r with byUin := AList.insert identity.uin identity r.byUin },
      { call with stage := .inserted identity })
  | .inserted identity =>
    ({ r with byNoise := AList.insert call.noisePubkey identity.uin r.byNoise },
      { call with stage := .done identity })
  | .done _ => (r, call)

def IsSnapshot (r : MeshRegistry) (identities : List MeshIdentity) : Prop :=
  identities.Perm (r.byUin.entries.map fun e => e.2)

/-- The loop of `load_snapshot`. -/
def load (identities : List MeshIdentity) : MeshRegistry :=
  identities.foldl
    (fun r identity =>
      { byNoise := AList.insert identity.noisePubkey identity.uin r.byNoise
        byUin := AList.insert identity.uin identity r.byUin })
    new

/-- The two maps are inverse to each other, and every identity stands under its number. -/
structure Integral (r : MeshRegistry) : Prop where
  own : ∀ uin identity, r.byUin.lookup uin = some identity → identity.uin = uin
  inverse : ∀ noise uin, r.byNoise.lookup noise = some uin ↔
    ∃ identity, r.byUin.lookup uin = some identity ∧ identity.noisePubkey = noise

/-- The two maps read alike. -/
structure SameMaps (r r' : MeshRegistry) : Prop where
  byUin : ∀ uin, r'.byUin.lookup uin = r.byUin.lookup uin
  byNoise : ∀ noise, r'.byNoise.lookup noise = r.byNoise.lookup noise

abbrev Calls := Pool MeshRegistry Call

def waiting (r : MeshRegistry) (requests : List (String × String)) : Calls where
  shared := r
  threads := requests.map fun request => ⟨request.1, request.2, .start⟩

namespace Call

def inFlight (call : Call) : Bool :=
  match call.stage with
  | .start | .done _ => false
  | _ => true

def heldKey (call : Call) : Option String :=
  match call.stage with
  | .drawing _ | .drawn _ | .inserted _ => some call.noisePubkey
  | _ => none

def heldUin (call : Call) : Option String :=
  match call.stage with
  | .drawn identity => some identity.uin
  | _ => none

end Call

def KeyFree (p : Calls) (noise : String) : Prop := ∀ call ∈ p.threads, call.heldKey ≠ some noise

def UinFree (p : Calls) (uin : String) : Prop := ∀ call ∈ p.threads, call.heldUin ≠ some uin

instance decidableKeyFree (p : Calls) (noise : String) : Decidable (KeyFree p noise) :=
  inferInstanceAs (Decidable (∀ _ ∈ _, _))

instance decidableUinFree (p : Calls) (uin : String) : Decidable (UinFree p uin) :=
  inferInstanceAs (Decidable (∀ _ ∈ _, _))

/-- A turn disturbs nobody: a call looks up its key only while no other call that missed the
key is still at work, and draws a number that no other call has drawn and not inserted. -/
def undisturbed (p : Calls) (turn : ℕ × Turn) : Bool :=
  match p.threads[turn.1]? with
  | none => true
  | some call =>
    match call.stage with
    | .start =>
      decide (p.shared.byNoise.lookup call.noisePubkey = none → KeyFree p call.noisePubkey)
    | .drawing _ => decide (UinFree p turn.2.draw.uin)
    | _ => true

def Undisturbed (p : Calls) (turn : ℕ × Turn) : Prop := undisturbed p turn = true

instance decidableUndisturbed (p : Calls) (turn : ℕ × Turn) : Decidable (Undisturbed p turn) :=
  inferInstanceAs (Decidable (_ = _))

def noiseOf (r : MeshRegistry) (uin : String) : Option String :=
  (r.byUin.lookup uin).map MeshIdentity.noisePubkey

theorem noiseOf_eq_some {r : MeshRegistry} {uin noise : String} :
    r.noiseOf uin = some noise ↔
      ∃ identity, r.byUin.lookup uin = some identity ∧ identity.noisePubkey = noise :=
  Option.map_eq_some_iff

theorem noiseOf_insert (r : MeshRegistry) (uin : String) (identity : MeshIdentity) (u : String) :
    noiseOf { r with byUin := AList.insert uin identity r.byUin } u =
      if u = uin then some identity.noisePubkey else r.noiseOf u := by
  rw [noiseOf, AList.lookup_insert_eq_ite]
  split
  · rfl
  · rfl

/-- What a call has established, by where it stands. -/
def Call.Ok (r : MeshRegistry) (call : Call) : Prop :=
  match call.stage with
  | .start => True
  | .found uin => r.byNoise.lookup call.noisePubkey = some uin
  | .drawing _ => r.byNoise.lookup call.noisePubkey = none
  | .drawn identity =>
    r.byNoise.lookup call.noisePubkey = none ∧ r.noiseOf identity.uin = none ∧
      identity.noisePubkey = call.noisePubkey
  | .inserted identity =>
    r.byNoise.lookup call.noisePubkey = none ∧
      r.noiseOf identity.uin = some call.noisePubkey
  | .done identity => r.byNoise.lookup call.noisePubkey = some identity.uin

/-- A call has inserted a number for a key and has yet to write the other map. -/
def Call.Owes (uin noise : String) (call : Call) : Prop :=
  call.noisePubkey = noise ∧ ∃ identity, call.stage = .inserted identity ∧ identity.uin = uin

/-- Every identity stands under its number; every key leads to the number it is registered
under; and back, unless a call is about to write that. -/
structure Inv (p : Calls) : Prop where
  own : ∀ uin identity, p.shared.byUin.lookup uin = some identity → identity.uin = uin
  forward : ∀ noise uin, p.shared.byNoise.lookup noise = some uin →
    p.shared.noiseOf uin = some noise
  backward : ∀ noise uin, p.shared.noiseOf uin = some noise →
    p.shared.byNoise.lookup noise = some uin ∨ p.HasThread (Call.Owes uin noise)
  calls : ∀ (i : ℕ) call, p.threads[i]? = some call → call.Ok p.shared
  keys : p.HeldApart Call.heldKey
  uins : p.HeldApart Call.heldUin

section Steps

variable {p : Calls} {i : ℕ} {call call' : Call} {turn : Turn}

theorem calls_set {r : MeshRegistry} (hcalls : ∀ (j : ℕ) other, j ≠ i →
      p.threads[j]? = some other → other.Ok r) (hcall' : call'.Ok r) :
    ∀ (j : ℕ) other, (p.threads.set i call')[j]? = some other → other.Ok r := by
  intro j other hother
  rcases Pool.eq_or_of_getElem?_set hother with ⟨-, rfl⟩ | ⟨hj, hother⟩
  · exact hcall'
  · exact hcalls j other hj hother

theorem own_insert {r : MeshRegistry} {uin : String} {identity : MeshIdentity}
    (h : ∀ u entry, r.byUin.lookup u = some entry → entry.uin = u) (hown : identity.uin = uin)
    (u : String) (entry : MeshIdentity)
    (hlook : (AList.insert uin identity r.byUin).lookup u = some entry) : entry.uin = u := by
  rcases AList.lookup_insert_cases hlook with ⟨rfl, rfl⟩ | hold
  · exact hown
  · exact h u entry hold

theorem not_owes_of_stage (call : Call) (h : ∀ identity, call.stage ≠ .inserted identity)
    (uin noise : String) : ¬ call.Owes uin noise := by
  rintro ⟨-, identity, hstage, -⟩
  exact h identity hstage

/-- A call moves on without writing. -/
theorem Inv.read (h : Inv p) (hi : p.threads[i]? = some call)
    (howes : ∀ uin noise, ¬ call.Owes uin noise) (hok : call'.Ok p.shared)
    (hkey : ∀ noise, call'.heldKey = some noise → call.heldKey = some noise ∨ KeyFree p noise)
    (huin : ∀ uin, call'.heldUin = some uin → call.heldUin = some uin ∨ UinFree p uin) :
    Inv ⟨p.shared, p.threads.set i call'⟩ where
  own := h.own
  forward := h.forward
  backward := by
    intro noise uin hnoise
    refine (h.backward noise uin hnoise).imp_right fun hthread => ?_
    exact hthread.set hi (fun ho => absurd ho (howes uin noise)) p.shared
  calls := calls_set (fun j other _ hj => h.calls j other hj) hok
  keys := by
    refine h.keys.set hi (fun noise hnoise => ?_) p.shared
    exact (hkey noise hnoise).imp_right fun hfree j other hj =>
      hfree other (List.mem_of_getElem? hj)
  uins := by
    refine h.uins.set hi (fun uin hheld => ?_) p.shared
    exact (huin uin hheld).imp_right fun hfree j other hj => hfree other (List.mem_of_getElem? hj)

theorem Inv.refresh (h : Inv p) (hi : p.threads[i]? = some call) {uin : String}
    (hstage : call.stage = .found uin) {entry : MeshIdentity}
    (hentry : p.shared.byUin.lookup uin = some entry) (now : ℤ) :
    Inv ⟨{ p.shared with byUin := AList.insert uin { entry with lastSeen := now } p.shared.byUin },
      p.threads.set i { call with stage := .done { entry with lastSeen := now } }⟩ := by
  have hown : entry.uin = uin := h.own uin entry hentry
  have hnoise : ∀ u, noiseOf { p.shared with
      byUin := AList.insert uin { entry with lastSeen := now } p.shared.byUin } u =
        p.shared.noiseOf u := by
    intro u
    rw [noiseOf_insert]
    split
    · rename_i hu
      rw [hu, noiseOf, hentry]
      rfl
    · rfl
  have hok : ∀ other : Call, other.Ok p.shared → other.Ok { p.shared with
      byUin := AList.insert uin { entry with lastSeen := now } p.shared.byUin } := by
    intro other hother
    unfold Call.Ok at hother ⊢
    simpa only [hnoise] using hother
  have hcall := h.calls i call hi
  rw [Call.Ok, hstage] at hcall
  refine ⟨?_, ?_, ?_, ?_, ?_, ?_⟩
  · exact own_insert h.own hown
  · intro noise u hlook
    rw [hnoise]
    exact h.forward noise u hlook
  · intro noise u hlook
    rw [hnoise] at hlook
    exact (h.backward noise u hlook).imp_right fun hthread =>
      hthread.set hi (fun ho => absurd ho (not_owes_of_stage call (by simp [hstage]) u noise)) _
  · refine calls_set (fun j other _ hj => hok other (h.calls j other hj)) ?_
    rw [hown]
    exact hcall
  · refine h.keys.set hi (fun noise hheld => ?_) _
    cases hheld
  · refine h.uins.set hi (fun u hheld => ?_) _
    cases hheld

theorem Inv.insertUin (h : Inv p) (hi : p.threads[i]? = some call) {identity : MeshIdentity}
    (hstage : call.stage = .drawn identity) :
    Inv ⟨{ p.shared with byUin := AList.insert identity.uin identity p.shared.byUin },
      p.threads.set i { call with stage := .inserted identity }⟩ := by
  have hcall := h.calls i call hi
  rw [Call.Ok, hstage] at hcall
  obtain ⟨hkey, hfree, hnoise⟩ := hcall
  have hother : ∀ (j : ℕ) other, j ≠ i → p.threads[j]? = some other → other.Ok { p.shared with
      byUin := AList.insert identity.uin identity p.shared.byUin } := by
    intro j other hj hother
    have hok := h.calls j other hother
    unfold Call.Ok at hok ⊢
    cases hs : other.stage with
    | drawn identity' =>
      rw [hs] at hok
      refine ⟨hok.1, ?_, hok.2.2⟩
      -- the number this call drew is not the one inserted: no two calls drew the same
      have hne : identity'.uin ≠ identity.uin := by
        intro heq
        refine h.uins i j call other identity.uin (Ne.symm hj) hi hother ?_ ?_
        · simp [Call.heldUin, hstage]
        · simp [Call.heldUin, hs, heq]
      rw [noiseOf_insert, if_neg hne]
      exact hok.2.1
    | inserted identity' =>
      rw [hs] at hok
      refine ⟨hok.1, ?_⟩
      have hne : identity'.uin ≠ identity.uin := by
        intro heq
        have hold := hok.2
        rw [heq, hfree] at hold
        cases hold
      rw [noiseOf_insert, if_neg hne]
      exact hok.2
    | _ =>
      rw [hs] at hok
      exact hok
  refine ⟨?_, ?_, ?_, ?_, ?_, ?_⟩
  · exact own_insert h.own rfl
  · intro noise u hlook
    have hold := h.forward noise u hlook
    have hne : u ≠ identity.uin := by
      rintro rfl
      rw [hfree] at hold
      cases hold
    rw [noiseOf_insert, if_neg hne]
    exact hold
  · intro noise u hlook
    rw [noiseOf_insert] at hlook
    split at hlook
    · rename_i hu
      refine .inr (Pool.hasThread_set_self hi ?_ _)
      exact ⟨hnoise.symm.trans (Option.some.inj hlook), identity, rfl, hu.symm⟩
    · exact (h.backward noise u hlook).imp_right fun hthread =>
        hthread.set hi (fun ho => absurd ho (not_owes_of_stage call (by simp [hstage]) u noise)) _
  · refine calls_set hother ⟨hkey, ?_⟩
    rw [noiseOf_insert, if_pos rfl, hnoise]
  · refine h.keys.set hi (fun noise hheld => .inl ?_) _
    simpa [Call.heldKey, hstage] using hheld
  · refine h.uins.set hi (fun u hheld => ?_) _
    cases hheld

theorem Inv.insertNoise (h : Inv p) (hi : p.threads[i]? = some call) {identity : MeshIdentity}
    (hstage : call.stage = .inserted identity) :
    Inv ⟨{ p.shared with
        byNoise := AList.insert call.noisePubkey identity.uin p.shared.byNoise },
      p.threads.set i { call with stage := .done identity }⟩ := by
  have hcall := h.calls i call hi
  rw [Call.Ok, hstage] at hcall
  obtain ⟨hkey, hinserted⟩ := hcall
  have hne : ∀ noise u, p.shared.byNoise.lookup noise = some u → noise ≠ call.noisePubkey := by
    rintro noise u hlook rfl
    rw [hkey] at hlook
    cases hlook
  have hheld : call.heldKey = some call.noisePubkey := by simp [Call.heldKey, hstage]
  have hother : ∀ (j : ℕ) other, j ≠ i → p.threads[j]? = some other → other.Ok { p.shared with
      byNoise := AList.insert call.noisePubkey identity.uin p.shared.byNoise } := by
    intro j other hj hother
    have hok := h.calls j other hother
    have hapart := h.keys i j call other call.noisePubkey (Ne.symm hj) hi hother hheld
    -- a call of the same key would hold it, or would have seen it registered
    have hkey' : other.stage ≠ .start → other.noisePubkey ≠ call.noisePubkey := by
      intro hstart
      unfold Call.Ok at hok
      unfold Call.heldKey at hapart
      cases hs : other.stage with
      | start => exact absurd hs hstart
      | found uin =>
        rw [hs] at hok
        exact hne _ _ hok
      | done identity' =>
        rw [hs] at hok
        exact hne _ _ hok
      | _ => simpa [hs] using hapart
    unfold Call.Ok at hok ⊢
    cases hs : other.stage with
    | start => trivial
    | _ =>
      rw [hs] at hok
      have hlook := AList.lookup_insert_eq_ite call.noisePubkey other.noisePubkey identity.uin
        p.shared.byNoise
      rw [if_neg (hkey' (by simp [hs]))] at hlook
      simpa only [hlook, noiseOf] using hok
  refine ⟨h.own, ?_, ?_, ?_, ?_, ?_⟩
  · intro noise u hlook
    rcases AList.lookup_insert_cases hlook with ⟨rfl, rfl⟩ | hold
    · exact hinserted
    · exact h.forward noise u hold
  · intro noise u hlook
    rw [AList.lookup_insert_eq_ite]
    rcases h.backward noise u hlook with hold | ⟨j, other, hj, ho⟩
    · rw [if_neg (hne noise u hold)]
      exact .inl hold
    · by_cases hji : j = i
      · subst hji
        rw [hi] at hj
        obtain ⟨hnoise, identity', hinserted', rfl⟩ := ho
        cases hj
        rw [hstage] at hinserted'
        cases hinserted'
        rw [if_pos hnoise.symm]
        exact .inl rfl
      · exact .inr ⟨j, other, by rwa [List.getElem?_set_ne (Ne.symm hji)], ho⟩
  · refine calls_set hother ?_
    change (AList.insert call.noisePubkey identity.uin p.shared.byNoise).lookup _ = _
    rw [AList.lookup_insert_eq_ite, if_pos rfl]
  · refine h.keys.set hi (fun noise hheld => ?_) _
    cases hheld
  · refine h.uins.set hi (fun u hheld => ?_) _
    cases hheld

theorem Inv.step (h : Inv p) {turn : ℕ × Turn} (hturn : Undisturbed p turn) :
    Inv (p.step advance turn) := by
  refine Pool.step_keeps h fun call hi => ?_
  have hok := h.calls turn.1 call hi
  unfold Undisturbed undisturbed at hturn
  rw [hi] at hturn
  dsimp only at hturn
  unfold advance
  unfold Call.Ok at hok
  cases hstage : call.stage with
  | start =>
    rw [hstage] at hturn
    have hkey := of_decide_eq_true hturn
    have howes := not_owes_of_stage call (by simp [hstage])
    cases hlook : p.shared.byNoise.lookup call.noisePubkey with
    | some uin =>
      refine h.read hi howes hlook (fun noise hheld => ?_) (fun uin hheld => ?_)
      · cases hheld
      · cases hheld
    | none =>
      refine h.read hi howes hlook (fun noise hheld => .inr ?_) (fun uin hheld => ?_)
      · rw [← Option.some.inj hheld]
        exact hkey hlook
      · cases hheld
  | found uin =>
    rw [hstage] at hok
    obtain ⟨entry, hentry, -⟩ := noiseOf_eq_some.mp (h.forward _ _ hok)
    dsimp only
    rw [hentry]
    exact h.refresh hi hstage hentry turn.2.now
  | drawing now =>
    rw [hstage] at hok hturn
    have hfree := of_decide_eq_true hturn
    have howes := not_owes_of_stage call (by simp [hstage])
    dsimp only
    cases hlook : p.shared.byUin.lookup turn.2.draw.uin with
    | some entry =>
      rw [Pool.set_self hi]
      exact h
    | none =>
      have hnoise : p.shared.noiseOf turn.2.draw.uin = none := by
        rw [noiseOf, hlook]
        rfl
      refine h.read hi howes ⟨hok, hnoise, rfl⟩ (fun noise hheld => .inl ?_)
        (fun uin hheld => .inr ?_)
      · simpa [Call.heldKey, hstage] using hheld
      · rw [← Option.some.inj hheld]
        exact hfree
  | drawn identity => exact h.insertUin hi hstage
  | inserted identity => exact h.insertNoise hi hstage
  | done identity =>
    rw [Pool.set_self hi]
    exact h

end Steps

theorem Integral.inv_waiting {r : MeshRegistry} (h : r.Integral)
    (requests : List (String × String)) : Inv (waiting r requests) := by
  have hstart : ∀ (i : ℕ) call, (waiting r requests).threads[i]? = some call →
      call.stage = .start := by
    intro i call hi
    obtain ⟨request, -, rfl⟩ := List.mem_map.mp (List.mem_of_getElem? hi)
    rfl
  refine ⟨h.own, ?_, ?_, ?_, ?_, ?_⟩
  · intro noise uin hlook
    exact noiseOf_eq_some.mpr ((h.inverse noise uin).mp hlook)
  · intro noise uin hnoise
    exact .inl ((h.inverse noise uin).mpr (noiseOf_eq_some.mp hnoise))
  · intro i call hi
    rw [Call.Ok, hstart i call hi]
    trivial
  · intro i j call other noise _ hi _ hheld
    rw [Call.heldKey, hstart i call hi] at hheld
    cases hheld
  · intro i j call other uin _ hi _ hheld
    rw [Call.heldUin, hstart i call hi] at hheld
    cases hheld

theorem Inv.integral {p : Calls} (h : Inv p)
    (hquiet : ∀ call ∈ p.threads, call.inFlight = false) : p.shared.Integral where
  own := h.own
  inverse := by
    intro noise uin
    rw [← noiseOf_eq_some]
    refine ⟨h.forward noise uin, fun hnoise => ?_⟩
    rcases h.backward noise uin hnoise with hback | ⟨i, call, hi, -, identity, hstage, -⟩
    · exact hback
    · have hflight := hquiet call (List.mem_of_getElem? hi)
      rw [Call.inFlight, hstage] at hflight
      cases hflight

theorem integral_new : new.Integral where
  own := by simp [new]
  inverse := by simp [new]

section Snapshot

variable {r : MeshRegistry} {identities : List MeshIdentity}

theorem Integral.mem_snapshot_iff (h : r.Integral) (hsnap : r.IsSnapshot identities)
    (identity : MeshIdentity) :
    identity ∈ identities ↔ r.byUin.lookup identity.uin = some identity := by
  rw [hsnap.mem_iff, List.mem_map]
  constructor
  · rintro ⟨e, he, rfl⟩
    have hlook := AList.lookup_of_mem_entries he
    rwa [h.own e.1 e.2 hlook]
  · intro hlook
    exact ⟨⟨identity.uin, identity⟩, AList.mem_entries_iff.mpr hlook, rfl⟩

theorem load_eq (identities : List MeshIdentity) :
    load identities =
      ⟨identities.foldl (fun s identity => AList.insert identity.uin identity s) ∅,
        identities.foldl (fun s identity => AList.insert identity.noisePubkey identity.uin s)
          ∅⟩ := by
  rw [load, new]
  generalize (∅ : Table String MeshIdentity) = byUin
  generalize (∅ : Table String String) = byNoise
  induction identities generalizing byUin byNoise with
  | nil => rfl
  | cons identity identities ih => exact ih ..

theorem Integral.sameMaps_load (h : r.Integral) (hsnap : r.IsSnapshot identities) :
    r.SameMaps (load identities) := by
  have hmem := h.mem_snapshot_iff hsnap
  rw [load_eq]
  constructor
  · intro uin
    refine (AList.lookup_foldl_insert_of_agree (o := fun uin => r.byUin.lookup uin)
      (fun identity hid => (hmem identity).mp hid) uin ∅).trans ?_
    split
    · rfl
    · rename_i hnone
      refine (Option.eq_none_iff_forall_ne_some.mpr fun entry hentry => hnone ?_).symm
      have hown := h.own uin entry hentry
      exact ⟨entry, (hmem entry).mpr (by rwa [hown]), hown⟩
  · intro noise
    refine (AList.lookup_foldl_insert_of_agree (o := fun noise => r.byNoise.lookup noise)
      (fun identity hid => (h.inverse _ _).mpr ⟨identity, (hmem identity).mp hid, rfl⟩) noise
      ∅).trans ?_
    split
    · rfl
    · rename_i hnone
      refine (Option.eq_none_iff_forall_ne_some.mpr fun uin huin => hnone ?_).symm
      obtain ⟨entry, hentry, hnoise⟩ := (h.inverse noise uin).mp huin
      exact ⟨entry, (hmem entry).mpr (by rwa [h.own uin entry hentry]), hnoise⟩

theorem SameMaps.integral {r' : MeshRegistry} (hsame : r.SameMaps r') (h : r.Integral) :
    r'.Integral where
  own := by
    intro uin identity hlook
    exact h.own uin identity (by rwa [hsame.byUin] at hlook)
  inverse := by
    intro noise uin
    rw [hsame.byNoise, hsame.byUin]
    exact h.inverse noise uin

end Snapshot

/-- What should hold of the registry while no call is in flight: its maps are inverse to
each other; the key of every call that returned is registered under one number, the one
returned; and a snapshot, in whatever order it is taken, loads as the same maps. -/
structure Sound (p : Calls) : Prop where
  integral : p.shared.Integral
  returned : ∀ call ∈ p.threads, ∀ identity, call.stage = .done identity →
    (p.shared.byUin.lookup identity.uin).isSome ∧
      ∀ uin, (∃ entry, p.shared.byUin.lookup uin = some entry ∧
        entry.noisePubkey = call.noisePubkey) ↔ uin = identity.uin
  snapshot : ∀ identities, p.shared.IsSnapshot identities →
    (load identities).Integral ∧ p.shared.SameMaps (load identities)

theorem Inv.sound {p : Calls} (h : Inv p) (hquiet : ∀ call ∈ p.threads, call.inFlight = false) :
    Sound p := by
  have hint := h.integral hquiet
  refine ⟨hint, fun call hcall identity hstage => ?_, fun identities hsnap => ?_⟩
  · obtain ⟨i, hi⟩ := List.getElem?_of_mem hcall
    have hok := h.calls i call hi
    rw [Call.Ok, hstage] at hok
    refine ⟨?_, fun uin => ?_⟩
    · obtain ⟨entry, hentry, -⟩ := (hint.inverse _ _).mp hok
      rw [hentry]
      rfl
    · rw [← hint.inverse, hok, Option.some_inj]
      exact eq_comm
  · have hsame := hint.sameMaps_load hsnap
    exact ⟨hsame.integral hint, hsame⟩

/-- In every interleaving in which no turn disturbs another call, the registry is sound
whenever no call is in flight. -/
theorem sound_of_undisturbed {r : MeshRegistry} (hr : r.Integral)
    (requests : List (String × String)) (turns : List (ℕ × Turn))
    (hturns : Run.Along (Pool.step advance) Undisturbed (waiting r requests) turns) :
    ∀ p ∈ turns.scanl (Pool.step advance) (waiting r requests),
      (∀ call ∈ p.threads, call.inFlight = false) → Sound p := by
  intro p hp hquiet
  exact (Run.invariant_scanl (fun _ _ h hturn => h.step hturn) (hr.inv_waiting requests) hturns
    p hp).sound hquiet

def turnsOf (calls : List (Fin 3)) : List (ℕ × Turn) :=
  calls.map fun i => (i.val, ⟨⟨10000000 + i.val, by omega⟩, 5⟩)

/-- Two devices register side by side, and the first comes back afterwards. -/
theorem sound_side_by_side :
    Sound ((turnsOf [0, 1, 0, 1, 1, 0, 0, 1, 2, 2]).foldl (Pool.step advance)
      (waiting new [("a", "s"), ("b", "t"), ("a", "s")])) :=
  sound_of_undisturbed integral_new [("a", "s"), ("b", "t"), ("a", "s")]
    (turnsOf [0, 1, 0, 1, 1, 0, 0, 1, 2, 2]) (by decide +kernel) _
    (Run.foldl_mem_scanl _ _ _) (by decide +kernel)

/-- Two calls of one device both miss its key, and it ends up under two numbers. -/
theorem one_device_two_numbers :
    (∀ call ∈ ((turnsOf [0, 1, 0, 1, 0, 0, 1, 1]).foldl (Pool.step advance)
        (waiting new [("a", "s"), ("a", "s")])).threads, call.inFlight = false) ∧
      ¬ Sound ((turnsOf [0, 1, 0, 1, 0, 0, 1, 1]).foldl (Pool.step advance)
        (waiting new [("a", "s"), ("a", "s")])) := by
  refine ⟨by decide +kernel, fun h => ?_⟩
  have hfirst := (h.integral.inverse "a" "10000000").mpr
    ⟨⟨"10000000", "a", "s", 5, 5⟩, by decide +kernel, rfl⟩
  revert hfirst
  decide +kernel

end MeshRegistry

end Fcore
