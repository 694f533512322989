import Fcore.Lib.Run
import Fcore.Mesh.Issue

/-!
# Mesh identities

What a registration leaves in the tables is seen on the names, the number and the subscription
of each identity, and on the keys, the number and the noise key of each device. `Registers`
lists what a call does to these. A call that founds an identity inserts two rows in two
statements, and when the second fails the identity is left without a device.

`Registry` is what every store that registrations build up satisfies. The device table is
scanned in no particular order, so `Registered` allows for any order of the rows.
-/

namespace Fcore

namespace Mesh

/-- Every device belongs to an identity, no two devices share a key, and identities are
known by numbers. -/
structure Registry (db : Db) : Prop where
  owned : ∀ d ∈ db.devices, ∃ i ∈ db.identities, i.uin = d.uin
  noises : (db.devices.map Device.noisePubkey).Nodup
  numbers : ∀ i ∈ db.identities, ∃ n : ℕ, i.uin = toString n

namespace Db

def names (db : Db) : List (String × Uuid) := db.identities.map fun i => (i.uin, i.subscriptionId)

def keys (db : Db) : List (String × String) := db.devices.map fun d => (d.uin, d.noisePubkey)

/-- What the tables keep to under all registrations. -/
structure Sound (db : Db) : Prop where
  owned : ∀ k ∈ db.keys, ∃ n ∈ db.names, n.1 = k.1
  noises : (db.keys.map Prod.snd).Nodup
  uins : (db.names.map Prod.fst).Nodup
  subs : (db.names.map Prod.snd).Nodup
  numbers : ∀ n ∈ db.names, ∃ k : ℕ, n.1 = toString k

variable {db db' : Db}

theorem deviceOwner_eq (noise : String) :
    db.deviceOwner noise = (db.keys.find? fun k => k.2 == noise).bind fun k =>
      db.names.find? fun n => n.1 == k.1 := by
  rw [keys, List.find?_map, Option.bind_map]
  refine Option.bind_congr fun d _ => ?_
  rw [names, Function.comp_apply, List.find?_map]
  refine Option.map_congr fun i hi => ?_
  rw [(by simpa using List.find?_some hi : i.uin = d.uin)]

theorem identityForSub_eq (sub : Uuid) :
    db.identityForSub sub = (db.names.find? fun n => n.2 == sub).map Prod.fst := by
  rw [names, List.find?_map, Option.map_map]
  rfl

theorem Sound.registry (h : db.Sound) : Registry db := by
  refine ⟨fun d hd => ?_, ?_, fun i hi => h.numbers _ (List.mem_map_of_mem hi)⟩
  · obtain ⟨n, hn, heq⟩ := h.owned _ (List.mem_map_of_mem hd)
    obtain ⟨i, hi, rfl⟩ := List.mem_map.mp hn
    exact ⟨i, hi, heq⟩
  · simpa [keys, Function.comp_def] using h.noises

theorem find?_of_nodup {α β : Type*} [BEq β] [LawfulBEq β] {f : α → β} {l : List α} {x : α}
    (h : (l.map f).Nodup) (hx : x ∈ l) : (l.find? fun y => f y == f x) = some x := by
  cases hfind : l.find? fun y => f y == f x with
  | none => simpa using List.find?_eq_none.mp hfind x hx
  | some y =>
    have heq : f y = f x := by simpa using List.find?_some hfind
    rw [List.inj_on_of_nodup_map h (List.mem_of_find?_eq_some hfind) hx heq]

theorem Sound.deviceOwner_eq_some_iff (h : db.Sound) {noise uin : String} {sub : Uuid} :
    db.deviceOwner noise = some (uin, sub) ↔ (uin, noise) ∈ db.keys ∧ (uin, sub) ∈ db.names := by
  rw [deviceOwner_eq]
  constructor
  · intro howner
    obtain ⟨⟨uin', noise'⟩, hk, hn⟩ := Option.bind_eq_some_iff.mp howner
    have hnoise : noise' = noise := by simpa using List.find?_some hk
    have huin : uin = uin' := by simpa using List.find?_some hn
    exact ⟨huin ▸ hnoise ▸ List.mem_of_find?_eq_some hk, List.mem_of_find?_eq_some hn⟩
  · rintro ⟨hk, hn⟩
    rw [find?_of_nodup h.noises hk]
    exact find?_of_nodup h.uins hn

/-- A key that no device of an identity has is not in the table. -/
theorem Sound.noise_notMem (h : db.Sound) {noise : String} (hnone : db.deviceOwner noise = none) :
    noise ∉ db.keys.map Prod.snd := by
  intro hmem
  obtain ⟨⟨uin, noise⟩, hk, rfl⟩ := List.mem_map.mp hmem
  obtain ⟨⟨uin', sub⟩, hn, rfl⟩ := h.owned _ hk
  have howner := h.deviceOwner_eq_some_iff.mpr ⟨hk, hn⟩
  exact nomatch hnone.symm.trans howner

theorem insertDevice_eq_ok_iff {d : Device} :
    db.insertDevice d = .ok db' ↔
      d.noisePubkey ∉ db.keys.map Prod.snd ∧ db' = { db with devices := db.devices ++ [d] } := by
  have hany : (db.devices.any fun d' => d'.noisePubkey == d.noisePubkey) = true ↔
      d.noisePubkey ∈ db.keys.map Prod.snd := by
    simp [keys]
  by_cases h : d.noisePubkey ∈ db.keys.map Prod.snd
  · rw [insertDevice, if_pos (hany.mpr h)]
    simp [h]
  · rw [insertDevice, if_neg (mt hany.mp h), Except.ok.injEq, and_iff_right h]
    exact eq_comm

theorem insertIdentity_eq_ok_iff {i : Identity} :
    db.insertIdentity i = .ok db' ↔
      i.uin ∉ db.names.map Prod.fst ∧ i.subscriptionId ∉ db.names.map Prod.snd ∧
        db' = { db with identities := db.identities ++ [i] } := by
  have huin : (db.identities.any fun i' => i'.uin == i.uin) = true ↔
      i.uin ∈ db.names.map Prod.fst := by
    simp [names]
  have hsub : (db.identities.any fun i' => i'.subscriptionId == i.subscriptionId) = true ↔
      i.subscriptionId ∈ db.names.map Prod.snd := by
    simp [names]
  by_cases h : i.uin ∈ db.names.map Prod.fst
  · rw [insertIdentity, if_pos (huin.mpr h)]
    simp [h]
  · rw [insertIdentity, if_neg (mt huin.mp h), and_iff_right h]
    by_cases h' : i.subscriptionId ∈ db.names.map Prod.snd
    · rw [if_pos (hsub.mpr h')]
      simp [h']
    · rw [if_neg (mt hsub.mp h'), Except.ok.injEq, and_iff_right h']
      exact eq_comm

end Db

/-- The device of a call that founds an identity is not stored. -/
structure RegisterCall.Strands (call : RegisterCall) (a : Admitted) (db : Db) : Prop where
  reads : call.fails .deviceOwner = none ∧ call.fails .identityForSub = none
  unknown : db.deviceOwner a.noise = none ∧ db.identityForSub a.sub = none
  issued : ∃ uin, issueUin call.fails call.draw db = .ok uin
  founds : call.fails .insertIdentity = none
  fails : call.fails .insertDevice ≠ none

/-- What a call does to the names and the keys. -/
inductive Registers (call : RegisterCall) (a : Admitted) (db : Db) :
    Except MeshError String → Db → Prop
  | kept {result : Except MeshError String} {db' : Db} :
    db'.names = db.names → db'.keys = db.keys →
    (∀ uin, result = .ok uin → db.deviceOwner a.noise = some (uin, a.sub)) →
    Registers call a db result db'
  | joined {uin : String} {result : Except MeshError String} {db' : Db} :
    db.identityForSub a.sub = some uin → a.noise ∉ db.keys.map Prod.snd →
    db'.names = db.names → db'.keys = db.keys ++ [(uin, a.noise)] →
    (∀ u, result = .ok u → u = uin) → Registers call a db result db'
  | stranded {uin : String} {e : MeshError} {db' : Db} :
    call.Strands a db → issueUin call.fails call.draw db = .ok uin →
    uin ∉ db.names.map Prod.fst → a.sub ∉ db.names.map Prod.snd →
    db'.names = db.names ++ [(uin, a.sub)] → db'.keys = db.keys →
    Registers call a db (.error e) db'
  | founded {uin : String} {db' : Db} :
    issueUin call.fails call.draw db = .ok uin →
    uin ∉ db.names.map Prod.fst → a.sub ∉ db.names.map Prod.snd →
    a.noise ∉ db.keys.map Prod.snd →
    db'.names = db.names ++ [(uin, a.sub)] → db'.keys = db.keys ++ [(uin, a.noise)] →
    Registers call a db (.ok uin) db'

section Calls

variable {call : RegisterCall} {a : Admitted} {db db' : Db} {uin : String}

theorem exec_cases (fault : Option String) (change : Db → Except String Db) (db : Db) :
    (∃ e, exec fault change db = (.error e, db)) ∨
      ∃ db', fault = none ∧ change db = .ok db' ∧ exec fault change db = (.ok (), db') := by
  cases fault with
  | some msg => exact .inl ⟨_, rfl⟩
  | none =>
    cases h : change db with
    | error msg => exact .inl ⟨.internal msg, by rw [exec, h]⟩
    | ok db' => exact .inr ⟨db', rfl, rfl, by rw [exec, h]⟩

theorem names_updateName (name uin : String) : (db.updateName name uin).names = db.names := by
  rw [Db.names, Db.updateName, List.map_map]
  refine List.map_congr_left fun i _ => ?_
  dsimp only [Function.comp_apply]
  split <;> rfl

theorem keys_updateDevice (signing : String) (now : Int64) (noise : String) :
    (db.updateDevice signing now noise).keys = db.keys := by
  rw [Db.keys, Db.updateDevice, List.map_map]
  refine List.map_congr_left fun d _ => ?_
  dsimp only [Function.comp_apply]
  split <;> rfl

/-- The last part of a call, which may enter a new name. -/
theorem renamed_cases (call : RegisterCall) (a : Admitted) (uin : String) (db : Db) :
    ∃ result db', andThen (call.rename a uin db)
        (fun db => ((.ok uin, db) : Except MeshError String × Db)) = (result, db') ∧
      db'.names = db.names ∧ db'.keys = db.keys ∧ ∀ u, result = .ok u → u = uin := by
  cases hname : a.name with
  | none =>
    exact ⟨.ok uin, db, by rw [RegisterCall.rename, hname]; rfl, rfl, rfl, by simp [eq_comm]⟩
  | some name =>
    rw [RegisterCall.rename, hname]
    obtain ⟨e, h⟩ | ⟨db', -, hdb', h⟩ := exec_cases (call.fails .updateName)
      (fun db => .ok (db.updateName name uin)) db
    · exact ⟨.error e, db, by simp only [h]; rfl, rfl, rfl, by simp⟩
    · cases hdb'
      exact ⟨.ok uin, _, by simp only [h]; rfl, names_updateName name uin, rfl, by simp [eq_comm]⟩

theorem registers_refresh (howner : db.deviceOwner a.noise = some (uin, a.sub)) :
    Registers call a db (call.refresh a uin db).1 (call.refresh a uin db).2 := by
  rw [RegisterCall.refresh]
  obtain ⟨e, h⟩ | ⟨db', -, hdb', h⟩ := exec_cases (call.fails .updateDevice)
    (fun db => .ok (db.updateDevice a.signing call.now a.noise)) db
  · rw [h]
    exact .kept rfl rfl (fun _ h => nomatch h)
  · cases hdb'
    obtain ⟨result, db₂, hresult, hnames, hkeys, hok⟩ := renamed_cases call a uin
      (db.updateDevice a.signing call.now a.noise)
    rw [h, andThen, hresult]
    refine .kept hnames (hkeys.trans (keys_updateDevice _ _ _)) fun u hu => ?_
    rw [hok u hu, howner]

theorem registers_join (hsub : db.identityForSub a.sub = some uin) :
    Registers call a db (call.join a uin db).1 (call.join a uin db).2 := by
  rw [RegisterCall.join]
  obtain ⟨e, h⟩ | ⟨db', -, hdb', h⟩ := exec_cases (call.fails .insertDevice)
    (Db.insertDevice (call.device a uin)) db
  · rw [h]
    exact .kept rfl rfl (fun _ h => nomatch h)
  · obtain ⟨hfresh, rfl⟩ := Db.insertDevice_eq_ok_iff.mp hdb'
    obtain ⟨result, db₂, hresult, hnames, hkeys, hok⟩ := renamed_cases call a uin
      { db with devices := db.devices ++ [call.device a uin] }
    rw [h, andThen, hresult]
    exact .joined hsub hfresh hnames (hkeys.trans (List.map_append ..)) hok

theorem registers_found (h : db.Sound)
    (hreads : call.fails .deviceOwner = none ∧ call.fails .identityForSub = none)
    (hunknown : db.deviceOwner a.noise = none ∧ db.identityForSub a.sub = none) :
    Registers call a db (call.found a db).1 (call.found a db).2 := by
  rw [RegisterCall.found]
  cases hissued : issueUin call.fails call.draw db with
  | error e => exact .kept rfl rfl (fun _ h => nomatch h)
  | ok uin =>
    obtain ⟨e, hexec⟩ | ⟨db₁, hfault, hdb₁, hexec⟩ := exec_cases (call.fails .insertIdentity)
      (Db.insertIdentity ⟨uin, a.sub, a.name.getD "", call.now⟩) db
    · simp only [hexec]
      exact .kept rfl rfl (fun _ h => nomatch h)
    · obtain ⟨huin, hsub, rfl⟩ := Db.insertIdentity_eq_ok_iff.mp hdb₁
      simp only [hexec, andThen]
      have hfresh := h.noise_notMem hunknown.1
      cases hdevice : call.fails .insertDevice with
      | some msg =>
        exact .stranded ⟨hreads, hunknown, ⟨uin, hissued⟩, hfault, by simp [hdevice]⟩ hissued huin
          hsub (List.map_append ..) rfl
      | none =>
        have hinsert := Db.insertDevice_eq_ok_iff.mpr
          (⟨hfresh, rfl⟩ : (call.device a uin).noisePubkey ∉ (Db.keys { db with
            identities := db.identities ++ [⟨uin, a.sub, a.name.getD "", call.now⟩] }).map
              Prod.snd ∧ _)
        rw [exec, hinsert]
        exact .founded hissued huin hsub hfresh (List.map_append ..) (List.map_append ..)

theorem registers_proceed (h : db.Sound) :
    Registers call a db (call.proceed a db).1 (call.proceed a db).2 := by
  rw [RegisterCall.proceed]
  cases hdevice : call.fails .deviceOwner with
  | some msg => exact .kept rfl rfl (fun _ h => nomatch h)
  | none =>
    cases howner : db.deviceOwner a.noise with
    | some owner =>
      dsimp only [stmt]
      split
      case isTrue hbound => exact registers_refresh (hbound ▸ howner)
      case isFalse => exact .kept rfl rfl (fun _ h => nomatch h)
    | none =>
      cases hfault : call.fails .identityForSub with
      | some msg => exact .kept rfl rfl (fun _ h => nomatch h)
      | none =>
        cases hsub : db.identityForSub a.sub with
        | none => exact registers_found h ⟨hdevice, hfault⟩ ⟨howner, hsub⟩
        | some uin => exact registers_join hsub

theorem exists_name_of_identityForSub {sub : Uuid} (h : db.identityForSub sub = some uin) :
    (uin, sub) ∈ db.names := by
  rw [Db.identityForSub_eq] at h
  obtain ⟨⟨uin', sub'⟩, hfind, rfl⟩ := Option.map_eq_some_iff.mp h
  rw [← (by simpa using List.find?_some hfind : sub' = sub)]
  exact List.mem_of_find?_eq_some hfind

theorem nodup_map_append {α β : Type*} {f : α → β} {l : List α} {x : α} (h : (l.map f).Nodup)
    (hx : f x ∉ l.map f) : ((l ++ [x]).map f).Nodup := by
  rw [List.map_append, List.map_singleton, ← List.concat_eq_append]
  exact h.concat hx

theorem Db.Sound.addName (h : db.Sound) (hnumber : ∃ k : ℕ, uin = toString k)
    (huin : uin ∉ db.names.map Prod.fst) (hsub : a.sub ∉ db.names.map Prod.snd)
    (hnames : db'.names = db.names ++ [(uin, a.sub)]) (hkeys : db'.keys = db.keys) : db'.Sound := by
  constructor
  · rw [hnames, hkeys]
    exact fun k hk => (h.owned k hk).imp fun n hn => ⟨List.mem_append_left _ hn.1, hn.2⟩
  · rw [hkeys]
    exact h.noises
  · rw [hnames]
    exact nodup_map_append h.uins huin
  · rw [hnames]
    exact nodup_map_append h.subs hsub
  · rw [hnames]
    intro n hn
    rcases List.mem_append.mp hn with hn | hn
    · exact h.numbers n hn
    · rw [List.mem_singleton.mp hn]
      exact hnumber

theorem Db.Sound.addKey (h : db.Sound) (sub : Uuid) (howner : (uin, sub) ∈ db.names)
    (hfresh : a.noise ∉ db.keys.map Prod.snd) (hnames : db'.names = db.names)
    (hkeys : db'.keys = db.keys ++ [(uin, a.noise)]) : db'.Sound := by
  refine ⟨?_, ?_, hnames ▸ h.uins, hnames ▸ h.subs, hnames ▸ h.numbers⟩
  · rw [hnames, hkeys]
    intro k hk
    rcases List.mem_append.mp hk with hk | hk
    · exact h.owned k hk
    · exact ⟨_, howner, by rw [List.mem_singleton.mp hk]⟩
  · rw [hkeys]
    exact nodup_map_append h.noises hfresh

theorem exists_number_of_issueUin {fails : RegisterStmt → Option String} {draw : ℕ → ℕ}
    (h : issueUin fails draw db = .ok uin) : ∃ k : ℕ, uin = toString k := by
  cases hwidth : settleWidth fails db 6 5 with
  | error e =>
    rw [issueUin, hwidth] at h
    cases h
  | ok width =>
    rw [issueUin_of_settleWidth hwidth] at h
    obtain ⟨-, i, hi⟩ := (drawUin_spec _ 64 0).1 uin h
    exact ⟨_, hi⟩

theorem Registers.sound {result : Except MeshError String} (h : db.Sound)
    (hcall : Registers call a db result db') : db'.Sound := by
  cases hcall with
  | kept hnames hkeys _ =>
    exact ⟨by rw [hnames, hkeys]; exact h.owned, hkeys ▸ h.noises, hnames ▸ h.uins,
      hnames ▸ h.subs, hnames ▸ h.numbers⟩
  | joined hsub hfresh hnames hkeys _ =>
    exact h.addKey a.sub (exists_name_of_identityForSub hsub) hfresh hnames hkeys
  | stranded _ hissued huin hsub hnames hkeys =>
    exact h.addName (exists_number_of_issueUin hissued) huin hsub hnames hkeys
  | @founded uin db' hissued huin hsub hfresh hnames hkeys =>
    -- the store between the two inserts
    let db₁ : Db := { db with identities := db.identities ++ [⟨uin, a.sub, "", 0⟩] }
    have h₁ : db₁.Sound := h.addName (exists_number_of_issueUin hissued) huin hsub
      (List.map_append ..) rfl
    have hnames₁ : db₁.names = db.names ++ [(uin, a.sub)] := List.map_append ..
    refine h₁.addKey a.sub ?_ hfresh (hnames.trans hnames₁.symm) hkeys
    rw [hnames₁]
    exact List.mem_append_right _ List.mem_cons_self

end Calls

def registerAll (parseUuid : String → Option Uuid) (calls : List RegisterCall) : Db :=
  calls.foldl (fun db call => (register parseUuid call db).2) .empty

/-- The identities and devices are those that some registrations have built up, in some
order. -/
def Registered (parseUuid : String → Option Uuid) (db : Db) : Prop :=
  ∃ calls, db.identities.Perm (registerAll parseUuid calls).identities ∧
    db.devices.Perm (registerAll parseUuid calls).devices

/-! ### Runs -/

section Runs

variable {parseUuid : String → Option Uuid} {call : RegisterCall} {db : Db} {uin noise : String}
  {sub : Uuid}

theorem sound_empty : Db.empty.Sound :=
  ⟨by simp [Db.empty, Db.keys], by simp [Db.empty, Db.keys], by simp [Db.empty, Db.names],
    by simp [Db.empty, Db.names], by simp [Db.empty, Db.names]⟩

theorem register_cases (parseUuid : String → Option Uuid) (call : RegisterCall) (h : db.Sound) :
    (∃ e, register parseUuid call db = (.error e, db)) ∨
      ∃ a, call.admitted parseUuid = .ok a ∧
        Registers call a db (register parseUuid call db).1 (register parseUuid call db).2 := by
  cases hadmitted : call.admitted parseUuid with
  | error e => exact .inl ⟨e, by rw [register, hadmitted]⟩
  | ok a =>
    rw [register, hadmitted]
    exact .inr ⟨a, rfl, registers_proceed h⟩

theorem Db.Sound.register (h : db.Sound) (parseUuid : String → Option Uuid)
    (call : RegisterCall) : (Mesh.register parseUuid call db).2.Sound := by
  obtain ⟨e, heq⟩ | ⟨a, -, hcall⟩ := register_cases parseUuid call h
  · rwa [heq]
  · exact hcall.sound h

theorem Registry.of_perm {db' : Db} (h : Registry db)
    (huins : (db'.identities.map Identity.uin).Perm (db.identities.map Identity.uin))
    (hkeys : db'.keys.Perm db.keys) : Registry db' := by
  constructor
  · intro d hd
    obtain ⟨d₀, hd₀, hkey⟩ := List.mem_map.mp (hkeys.mem_iff.mp (List.mem_map_of_mem hd))
    obtain ⟨i₀, hi₀, huin⟩ := h.owned d₀ hd₀
    obtain ⟨i, hi, hi'⟩ := List.mem_map.mp (huins.mem_iff.mpr (List.mem_map_of_mem hi₀))
    exact ⟨i, hi, by rw [hi', huin, (Prod.mk.inj hkey).1]⟩
  · have hnoise := (hkeys.map Prod.snd).nodup_iff
    simp only [Db.keys, List.map_map] at hnoise
    exact hnoise.mpr h.noises
  · intro i hi
    obtain ⟨i₀, hi₀, huin⟩ := List.mem_map.mp (huins.mem_iff.mp (List.mem_map_of_mem hi))
    rw [← huin]
    exact h.numbers i₀ hi₀

theorem Registered.registry (h : Registered parseUuid db) : Registry db := by
  obtain ⟨calls, hidentities, hdevices⟩ := h
  have hall : (registerAll parseUuid calls).Sound :=
    Run.invariant_foldl sound_empty fun db call _ hdb => hdb.register parseUuid call
  exact hall.registry.of_perm (hidentities.map _) (hdevices.map _)

/-- No name and no key is taken back. -/
theorem Registers.subset {a : Admitted} {db' : Db} {result : Except MeshError String}
    (h : Registers call a db result db') : db.names ⊆ db'.names ∧ db.keys ⊆ db'.keys := by
  cases h with
  | kept hnames hkeys _ => simp [hnames, hkeys]
  | joined _ _ hnames hkeys _ => simp [hnames, hkeys]
  | stranded _ _ _ _ hnames hkeys => simp [hnames, hkeys]
  | founded _ _ _ _ hnames hkeys => simp [hnames, hkeys]

theorem deviceOwner_register (h : db.Sound) (howner : db.deviceOwner noise = some (uin, sub)) :
    (register parseUuid call db).2.deviceOwner noise = some (uin, sub) := by
  obtain ⟨e, heq⟩ | ⟨a, -, hcall⟩ := register_cases parseUuid call h
  · rwa [heq]
  · obtain ⟨hk, hn⟩ := h.deviceOwner_eq_some_iff.mp howner
    exact (hcall.sound h).deviceOwner_eq_some_iff.mpr ⟨hcall.subset.2 hk, hcall.subset.1 hn⟩

/-- The device of a call that returns a number has it. -/
theorem deviceOwner_of_register_eq_ok (h : db.Sound) {a : Admitted}
    (ha : call.admitted parseUuid = .ok a) (hok : (register parseUuid call db).1 = .ok uin) :
    (register parseUuid call db).2.deviceOwner a.noise = some (uin, a.sub) := by
  obtain ⟨e, heq⟩ | ⟨a', ha', hcall⟩ := register_cases parseUuid call h
  · rw [heq] at hok
    cases hok
  · cases ha.symm.trans ha'
    have hsound := hcall.sound h
    rw [hsound.deviceOwner_eq_some_iff]
    rw [hok] at hcall
    cases hcall with
    | kept hnames hkeys howner =>
      rw [hnames, hkeys]
      exact h.deviceOwner_eq_some_iff.mp (howner uin rfl)
    | joined hsub _ hnames hkeys hresult =>
      rw [hnames, hkeys, hresult uin rfl]
      exact ⟨List.mem_append_right _ List.mem_cons_self, exists_name_of_identityForSub hsub⟩
    | founded _ _ _ _ hnames hkeys =>
      rw [hnames, hkeys]
      exact ⟨List.mem_append_right _ List.mem_cons_self, List.mem_append_right _ List.mem_cons_self⟩

/-- A call for a device that has a number returns no other one. -/
theorem register_eq_ok_of_deviceOwner {a : Admitted} {uin' : String} (h : db.Sound)
    (ha : call.admitted parseUuid = .ok a) (howner : db.deviceOwner a.noise = some (uin, a.sub))
    (hok : (register parseUuid call db).1 = .ok uin') : uin' = uin := by
  have hnew := deviceOwner_of_register_eq_ok h ha hok
  have hkept : (register parseUuid call db).2.deviceOwner a.noise = some (uin, a.sub) :=
    deviceOwner_register h howner
  exact (Prod.mk.inj (Option.some_inj.mp (hnew.symm.trans hkept))).1

def Db.Peopled (db : Db) : Prop := ∀ i ∈ db.identities, ∃ d ∈ db.devices, d.uin = i.uin

instance (db : Db) : Decidable db.Peopled :=
  inferInstanceAs (Decidable (∀ i ∈ db.identities, ∃ d ∈ db.devices, d.uin = i.uin))

/-- One number for a subscription and for a noise key. -/
structure Db.Single (db : Db) : Prop where
  subs : ∀ i ∈ db.identities, ∀ j ∈ db.identities, i.subscriptionId = j.subscriptionId →
    i.uin = j.uin
  noises : ∀ d ∈ db.devices, ∀ d' ∈ db.devices, d.noisePubkey = d'.noisePubkey → d.uin = d'.uin

theorem Db.Sound.single (h : db.Sound) : db.Single := by
  constructor
  · intro i hi j hj hsub
    have := List.inj_on_of_nodup_map h.subs (List.mem_map_of_mem hi) (List.mem_map_of_mem hj) hsub
    exact (Prod.mk.inj this).1
  · intro d hd d' hd' hnoise
    have := List.inj_on_of_nodup_map h.noises (List.mem_map_of_mem hd) (List.mem_map_of_mem hd')
      hnoise
    exact (Prod.mk.inj this).1

theorem peopled_iff : db.Peopled ↔ ∀ n ∈ db.names, ∃ k ∈ db.keys, k.1 = n.1 := by
  simp [Db.Peopled, Db.names, Db.keys]

/-- A call leaves no identity without a device unless it strands one. -/
theorem Db.Peopled.register (hpeopled : db.Peopled) (h : db.Sound)
    (hcall : ∀ a, call.admitted parseUuid = .ok a → ¬ call.Strands a db) :
    (Mesh.register parseUuid call db).2.Peopled := by
  obtain ⟨e, heq⟩ | ⟨a, ha, hregisters⟩ := register_cases parseUuid call h
  · rwa [heq]
  · generalize Mesh.register parseUuid call db = r at hregisters ⊢
    obtain ⟨result, db'⟩ := r
    rw [peopled_iff] at hpeopled ⊢
    have hkept : ∀ n ∈ db.names, ∃ k ∈ db'.keys, k.1 = n.1 :=
      fun n hn => (hpeopled n hn).imp fun k hk => ⟨hregisters.subset.2 hk.1, hk.2⟩
    cases hregisters with
    | kept hnames _ _ => exact hnames ▸ hkept
    | joined _ _ hnames _ _ => exact hnames ▸ hkept
    | stranded hstrands _ _ _ _ _ => exact absurd hstrands (hcall a ha)
    | founded _ _ _ _ hnames hkeys =>
      rw [hnames]
      intro n hn
      rcases List.mem_append.mp hn with hn | hn
      · exact hkept n hn
      · rw [hkeys, List.mem_singleton.mp hn]
        exact ⟨_, List.mem_append_right _ List.mem_cons_self, rfl⟩

/-- A subscription and a noise key keep to one number, and a device to the number it was told;
and in a run in which no call strands an identity, each has a device. -/
theorem identities_stable (parseUuid : String → Option Uuid) (calls : List RegisterCall) :
    (∀ db ∈ calls.scanl (fun db call => (register parseUuid call db).2) .empty, db.Single) ∧
      (∀ before first between later a a' uin uin',
        calls = before ++ first :: between ++ [later] → first.admitted parseUuid = .ok a →
        later.admitted parseUuid = .ok a' → a.sub = a'.sub → a.noise = a'.noise →
        (register parseUuid first (registerAll parseUuid before)).1 = .ok uin →
        (register parseUuid later
          (registerAll parseUuid (before ++ first :: between))).1 = .ok uin' → uin' = uin) ∧
      (Run.Along (fun db call => (register parseUuid call db).2)
          (fun db call => ∀ a, call.admitted parseUuid = .ok a → ¬ call.Strands a db) .empty calls →
        ∀ db ∈ calls.scanl (fun db call => (register parseUuid call db).2) .empty, db.Peopled) := by
  have hall : ∀ calls, (registerAll parseUuid calls).Sound := fun calls =>
    Run.invariant_foldl sound_empty fun db call _ hdb => hdb.register parseUuid call
  refine ⟨?_, ?_, fun hrun => ?_⟩
  · intro db hdb
    exact (Run.invariant_scanl (fun db call hdb _ => hdb.register parseUuid call) sound_empty
      (Run.along_true _ _) db hdb).single
  · intro before first between later a a' uin uin' _ ha ha' hsub hnoise hfirst hlater
    have howner := deviceOwner_of_register_eq_ok (hall before) ha hfirst
    -- the device keeps its number through the calls in between
    have hkept : (registerAll parseUuid (before ++ first :: between)).deviceOwner a.noise =
        some (uin, a.sub) := by
      rw [registerAll, List.foldl_append]
      exact (Run.invariant_foldl (I := fun db : Db => db.Sound ∧
          db.deviceOwner a.noise = some (uin, a.sub))
        ⟨(hall before).register parseUuid first, howner⟩
        fun db call _ h => ⟨h.1.register parseUuid call, deviceOwner_register h.1 h.2⟩).2
    rw [hnoise, hsub] at hkept
    exact register_eq_ok_of_deviceOwner (hall _) ha' hkept hlater
  · intro db hdb
    exact (Run.invariant_scanl (I := fun db => db.Sound ∧ db.Peopled)
      (fun db call h hcall => ⟨h.1.register parseUuid call, h.2.register h.1 hcall⟩)
      ⟨sound_empty, by simp [Db.Peopled, Db.empty]⟩ hrun db hdb).2

end Runs

/-- Two registrations of one device. -/
theorem identities_stable_sample :
    (∀ db ∈ [sampleRegistration, sampleRegistration].scanl
        (fun db call => (register (fun _ => some 1) call db).2) .empty, db.Peopled) ∧
      ∀ uin, (register (fun _ => some 1) sampleRegistration
        (registerAll (fun _ => some 1) [sampleRegistration])).1 = .ok uin → uin = "10000" := by
  obtain ⟨-, hsame, hpeopled⟩ :=
    identities_stable (fun _ => some 1) [sampleRegistration, sampleRegistration]
  have hadmitted : sampleRegistration.admitted (fun _ => some 1) =
      .ok ⟨1, sampleKey 'c', sampleKey 'd', none⟩ := by decide +kernel
  refine ⟨hpeopled ?_, fun uin hlater => ?_⟩
  · refine Run.along_of_forall (fun call hcall db a _ h => h.fails ?_) _
    simp_all [sampleRegistration]
  · exact hsame [] sampleRegistration [] sampleRegistration _ _ "10000" uin rfl hadmitted hadmitted
      rfl rfl (by decide +kernel) hlater

/-- The second insert of a registration fails, and its identity has no device. -/
theorem not_peopled_of_failed_insert :
    ¬ ∀ db ∈ [{ sampleRegistration with
          fails := fun s => if s = .insertDevice then some "disk full" else none }].scanl
        (fun db call => (register (fun _ => some 1) call db).2) .empty, db.Peopled := by
  intro h
  exact absurd (h _ (List.mem_of_getLast? rfl)) (by decide +kernel)

end Mesh

end Fcore
