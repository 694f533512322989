import Fcore.Lib.Lowercase
import Fcore.Memory.Connection

/-!
# Environments and topics as text

An environment goes over three wires: its `Display` form, which `FromStr` reads; its JSON
form, where a custom name stands without the `custom` marker; and the topic of its updates,
which a node parses and compares with its own environment.

`Display` and the topics lose nothing (`fromStr_asStr`, `Topic.fromStr_updates`), since the
marker keeps the custom names apart from the built-in ones and every name that was read is
in lower case and without a marker of its own. JSON drops the marker, so a custom name comes
back as itself only if it does not read as something else; `Env.Unambiguous` says when.
-/

namespace Fcore

namespace Env

def builtinNames : List String :=
  ["experimental", "exp", "development", "dev", "production", "prod", "ru", "wl", "gaming", "bs",
    "bs-prem", "bsprem"]

def serialize : Env → String
  | production => "production"
  | experimental => "experimental"
  | dev => "dev"
  | ru => "ru"
  | wl => "wl"
  | gaming => "gaming"
  | bs => "bs"
  | bsPrem => "bs-prem"
  | custom name => name

/-- Reading a JSON string: what does not parse is a custom name. -/
def deserialize (lower : String → String) (raw : String) : Except String Env :=
  match fromStr lower raw with
  | .ok env => .ok env
  | .error _ =>
    let trimmed := lower (Text.trim raw)
    if trimmed = "" then .error "empty env"
    else .ok (custom (stripCustomPrefix trimmed))

/-- The environments the program can come by. -/
inductive Obtained (lower : String → String) : Env → Prop
  | fromStr {s : String} {env : Env} (h : fromStr lower s = .ok env) : Obtained lower env
  | deserialize {raw : String} {env : Env} (h : deserialize lower raw = .ok env) :
      Obtained lower env
  | personalFor (subscriptionId : Uuid) : Obtained lower (personalFor subscriptionId)

/-- A custom name that reads back as itself: it is no built-in name, and it is a personal
one or has no white space at its ends and is not empty. -/
def Unambiguous : Env → Prop
  | custom name =>
    name ∉ builtinNames ∧
      (startsWith name "personal" = true ∨ Text.trim name = name ∧ name ≠ "")
  | _ => True

instance decidableUnambiguous : ∀ env, Decidable (Unambiguous env)
  | custom _ => inferInstanceAs (Decidable (_ ∧ _))
  | production | experimental | dev | ru | wl | gaming | bs | bsPrem => instDecidableTrue

end Env

def stripStart (s p : String) : Option String :=
  if startsWith s p then some (String.ofList (s.toList.drop p.length)) else none

namespace Topic

def asStr : Topic → String
  | auth => "auth"
  | metrics => "metrics"
  | entries => "entries"
  | updates env => "updates-" ++ env.asStr
  | init id => "init-" ++ id.toText

/-- Parsing a topic. The parser of identifiers is the argument `parseUuid`. -/
def fromStr (lower : String → String) (parseUuid : String → Option Uuid) (s : String) :
    Except String Topic :=
  let s := lower s
  if s = "auth" then .ok auth
  else if s = "metrics" then .ok metrics
  else if s = "entries" then .ok entries
  else
    match stripStart s "updates-" with
    | some env => (Env.fromStr lower env).map updates
    | none =>
      match stripStart s "init-" with
      | some id =>
        match parseUuid id with
        | some id => .ok (init id)
        | none => .error "Invalid UUID in topic"
      | none => .error ("Unknown topic string: " ++ s)

end Topic

def subscribed (nodeUuid : Uuid) (nodeEnv : Env) (topic : String) : Bool :=
  startsWith topic (Topic.init nodeUuid).asStr || startsWith topic (Topic.updates nodeEnv).asStr

/-- The check of a received topic before its messages are handled. -/
def acceptsTopic (lower : String → String) (parseUuid : String → Option Uuid) (nodeUuid : Uuid)
    (nodeEnv : Env) (topic : String) : Bool :=
  match Topic.fromStr lower parseUuid topic with
  | .ok .auth | .ok .metrics => false
  | .ok (.init id) => id = nodeUuid
  | .ok (.updates env) => env = nodeEnv
  | .ok .entries => true
  | .error _ => false

namespace Env

section Names

theorem stripCustom_of_not {fuel : ℕ} {name : List Char}
    (h : "custom".toList.isPrefixOf name = false) : stripCustom fuel name = name := by
  cases fuel with
  | zero => rfl
  | succ fuel =>
    rw [stripCustom, h]
    rfl

theorem stripCustom_spec {fuel : ℕ} {name : List Char} (hfuel : name.length ≤ fuel) :
    "custom".toList.isPrefixOf (stripCustom fuel name) = false ∧
      stripCustom fuel name <:+ name := by
  induction fuel generalizing name with
  | zero =>
    rw [List.length_eq_zero_iff.mp (Nat.le_zero.mp hfuel)]
    exact ⟨by decide, List.suffix_rfl⟩
  | succ fuel ih =>
    by_cases hmark : "custom".toList.isPrefixOf name = true
    · have hdrop : (name.drop 6).length ≤ fuel := by
        rw [List.length_drop]
        omega
      obtain ⟨hrest, hsuffix⟩ := ih hdrop
      rw [stripCustom, if_pos hmark]
      dsimp only
      split
      · rename_i hempty
        rw [List.isEmpty_iff.mp hempty]
        exact ⟨by decide, List.nil_suffix⟩
      · exact ⟨hrest, hsuffix.trans (List.drop_suffix 6 name)⟩
    · rw [Bool.not_eq_true] at hmark
      rw [stripCustom_of_not hmark]
      exact ⟨hmark, List.suffix_rfl⟩

theorem toList_stripCustomPrefix (s : String) :
    (stripCustomPrefix s).toList = stripCustom s.length s.toList :=
  String.toList_ofList

theorem not_startsWith_stripCustomPrefix (s : String) :
    startsWith (stripCustomPrefix s) "custom" = false := by
  rw [startsWith, toList_stripCustomPrefix]
  exact (stripCustom_spec (String.length_toList (s := s)).le).1

theorem stripCustomPrefix_suffix (s : String) : (stripCustomPrefix s).toList <:+ s.toList := by
  rw [toList_stripCustomPrefix]
  exact (stripCustom_spec (String.length_toList (s := s)).le).2

theorem stripCustomPrefix_of_not {s : String} (h : startsWith s "custom" = false) :
    stripCustomPrefix s = s := by
  rw [stripCustomPrefix, stripCustom_of_not h, String.ofList_toList]

theorem stripCustomPrefix_append {name : String} (h : startsWith name "custom" = false) :
    stripCustomPrefix ("custom" ++ name) = name := by
  have hlength : ("custom" ++ name).length = name.length + 5 + 1 := by
    rw [String.length_append]
    exact Nat.add_comm 6 name.length
  have hmark : "custom".toList.isPrefixOf ("custom" ++ name).toList = true :=
    startsWith_append "custom" name
  have hdrop : ("custom" ++ name).toList.drop 6 = name.toList := by
    rw [String.toList_append]
    rfl
  rw [stripCustomPrefix, hlength, stripCustom, if_pos hmark]
  dsimp only
  rw [hdrop]
  split
  · exact String.ofList_toList
  · rw [stripCustom_of_not h, String.ofList_toList]

end Names

section Reading

variable {lower : String → String} {s : String}

/-- A text reads as a built-in environment if it is one of their names; otherwise its
marker decides. -/
theorem fromStr_cases (lower : String → String) (s : String) :
    (lower s ∈ builtinNames ∧ ∃ env, fromStr lower s = .ok env ∧ env.isFrknShared = true) ∨
      (lower s ∉ builtinNames ∧ fromStr lower s =
        if startsWith (lower s) "custom" then .ok (custom (stripCustomPrefix (lower s)))
        else if startsWith (lower s) "personal" then .ok (custom (lower s))
        else .error "Wrong Env string") := by
  unfold fromStr
  split
  all_goals try exact .inl ⟨by simp [*, builtinNames], _, rfl, rfl⟩
  simp_all [builtinNames]

theorem fromStr_of_notMem_builtinNames (h : lower s ∉ builtinNames) :
    fromStr lower s =
      if startsWith (lower s) "custom" then .ok (custom (stripCustomPrefix (lower s)))
      else if startsWith (lower s) "personal" then .ok (custom (lower s))
      else .error "Wrong Env string" := by
  rcases fromStr_cases lower s with ⟨hname, -⟩ | ⟨-, hread⟩
  · exact absurd hname h
  · exact hread

end Reading

structure NormalName (table : CaseTable) (name : String) : Prop where
  settled : table.Settled name
  unmarked : startsWith name "custom" = false

variable {name : String}

section Wire

variable {table : CaseTable} {env : Env}

theorem normalName_stripCustomPrefix (table : CaseTable) (s : String) :
    NormalName table (stripCustomPrefix (table.toLowercase s)) where
  settled := (CaseTable.settled_toLowercase s).of_sublist (stripCustomPrefix_suffix _).sublist
  unmarked := not_startsWith_stripCustomPrefix _

theorem not_startsWith_custom_of_personal {name : String} (h : startsWith name "personal" = true) :
    startsWith name "custom" = false := by
  obtain ⟨rest, hrest⟩ := List.isPrefixOf_iff_prefix.mp h
  rw [startsWith, ← hrest]
  rfl

theorem normalName_personalFor (table : CaseTable) (id : Uuid) :
    NormalName table ("personal" ++ id.asSimple) where
  settled := by
    refine CaseTable.settled_append.mpr ⟨CaseTable.settled_of_ascii (by decide), ?_⟩
    refine CaseTable.settled_of_ascii (List.all_eq_true.mpr fun c hc => decide_eq_true ?_)
    exact uuidText.simple_lower id c hc
  unmarked := not_startsWith_custom_of_personal (startsWith_append "personal" id.asSimple)

theorem normalName_of_fromStr {s : String} (h : fromStr table.toLowercase s = .ok (custom name)) :
    NormalName table name := by
  rcases fromStr_cases table.toLowercase s with ⟨-, env, hread, hshared⟩ | ⟨-, hread⟩
  · rw [hread] at h
    cases h
    cases hshared
  · rw [hread] at h
    split at h
    · rw [← custom.inj (Except.ok.inj h)]
      exact normalName_stripCustomPrefix table s
    · rename_i hmark
      split at h
      · rw [← custom.inj (Except.ok.inj h)]
        exact ⟨CaseTable.settled_toLowercase s, by simpa using hmark⟩
      · cases h

theorem Obtained.normalName (h : Obtained table.toLowercase (custom name)) :
    NormalName table name := by
  generalize henv : custom name = env at h
  cases h with
  | fromStr h =>
    subst henv
    exact normalName_of_fromStr h
  | deserialize h =>
    subst henv
    unfold Env.deserialize at h
    split at h
    · rename_i hread
      cases h
      exact normalName_of_fromStr hread
    · dsimp only at h
      split at h
      · cases h
      · rw [← custom.inj (Except.ok.inj h)]
        exact normalName_stripCustomPrefix table _
  | personalFor id =>
    rw [custom.inj henv]
    exact normalName_personalFor table id

theorem settled_asStr (h : Obtained table.toLowercase env) : table.Settled env.asStr := by
  cases env with
  | custom name =>
    exact CaseTable.settled_append.mpr
      ⟨CaseTable.settled_of_ascii (by decide), h.normalName.settled⟩
  | _ => exact CaseTable.settled_of_ascii (by decide)

theorem fromStr_asStr (h : Obtained table.toLowercase env) :
    fromStr table.toLowercase env.asStr = .ok env := by
  have hlower := CaseTable.toLowercase_of_settled (settled_asStr h)
  cases env with
  | custom name =>
    have hname : table.toLowercase (custom name).asStr ∉ builtinNames := by
      rw [hlower]
      intro hmem
      have hmark : ∀ s ∈ builtinNames, startsWith s "custom" = false := by decide
      have hfalse := hmark _ hmem
      rw [asStr, startsWith_append] at hfalse
      cases hfalse
    rw [fromStr_of_notMem_builtinNames hname, hlower, asStr, startsWith_append, if_pos rfl,
      stripCustomPrefix_append h.normalName.unmarked]
  | _ =>
    unfold fromStr
    rw [hlower]
    rfl

/-- Reading the JSON form of a custom name gives the name back exactly if it is
unambiguous: any other name parses as a built-in one, or is trimmed, or is empty. -/
theorem deserialize_custom_iff (h : NormalName table name) :
    deserialize table.toLowercase name = .ok (custom name) ↔ Unambiguous (custom name) := by
  have hlower := CaseTable.toLowercase_of_settled h.settled
  unfold deserialize
  rcases fromStr_cases table.toLowercase name with ⟨hname, env, hread, hshared⟩ | ⟨hname, hread⟩
  · rw [hlower] at hname
    rw [hread]
    constructor
    · intro hback
      rw [Except.ok.inj hback] at hshared
      cases hshared
    · intro hun
      exact absurd hname hun.1
  · rw [hlower] at hname hread
    rw [h.unmarked, if_neg Bool.false_ne_true] at hread
    by_cases hpersonal : startsWith name "personal" = true
    · rw [hread, if_pos hpersonal]
      exact iff_of_true rfl ⟨hname, .inl hpersonal⟩
    · rw [hread, if_neg hpersonal]
      dsimp only
      have hsettled : table.Settled (Text.trim name) :=
        h.settled.of_sublist (Text.trim_sublist name)
      rw [CaseTable.toLowercase_of_settled hsettled]
      constructor
      · intro hback
        split at hback
        · cases hback
        · rename_i hne
          have hsuffix := stripCustomPrefix_suffix (Text.trim name)
          rw [custom.inj (Except.ok.inj hback)] at hsuffix
          have htrim : Text.trim name = name :=
            String.toList_inj.mp ((Text.trim_sublist name).antisymm hsuffix.sublist)
          rw [htrim] at hne
          exact ⟨hname, .inr ⟨htrim, hne⟩⟩
      · rintro ⟨-, hpers | ⟨htrim, hne⟩⟩
        · exact absurd hpers hpersonal
        · rw [htrim, if_neg hne, stripCustomPrefix_of_not h.unmarked]

theorem deserialize_serialize_iff (h : Obtained table.toLowercase env) :
    deserialize table.toLowercase env.serialize = .ok env ↔ env.Unambiguous := by
  cases env with
  | custom name => exact deserialize_custom_iff h.normalName
  | _ =>
    refine iff_of_true ?_ trivial
    unfold deserialize
    -- a built-in environment is written in JSON as `Display` writes it
    have hread := fromStr_asStr h
    rw [asStr] at hread
    rw [serialize, hread]

end Wire

end Env

section Topics

variable {table : CaseTable} {parseUuid : String → Option Uuid} {env env' : Env}

theorem stripStart_append (p s : String) : stripStart (p ++ s) p = some s := by
  have hdrop : (p ++ s).toList.drop p.length = s.toList := by
    rw [String.toList_append, ← String.length_toList, List.drop_left]
  rw [stripStart, startsWith_append, if_pos rfl, hdrop, String.ofList_toList]

theorem Topic.fromStr_updates (h : Env.Obtained table.toLowercase env) :
    Topic.fromStr table.toLowercase parseUuid (Topic.updates env).asStr = .ok (.updates env) := by
  have hsettled : table.Settled (Topic.updates env).asStr :=
    CaseTable.settled_append.mpr ⟨CaseTable.settled_of_ascii (by decide), Env.settled_asStr h⟩
  unfold Topic.fromStr
  rw [CaseTable.toLowercase_of_settled hsettled]
  dsimp only
  rw [Topic.asStr, stripStart_append]
  dsimp only
  rw [Env.fromStr_asStr h]
  rfl

/-- A node takes an update for an environment the program came by exactly if it is its
own. -/
theorem receives_updates_iff (h : Env.Obtained table.toLowercase env') (nodeUuid : Uuid) :
    (subscribed nodeUuid env (Topic.updates env').asStr &&
      acceptsTopic table.toLowercase parseUuid nodeUuid env (Topic.updates env').asStr) = true ↔
        env' = env := by
  rw [Bool.and_eq_true, acceptsTopic, Topic.fromStr_updates h]
  rw [decide_eq_true_eq]
  constructor
  · rintro ⟨-, heq⟩
    exact heq
  · rintro rfl
    refine ⟨?_, rfl⟩
    rw [subscribed, Bool.or_eq_true]
    exact .inr (by simp [startsWith])

end Topics

/-- What an environment should keep on every wire. -/
structure SurvivesWire (table : CaseTable) (parseUuid : String → Option Uuid) (env : Env) :
    Prop where
  display : Env.fromStr table.toLowercase env.asStr = .ok env
  json : Env.deserialize table.toLowercase env.serialize = .ok env
  topic : Topic.fromStr table.toLowercase parseUuid (Topic.updates env).asStr = .ok (.updates env)
  updates : ∀ env', Env.Obtained table.toLowercase env' → ∀ nodeUuid,
    (subscribed nodeUuid env (Topic.updates env').asStr &&
      acceptsTopic table.toLowercase parseUuid nodeUuid env (Topic.updates env').asStr) = true ↔
        env' = env

/-- An environment the program comes by survives every wire exactly if it is unambiguous,
and it is only the JSON form that an ambiguous one does not survive. -/
theorem survivesWire_iff (table : CaseTable) (parseUuid : String → Option Uuid) {env : Env}
    (h : Env.Obtained table.toLowercase env) :
    SurvivesWire table parseUuid env ↔ env.Unambiguous := by
  constructor
  · intro hsurvives
    exact (Env.deserialize_serialize_iff h).mp hsurvives.json
  · intro hun
    exact
      { display := Env.fromStr_asStr h
        json := (Env.deserialize_serialize_iff h).mpr hun
        topic := Topic.fromStr_updates h
        updates := fun _ henv' nodeUuid => receives_updates_iff henv' nodeUuid }

/-- The environment `custom_lab`, read in mixed case. -/
theorem survivesWire_lab :
    Env.fromStr CaseTable.ascii.toLowercase "Custom_Lab" = .ok (.custom "_lab") ∧
      SurvivesWire .ascii (fun _ => none) (.custom "_lab") := by
  have hread : Env.fromStr CaseTable.ascii.toLowercase "Custom_Lab" = .ok (.custom "_lab") := by
    decide +kernel
  exact ⟨hread, (survivesWire_iff .ascii (fun _ => none) (.fromStr hread)).mpr (by decide)⟩

/-- The environment read from `customdev` goes into JSON as `dev` and comes back as the
built-in one. -/
theorem customdev_read_back_as_dev :
    Env.Obtained CaseTable.ascii.toLowercase (.custom "dev") ∧
      Env.deserialize CaseTable.ascii.toLowercase (Env.custom "dev").serialize = .ok .dev ∧
      ¬ SurvivesWire .ascii (fun _ => none) (.custom "dev") := by
  have hback : Env.deserialize CaseTable.ascii.toLowercase (Env.custom "dev").serialize =
      .ok .dev := by
    decide +kernel
  refine ⟨.fromStr (s := "customdev") (by decide +kernel), hback, fun h => ?_⟩
  have hjson := h.json
  cases hjson

end Fcore
