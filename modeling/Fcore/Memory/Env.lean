import Fcore.Lib.Text

/-!
# Identifiers, instants and environments

An environment is the tenant boundary of the control plane: a node is
registered in one, a connection belongs to one, and nothing of one environment
should reach the nodes of another. The built-in environments are shared; a
`personal` environment belongs to a single subscription and a `premium` one to
a single account.

Identifiers are 128-bit words and instants are integers counting nanoseconds
since the Unix epoch, so the order of instants is the order of integers.
-/

namespace Fcore

abbrev Uuid := BitVec 128

abbrev DateTime := Int

namespace Uuid

def hexDigit (id : Uuid) (i : ℕ) : Char :=
  Nat.digitChar (id.toNat / 16 ^ (31 - i) % 16)

def hexDigits (id : Uuid) : List Char := (List.range 32).map id.hexDigit

theorem eq_of_hex_digits {n a b : ℕ} (ha : a < 16 ^ n) (hb : b < 16 ^ n)
    (h : ∀ i < n, a / 16 ^ i % 16 = b / 16 ^ i % 16) : a = b := by
  induction n generalizing a b with
  | zero => omega
  | succ n ih =>
    have hlow : a % 16 = b % 16 := by simpa using h 0 n.succ_pos
    have hhigh : a / 16 = b / 16 := by
      apply ih
      · exact Nat.div_lt_of_lt_mul (by rwa [pow_succ'] at ha)
      · exact Nat.div_lt_of_lt_mul (by rwa [pow_succ'] at hb)
      · intro i hi
        rw [Nat.div_div_eq_div_mul, Nat.div_div_eq_div_mul, ← pow_succ']
        exact h (i + 1) (Nat.succ_lt_succ hi)
    omega

theorem digitChar_injOn : ∀ c < 16, ∀ d < 16, Nat.digitChar c = Nat.digitChar d → c = d := by
  decide

theorem hexDigits_injective : Function.Injective hexDigits := by
  intro id id' h
  have hdigits : ∀ i < 32, id.hexDigit i = id'.hexDigit i := by
    simpa [hexDigits] using h
  apply BitVec.eq_of_toNat_eq
  apply eq_of_hex_digits (n := 32) id.isLt id'.isLt
  intro i hi
  have := hdigits (31 - i) (by omega)
  rw [hexDigit, hexDigit, Nat.sub_sub_self (by omega)] at this
  exact digitChar_injOn _ (Nat.mod_lt _ (by decide)) _ (Nat.mod_lt _ (by decide)) this

theorem lower_of_mem_hexDigits {id : Uuid} {c : Char} (h : c ∈ id.hexDigits) :
    c.toNat < 128 ∧ c.toLower = c := by
  have hdigit : ∀ d < 16, (Nat.digitChar d).toNat < 128 ∧
      (Nat.digitChar d).toLower = Nat.digitChar d := by decide
  obtain ⟨i, -, rfl⟩ := List.mem_map.mp h
  exact hdigit _ (Nat.mod_lt _ (by decide))

end Uuid

/-- The texts of identifiers, and what the proofs use of them: the plain form tells
identifiers apart and is in lower case, and the hyphenated form has 36 characters. -/
structure UuidText where
  simple : Uuid → String
  hyphenated : Uuid → String
  simple_injective : Function.Injective simple
  simple_lower : ∀ id, ∀ c ∈ (simple id).toList, c.toNat < 128 ∧ c.toLower = c
  length_hyphenated : ∀ id, (hyphenated id).toList.length = 36

/-- The texts of the `uuid` crate. The groups have 8, 4, 4, 4 and 12 digits. -/
def uuidText : UuidText where
  simple id := String.ofList id.hexDigits
  hyphenated id := String.ofList (id.hexDigits.take 8 ++ ['-'] ++ (id.hexDigits.drop 8).take 4 ++
    ['-'] ++ (id.hexDigits.drop 12).take 4 ++ ['-'] ++ (id.hexDigits.drop 16).take 4 ++ ['-'] ++
    id.hexDigits.drop 20)
  simple_injective id id' h := Uuid.hexDigits_injective (String.ofList_injective h)
  simple_lower id c h := Uuid.lower_of_mem_hexDigits (String.toList_ofList ▸ h)
  length_hyphenated id := by simp [Uuid.hexDigits]

def Uuid.asSimple (id : Uuid) : String := uuidText.simple id

def Uuid.toText (id : Uuid) : String := uuidText.hyphenated id

def getUuidLastOctetSimple (id : Uuid) : String := String.ofList (id.toText.toList.drop 24)

inductive Env where
  | production
  | experimental
  | dev
  | ru
  | wl
  | gaming
  | bs
  | bsPrem
  | custom (name : String)
  deriving DecidableEq, Repr

namespace Env

/-- The text of an environment, which is also its column value and its topic
name. -/
def asStr : Env → String
  | dev => "dev"
  | ru => "ru"
  | wl => "wl"
  | gaming => "gaming"
  | bs => "bs"
  | bsPrem => "bs-prem"
  | experimental => "experimental"
  | production => "production"
  | custom name => "custom" ++ name

def personalFor (subscriptionId : Uuid) : Env :=
  custom ("personal" ++ subscriptionId.asSimple)

def isPersonal : Env → Bool
  | custom name => startsWith name "personal"
  | _ => false

def isPremium : Env → Bool
  | custom name => startsWith name "premium"
  | _ => false

def isFrknShared : Env → Bool
  | custom _ => false
  | _ => true

/-- Strip every leading `custom` marker. The fuel is the length of the text. -/
def stripCustom : ℕ → List Char → List Char
  | 0, name => name
  | fuel + 1, name =>
    if "custom".toList.isPrefixOf name then
      let rest := name.drop 6
      if rest.isEmpty then rest else stripCustom fuel rest
    else name

def stripCustomPrefix (s : String) : String :=
  String.ofList (stripCustom s.length s.toList)

/-- Parsing ignores case. The lower-case mapping of the standard library is the
argument `lower`. -/
def fromStr (lower : String → String) (s : String) : Except String Env :=
  match lower s with
  | "experimental" | "exp" => .ok experimental
  | "development" | "dev" => .ok dev
  | "production" | "prod" => .ok production
  | "ru" => .ok ru
  | "wl" => .ok wl
  | "gaming" => .ok gaming
  | "bs" => .ok bs
  | "bs-prem" | "bsprem" => .ok bsPrem
  | name =>
    if startsWith name "custom" then .ok (custom (stripCustomPrefix name))
    else if startsWith name "personal" then .ok (custom name)
    else .error "Wrong Env string"

/-- A stored text that does not parse reads as the default environment. -/
def ofStored (lower : String → String) (s : String) : Env :=
  match fromStr lower s with
  | .ok env => env
  | .error _ => experimental

theorem startsWith_asStr_custom (e : Env) :
    startsWith e.asStr "custom" = true ↔ ∃ name, e = custom name := by
  cases e with
  | custom name => simp [asStr, startsWith_append]
  | _ => simp [asStr, startsWith]

/-- The column value determines the environment: no built-in name begins with
the marker of the custom ones. -/
theorem asStr_injective : Function.Injective asStr := by
  intro e e' h
  by_cases hc : ∃ name, e = custom name
  · obtain ⟨name, rfl⟩ := hc
    obtain ⟨name', rfl⟩ := (startsWith_asStr_custom e').mp
      (h ▸ (startsWith_asStr_custom (custom name)).mpr ⟨name, rfl⟩)
    simpa [asStr] using h
  · have hc' : ¬ ∃ name, e' = custom name := by
      rwa [← startsWith_asStr_custom, ← h, startsWith_asStr_custom]
    cases e <;> cases e' <;> simp_all [asStr]

theorem personalFor_injective : Function.Injective personalFor := by
  intro id id' h
  have htext : "personal" ++ id.asSimple = "personal" ++ id'.asSimple := custom.inj h
  have hsimple : id.asSimple = id'.asSimple := by simpa using htext
  exact uuidText.simple_injective hsimple

end Env

end Fcore
