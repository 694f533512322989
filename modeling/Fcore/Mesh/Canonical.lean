import Fcore.Mesh.Identity

/-!
# What a signature covers

The signed text of a send has a line with the command, a line with the recipient, a
line with the timestamp, and the ciphertexts from a new line each. Numbers have no
line breaks, so the recipient of a registered request and its timestamp can be read
off the text. A ciphertext may have line breaks, and the device it is for is not in
the text at all: two requests have the same text exactly when they agree in the
recipient, the timestamp and the lines of their ciphertexts.
-/

namespace Fcore

namespace Mesh

def cipherLines (envelopes : List Envelope) : List (List Char) :=
  envelopes.flatMap fun env => Text.lines env.ciphertext.toList

def Envelope.normal (env : Envelope) : String × String :=
  (String.ofList (normalDigits env.devicePubkey), env.ciphertext)

def IsRegistered (parseUuid : String → Option Uuid) (uin : String) : Prop :=
  ∃ db, Registered parseUuid db ∧ db.identityMissing uin = false

theorem IsRegistered.newline_notMem {parseUuid : String → Option Uuid} {uin : String}
    (h : IsRegistered parseUuid uin) : '\n' ∉ uin.toList := by
  obtain ⟨db, hdb, hknown⟩ := h
  simp only [Db.identityMissing, Bool.not_eq_false', List.any_eq_true, beq_iff_eq] at hknown
  obtain ⟨i, hi, rfl⟩ := hknown
  obtain ⟨n, hn⟩ := hdb.registry.numbers i hi
  rw [hn]
  exact Text.notMem_toString_int (by decide) (by decide) n

theorem newline_notMem_ts (ts : Int64) : '\n' ∉ (toString ts).toList :=
  Text.notMem_toString_int (by decide) (by decide) ts.toInt

theorem toString_ts_injective : Function.Injective (toString : Int64 → String) := by
  intro ts ts' h
  exact Int64.toInt_inj.mp (Text.toString_int_injective h)

theorem lines_foldl_ciphertexts (envelopes : List Envelope) (msg : String) :
    Text.lines (envelopes.foldl (fun msg env => msg ++ "\n" ++ env.ciphertext) msg).toList =
      Text.lines msg.toList ++ cipherLines envelopes := by
  induction envelopes generalizing msg with
  | nil => simp [cipherLines]
  | cons env envelopes ih =>
    have hline : (msg ++ "\n" ++ env.ciphertext).toList =
        msg.toList ++ '\n' :: env.ciphertext.toList := by
      simp [String.toList_append]
    rw [List.foldl_cons, ih, hline, Text.lines_append_newline, List.append_assoc]
    rfl

/-- The lines of a text that starts as every signed text does. -/
theorem lines_command {head uin : String} {command : List Char}
    (hhead : head.toList = command ++ ['\n']) (hcommand : '\n' ∉ command)
    (huin : '\n' ∉ uin.toList) (ts : Int64) :
    Text.lines (head ++ uin ++ "\n" ++ toString ts).toList =
      [command, uin.toList, (toString ts).toList] := by
  have htext : (head ++ uin ++ "\n" ++ toString ts).toList =
      command ++ '\n' :: (uin.toList ++ '\n' :: (toString ts).toList) := by
    simp [String.toList_append, hhead]
  rw [htext, Text.lines_append_newline, Text.lines_append_newline, Text.lines_eq_singleton huin,
    Text.lines_eq_singleton (newline_notMem_ts ts), Text.lines_eq_singleton hcommand]
  rfl

theorem lines_sendCanonical {uin : String} (huin : '\n' ∉ uin.toList) (ts : Int64)
    (envelopes : List Envelope) :
    Text.lines (sendCanonical uin ts envelopes).toList =
      "send".toList :: uin.toList :: (toString ts).toList :: cipherLines envelopes := by
  have hcommand : "send\n".toList = "send".toList ++ ['\n'] := by decide
  rw [sendCanonical, lines_foldl_ciphertexts, lines_command hcommand (by decide) huin]
  rfl

theorem sendCanonical_eq_iff {uin uin' : String} (huin : '\n' ∉ uin.toList)
    (huin' : '\n' ∉ uin'.toList) (ts ts' : Int64) (envelopes envelopes' : List Envelope) :
    sendCanonical uin ts envelopes = sendCanonical uin' ts' envelopes' ↔
      uin = uin' ∧ ts = ts' ∧ cipherLines envelopes = cipherLines envelopes' := by
  rw [← String.toList_inj, ← Text.lines_injective.eq_iff, lines_sendCanonical huin,
    lines_sendCanonical huin']
  simp only [List.cons.injEq, true_and, String.toList_inj, toString_ts_injective.eq_iff]

/-- Two sends are the same request, up to the normalization of the keys. -/
def SameSend (uin uin' : String) (ts ts' : Int64) (envelopes envelopes' : List Envelope) : Prop :=
  uin = uin' ∧ ts = ts' ∧ envelopes.map Envelope.normal = envelopes'.map Envelope.normal

/-- A signature verifies for at most one text. -/
def BindsText (verify : String → String → String → Bool) : Prop :=
  ∀ key key' msg msg' sig, verify key msg sig = true → verify key' msg' sig = true → msg = msg'

theorem exists_verify_of_matchDevice {verify : String → String → String → Bool}
    {devices : List (String × String)} {msg sig pk : String}
    (h : matchDevice verify devices msg sig = .ok pk) : ∃ key, verify key msg sig = true := by
  unfold matchDevice at h
  cases hfind : devices.find? fun d => verify d.2 msg sig with
  | none =>
    rw [hfind] at h
    cases h
  | some d =>
    have hd := List.find?_some hfind
    exact ⟨d.2, hd⟩

/-- The signed text of a send determines the request, and with it a signature is accepted
for one request only, exactly when requests to one recipient at one time with the same
lines in their ciphertexts have the same envelopes. -/
theorem sendCanonical_binds_iff {parseUuid : String → Option Uuid} {uin uin' : String}
    (huin : IsRegistered parseUuid uin) (huin' : IsRegistered parseUuid uin') (ts ts' : Int64)
    (envelopes envelopes' : List Envelope) :
    ((sendCanonical uin ts envelopes = sendCanonical uin' ts' envelopes' →
        SameSend uin uin' ts ts' envelopes envelopes') ∧
      ∀ verify, BindsText verify → ∀ devices devices' sig pk pk',
        matchDevice verify devices (sendCanonical uin ts envelopes) sig = .ok pk →
        matchDevice verify devices' (sendCanonical uin' ts' envelopes') sig = .ok pk' →
          SameSend uin uin' ts ts' envelopes envelopes') ↔
      (uin = uin' → ts = ts' → cipherLines envelopes = cipherLines envelopes' →
        envelopes.map Envelope.normal = envelopes'.map Envelope.normal) := by
  have htext := sendCanonical_eq_iff huin.newline_notMem huin'.newline_notMem ts ts' envelopes
    envelopes'
  constructor
  · rintro ⟨hsame, -⟩ heq hts hlines
    exact (hsame (htext.mpr ⟨heq, hts, hlines⟩)).2.2
  · intro hcond
    have hsame : sendCanonical uin ts envelopes = sendCanonical uin' ts' envelopes' →
        SameSend uin uin' ts ts' envelopes envelopes' := by
      intro h
      obtain ⟨heq, hts, hlines⟩ := htext.mp h
      exact ⟨heq, hts, hcond heq hts hlines⟩
    refine ⟨hsame, ?_⟩
    intro verify hbinds devices devices' sig pk pk' haccepted haccepted'
    obtain ⟨key, hkey⟩ := exists_verify_of_matchDevice haccepted
    obtain ⟨key', hkey'⟩ := exists_verify_of_matchDevice haccepted'
    exact hsame (hbinds key key' _ _ sig hkey hkey')

theorem isRegistered_sample : IsRegistered (fun _ => some 1) "10000" := by
  refine ⟨registerAll (fun _ => some 1) [sampleRegistration], ⟨[sampleRegistration], .refl _,
    .refl _⟩, ?_⟩
  decide +kernel

/-- Two requests that differ in a ciphertext of one line are told apart. -/
theorem sendCanonical_binds_one_line :
    IsRegistered (fun _ => some 1) "10000" ∧
      (sendCanonical "10000" 1000 [⟨sampleKey 'c', "x"⟩] =
          sendCanonical "10000" 1000 [⟨sampleKey 'c', "y"⟩] →
        SameSend "10000" "10000" 1000 1000 [⟨sampleKey 'c', "x"⟩] [⟨sampleKey 'c', "y"⟩]) := by
  refine ⟨isRegistered_sample, ((sendCanonical_binds_iff isRegistered_sample isRegistered_sample
    1000 1000 [⟨sampleKey 'c', "x"⟩] [⟨sampleKey 'c', "y"⟩]).mpr ?_).1⟩
  intro _ _ hlines
  exact absurd hlines (by decide +kernel)

/-- The same ciphertext for another device of the recipient: the signed text is the
same. -/
theorem not_sendCanonical_binds_device :
    IsRegistered (fun _ => some 1) "10000" ∧
      ¬ (sendCanonical "10000" 1000 [⟨sampleKey 'c', "x"⟩] =
          sendCanonical "10000" 1000 [⟨sampleKey 'e', "x"⟩] →
        SameSend "10000" "10000" 1000 1000 [⟨sampleKey 'c', "x"⟩] [⟨sampleKey 'e', "x"⟩]) := by
  refine ⟨isRegistered_sample, fun h => ?_⟩
  have hnormal := (h rfl).2.2
  exact absurd hnormal (by decide +kernel)

/-! ### The kinds of requests -/

def nameCanonical (uin : String) (ts : Int64) (name : String) : String :=
  "name\n" ++ uin ++ "\n" ++ toString ts ++ "\n" ++ name

inductive Command where
  | send
  | pull
  | poll
  | name
  deriving DecidableEq, Repr

def Command.text : Command → String
  | send => "send"
  | pull => "pull"
  | poll => "poll"
  | name => "name"

/-- A request, with its recipient where it is a send. -/
inductive SignedRequest where
  | send (toUin : String) (ts : Int64) (envelopes : List Envelope)
  | pull (uin : String) (ts : Int64)
  | poll (uin : String) (ts : Int64)
  | name (uin : String) (ts : Int64) (newName : String)

namespace SignedRequest

def canonical : SignedRequest → String
  | send toUin ts envelopes => sendCanonical toUin ts envelopes
  | pull uin ts => pullCanonical uin ts
  | poll uin ts => pollCanonical uin ts
  | name uin ts newName => nameCanonical uin ts newName

def command : SignedRequest → Command
  | send _ _ _ => .send
  | pull _ _ => .pull
  | poll _ _ => .poll
  | name _ _ _ => .name

def uin : SignedRequest → String
  | send uin _ _ | pull uin _ | poll uin _ | name uin _ _ => uin

def ts : SignedRequest → Int64
  | send _ ts _ | pull _ ts | poll _ ts | name _ ts _ => ts

def newName : SignedRequest → Option String
  | name _ _ newName => some newName
  | _ => none

/-- The lines after the timestamp. -/
def body : SignedRequest → List (List Char)
  | send _ _ envelopes => cipherLines envelopes
  | pull _ _ | poll _ _ => []
  | name _ _ newName => [newName.toList]

/-- The number is a registered one, and a name has passed its check. -/
structure Proper (parseUuid : String → Option Uuid) (r : SignedRequest) : Prop where
  registered : IsRegistered parseUuid r.uin
  clean : ∀ name ∈ r.newName, cleanName name = .ok name

variable {parseUuid : String → Option Uuid} {r r' : SignedRequest}

theorem newline_notMem_of_cleanName {name : String} (h : cleanName name = .ok name) :
    '\n' ∉ name.toList := by
  intro hmem
  have hcontrol : name.toList.any isControl = true := List.any_eq_true.mpr ⟨'\n', hmem, by decide⟩
  rw [cleanName, hcontrol, Bool.or_true] at h
  cases h

theorem lines_canonical (h : r.Proper parseUuid) :
    Text.lines r.canonical.toList =
      r.command.text.toList :: r.uin.toList :: (toString r.ts).toList :: r.body := by
  have huin := h.registered.newline_notMem
  have hheads : "pull\n".toList = "pull".toList ++ ['\n'] ∧
      "poll\n".toList = "poll".toList ++ ['\n'] ∧ "name\n".toList = "name".toList ++ ['\n'] := by
    decide
  cases r with
  | send toUin ts envelopes => exact lines_sendCanonical huin ts envelopes
  | pull uin ts => exact lines_command hheads.1 (by decide) huin ts
  | poll uin ts => exact lines_command hheads.2.1 (by decide) huin ts
  | name uin ts newName =>
    have hname := newline_notMem_of_cleanName (h.clean newName rfl)
    have hlines := lines_command hheads.2.2 (by decide) huin ts
    have htext : (nameCanonical uin ts newName).toList =
        ("name\n" ++ uin ++ "\n" ++ toString ts).toList ++ '\n' :: newName.toList := by
      simp [nameCanonical, String.toList_append]
    rw [canonical, htext, Text.lines_append_newline, Text.lines_eq_singleton hname]
    exact congrArg (· ++ [newName.toList]) hlines

/-- The signed text tells the kind of the request, whom it speaks for or to, its time and a new
name. -/
theorem canonical_separates (parseUuid : String → Option Uuid) (r r' : SignedRequest)
    (hr : r.Proper parseUuid) (hr' : r'.Proper parseUuid) (h : r.canonical = r'.canonical) :
    r.command = r'.command ∧ r.uin = r'.uin ∧ r.ts = r'.ts ∧ r.newName = r'.newName := by
  have hlines := congrArg (fun text : String => Text.lines text.toList) h
  simp only [lines_canonical hr, lines_canonical hr', List.cons.injEq, String.toList_inj] at hlines
  obtain ⟨hcommand, huin, hts, hbody⟩ := hlines
  have hkind : r.command = r'.command := by
    revert hcommand
    cases r.command <;> cases r'.command <;> decide
  refine ⟨hkind, huin, toString_ts_injective hts, ?_⟩
  cases r <;> cases r' <;> first | rfl | cases hkind
  · exact congrArg some (String.toList_inj.mp (List.cons.inj hbody).1)

theorem canonical_separates_sample :
    (pull "10000" 5).canonical ≠ (poll "10000" 5).canonical := by
  intro h
  have hsample : ∀ r : SignedRequest, r.uin = "10000" → r.newName = none →
      r.Proper fun _ => some 1 :=
    fun r huin hname => ⟨huin ▸ isRegistered_sample, by simp [hname]⟩
  have hkind := (canonical_separates _ _ _ (hsample _ rfl rfl) (hsample _ rfl rfl) h).1
  cases hkind

end SignedRequest

end Mesh

end Fcore
