import Fcore.Handlers.ShareFeed.Access
import Fcore.Lib.Base32
import Fcore.Lib.Lowercase
import Mathlib.Data.String.Basic

/-!
# Retyping a share token

A share token is shown in groups and typed by hand. Both normalizers read a text character by
character: separators are left out, and every other character is replaced by one that all its
spellings share. The texts they accept are the tokens in their stored form, and these are left
as they are.
-/

namespace Fcore

def crockford : Base32.Alphabet where
  char d := "0123456789ABCDEFGHJKMNPQRSTVWXYZ".toList.getD d.toNat ' '
  injective := by
    intro d d'
    revert d d'
    decide

/-- The token of ten random bytes. -/
def generateShareToken (buf : Vector UInt8 10) : String :=
  String.ofList ((crockford.encode buf.toList).map Char.toLower)

def isSeparator (c : Char) : Bool := Text.isWhitespace c || decide (c = '-')

/-- Stored are sixteen characters of the alphabet or thirty-two hexadecimal digits, in lower
case. -/
def StoredToken (token : String) : Prop :=
  token.toList.length = tokenLen ∧ (∀ c ∈ token.toList, c ∈ tokenAlphabet.toList) ∨
    token.toList.length = uuidTokenLen ∧ ∀ c ∈ token.toList, c ∈ "0123456789abcdef".toList

instance (token : String) : Decidable (StoredToken token) :=
  decidable_of_iff (token.toList.length = tokenLen ∧
      token.toList.all (· ∈ tokenAlphabet.toList) ∨
    token.toList.length = uuidTokenLen ∧ token.toList.all (· ∈ "0123456789abcdef".toList))
    (by simp only [StoredToken, List.all_eq_true, decide_eq_true_eq])

/-- A character may be typed in another case, and a zero or a one as a letter like it. -/
def Spells (c d : Char) : Prop :=
  d.toLower = c.toLower ∨ c = '0' ∧ d ∈ ['o', 'O'] ∨ c = '1' ∧ d ∈ ['i', 'I', 'l', 'L']

/-- The second text is the first one typed again, with other separators. -/
inductive Retyped : List Char → List Char → Prop
  | nil : Retyped [] []
  | insert {c : Char} {text typed : List Char} :
    isSeparator c = true → Retyped text typed → Retyped text (c :: typed)
  | remove {c : Char} {text typed : List Char} :
    isSeparator c = true → Retyped text typed → Retyped (c :: text) typed
  | char {c d : Char} {text typed : List Char} :
    Spells c d → Retyped text typed → Retyped (c :: text) (d :: typed)

theorem Retyped.refl (text : List Char) : Retyped text text := by
  induction text with
  | nil => exact .nil
  | cons c text ih => exact .char (.inl rfl) ih

/-- What the feed route reads a character as. -/
def unambiguous (c : Char) : Char :=
  match c.toLower with
  | 'o' => '0'
  | 'i' | 'l' => '1'
  | c => c

/-- The characters of a text without its separators, each read by `f`. -/
def contiguous (f : Char → Char) (text : List Char) : List Char :=
  (text.filter fun c => !isSeparator c).map f

section Characters

variable {c d : Char}

theorem unambiguous_cases (c : Char) :
    unambiguous c = c.toLower ∨ (unambiguous c = '0' ∨ unambiguous c = '1') ∧
      c.toLower ∈ ['o', 'i', 'l'] := by
  unfold unambiguous
  split
  case h_1 h => exact .inr ⟨.inl rfl, by rw [h]; decide⟩
  case h_2 h => exact .inr ⟨.inr rfl, by rw [h]; decide⟩
  case h_3 h => exact .inr ⟨.inr rfl, by rw [h]; decide⟩
  case h_4 => exact .inl rfl

theorem toLower_unambiguous (c : Char) : (unambiguous c).toLower = unambiguous c := by
  obtain h | ⟨h | h, -⟩ := unambiguous_cases c <;> rw [h]
  · exact CaseTable.toLower_toLower_char c
  · rfl
  · rfl

theorem unambiguous_congr (h : d.toLower = c.toLower) : unambiguous d = unambiguous c := by
  rw [unambiguous, unambiguous, h]

theorem Spells.unambiguous (h : Spells c d) : unambiguous d = unambiguous c := by
  obtain h | ⟨rfl, h⟩ | ⟨rfl, h⟩ := h
  · exact unambiguous_congr h
  · simp only [List.mem_cons, List.not_mem_nil, or_false] at h
    obtain rfl | rfl := h <;> rfl
  · simp only [List.mem_cons, List.not_mem_nil, or_false] at h
    obtain rfl | rfl | rfl | rfl := h <;> rfl

theorem isSeparator_eq_false (h : 65 ≤ c.toNat ∧ c.toNat ≤ 122) : isSeparator c = false := by
  have hhyphen : c ≠ '-' := by
    rintro rfl
    revert h
    decide
  rw [isSeparator, decide_eq_false hhyphen, Bool.or_false]
  simp only [Text.isWhitespace, Bool.or_eq_false_iff, decide_eq_false_iff_not]
  omega

theorem isSeparator_toLower (c : Char) : isSeparator c.toLower = isSeparator c := by
  by_cases h : 65 ≤ c.toNat ∧ c.toNat ≤ 90
  · have hvalue := CaseTable.toNat_toLower c
    rw [if_pos h] at hvalue
    rw [isSeparator_eq_false (by omega), isSeparator_eq_false (by omega)]
  · have : c.toLower = c := Char.toNat_inj.mp (by rw [CaseTable.toNat_toLower, if_neg h])
    rw [this]

theorem isSeparator_unambiguous (c : Char) : isSeparator (unambiguous c) = isSeparator c := by
  rw [← isSeparator_toLower c]
  obtain h | ⟨hdigit, hletter⟩ := unambiguous_cases c
  · rw [h]
  · simp only [List.mem_cons, List.not_mem_nil, or_false] at hletter
    obtain h | h := hdigit <;> rw [h] <;> obtain h | h | h := hletter <;> rw [h] <;> rfl

theorem Spells.isSeparator (h : Spells c d) : isSeparator d = isSeparator c := by
  rw [← isSeparator_unambiguous, h.unambiguous, isSeparator_unambiguous]

/-- A stored character is read as itself. -/
theorem fixed_of_stored (h : c ∈ tokenAlphabet.toList ∨ c ∈ "0123456789abcdef".toList) :
    isSeparator c = false ∧ c.toLower = c ∧ unambiguous c = c ∧ c.utf8Size = 1 := by
  have hall : List.Forall (fun c => isSeparator c = false ∧ c.toLower = c ∧ unambiguous c = c ∧
      c.utf8Size = 1) (tokenAlphabet.toList ++ "0123456789abcdef".toList) := by
    decide
  exact List.forall_iff_forall_mem.mp hall c (List.mem_append.mpr h)

theorem mem_hexDigits_iff :
    c ∈ "0123456789abcdef".toList ↔ isAsciiHexdigit c = true ∧ c.toLower = c := by
  constructor
  · have hall : List.Forall (fun c => isAsciiHexdigit c = true ∧ c.toLower = c)
        "0123456789abcdef".toList := by
      decide
    exact List.forall_iff_forall_mem.mp hall c
  · rintro ⟨h, hlower⟩
    have hbound : c.toNat < 128 := by
      simp only [isAsciiHexdigit, Char.isDigit, Bool.or_eq_true, Bool.and_eq_true,
        decide_eq_true_eq] at h
      obtain (⟨-, h⟩ | ⟨-, h⟩) | ⟨-, h⟩ := h <;>
        exact lt_of_le_of_lt (show c.toNat ≤ _ from h) (by decide)
    have hall : ∀ n < 128, isAsciiHexdigit (Char.ofNat n) = true →
        (Char.ofNat n).toLower = Char.ofNat n → Char.ofNat n ∈ "0123456789abcdef".toList := by
      decide
    rw [← Char.ofNat_toNat c] at h hlower ⊢
    exact hall _ hbound h hlower

end Characters

section Normalize

variable {raw token : String} {f : Char → Char}

theorem StoredToken.stored (h : StoredToken token) :
    ∀ c ∈ token.toList, c ∈ tokenAlphabet.toList ∨ c ∈ "0123456789abcdef".toList := by
  obtain ⟨-, h⟩ | ⟨-, h⟩ := h
  · exact fun c hc => .inl (h c hc)
  · exact fun c hc => .inr (h c hc)

theorem contiguous_of_stored (h : ∀ c ∈ token.toList, isSeparator c = false ∧ f c = c) :
    contiguous f token.toList = token.toList := by
  have hkept : token.toList.filter (fun c => !isSeparator c) = token.toList :=
    List.filter_eq_self.mpr fun c hc => by simp [(h c hc).1]
  rw [contiguous, hkept]
  exact (List.map_congr_left fun c hc => (h c hc).2).trans (List.map_id _)

theorem utf8ByteSize_of_stored
    (h : ∀ c ∈ token.toList, c ∈ tokenAlphabet.toList ∨ c ∈ "0123456789abcdef".toList) :
    token.utf8ByteSize = token.toList.length := by
  rw [← String.utf8Len_toList]
  generalize token.toList = text at h
  induction text with
  | nil => rfl
  | cons c text ih =>
    obtain ⟨hc, h⟩ := List.forall_mem_cons.mp h
    rw [String.utf8Len_cons, ih h, (fixed_of_stored hc).2.2.2, List.length_cons]

/-- For a text in lower case, the two formats are the stored ones. -/
theorem accepted_iff (hlower : ∀ c ∈ token.toList, c.toLower = c) :
    (decide (token.utf8ByteSize = tokenLen) && token.toList.all tokenAlphabet.toList.contains ||
      decide (token.utf8ByteSize = uuidTokenLen) && token.toList.all isAsciiHexdigit) = true ↔
      StoredToken token := by
  have hhex : (∀ c ∈ token.toList, isAsciiHexdigit c = true) ↔
      ∀ c ∈ token.toList, c ∈ "0123456789abcdef".toList :=
    forall₂_congr fun c hc => by rw [mem_hexDigits_iff, and_iff_left (hlower c hc)]
  simp only [Bool.or_eq_true, Bool.and_eq_true, decide_eq_true_eq, List.all_eq_true,
    List.contains_iff_mem, hhex, StoredToken]
  refine or_congr (and_congr_left fun h => ?_) (and_congr_left fun h => ?_)
  · rw [utf8ByteSize_of_stored fun c hc => .inl (h c hc)]
  · rw [utf8ByteSize_of_stored fun c hc => .inr (h c hc)]

theorem normalizeShareToken_eq_some_iff :
    normalizeShareToken raw = some token ↔
      token.toList = contiguous Char.toLower raw.toList ∧ StoredToken token := by
  have hkept : (fun c => !Text.isWhitespace c && decide (c ≠ '-')) =
      fun c => !isSeparator c := by
    funext c
    rw [isSeparator, Bool.not_or, decide_not]
  have hlower : ∀ c ∈ (String.ofList (contiguous Char.toLower raw.toList)).toList,
      c.toLower = c := by
    rw [String.toList_ofList]
    intro c hc
    obtain ⟨d, -, rfl⟩ := List.mem_map.mp hc
    exact CaseTable.toLower_toLower_char d
  rw [normalizeShareToken, hkept, ← contiguous, Option.ite_none_right_eq_some,
    accepted_iff hlower, Option.some_inj]
  constructor
  · rintro ⟨hstored, rfl⟩
    exact ⟨String.toList_ofList, hstored⟩
  · rintro ⟨htext, hstored⟩
    rw [← htext, String.ofList_toList]
    exact ⟨hstored, rfl⟩

theorem normalizeShareFeedToken_eq_some_iff :
    normalizeShareFeedToken raw = some token ↔
      token.toList = contiguous unambiguous raw.toList ∧ StoredToken token := by
  have htext : contiguous Char.toLower (raw.toList.map unambiguous) =
      contiguous unambiguous raw.toList := by
    simp [contiguous, List.filter_map, Function.comp_def, isSeparator_unambiguous,
      toLower_unambiguous]
  rw [← htext, ← String.toList_ofList (l := raw.toList.map unambiguous)]
  exact normalizeShareToken_eq_some_iff

theorem Retyped.contiguous {text typed : List Char} (h : Retyped text typed) :
    contiguous unambiguous typed = contiguous unambiguous text := by
  induction h with
  | nil => rfl
  | insert hsep _ ih => rw [← ih]; simp [Fcore.contiguous, hsep]
  | remove hsep _ ih => rw [ih]; simp [Fcore.contiguous, hsep]
  | char hspells _ ih =>
    have hsep := hspells.isSeparator
    simp only [Fcore.contiguous, List.filter_cons, hsep] at ih ⊢
    split
    · rw [List.map_cons, List.map_cons, ih, hspells.unambiguous]
    · exact ih

theorem contiguous_groupedToken (f : Char → Char) (token : String) :
    contiguous f (groupedToken token).toList = contiguous f token.toList := by
  rw [contiguous, contiguous, groupedToken, Base32.filter_intercalate, Base32.flatten_toChunks]
  exact List.forall_iff_forall_mem.mp (by decide)

theorem storedToken_generateShareToken (buf : Vector UInt8 10) :
    StoredToken (generateShareToken buf) := by
  refine .inl ⟨?_, ?_⟩
  · simp [generateShareToken, Base32.Alphabet.length_encode, tokenLen]
  · rw [generateShareToken, String.toList_ofList, Base32.Alphabet.encode, List.map_map]
    intro c hc
    obtain ⟨d, -, rfl⟩ := List.mem_map.mp hc
    clear hc
    revert d
    decide

/-- Both normalizers leave a stored token as it is. -/
theorem StoredToken.normalize (h : StoredToken token) :
    normalizeShareToken token = some token ∧ normalizeShareFeedToken token = some token := by
  have hfixed := fun c hc => fixed_of_stored (h.stored c hc)
  rw [normalizeShareToken_eq_some_iff, normalizeShareFeedToken_eq_some_iff]
  refine ⟨⟨?_, h⟩, ?_, h⟩
  · exact (contiguous_of_stored fun c hc => ⟨(hfixed c hc).1, (hfixed c hc).2.1⟩).symm
  · exact (contiguous_of_stored fun c hc => ⟨(hfixed c hc).1, (hfixed c hc).2.2.1⟩).symm

/-- What the stricter normalizer accepts has no ambiguous letter. -/
theorem normalizeShareFeedToken_of_normalizeShareToken
    (h : normalizeShareToken raw = some token) : normalizeShareFeedToken raw = some token := by
  obtain ⟨htext, hstored⟩ := normalizeShareToken_eq_some_iff.mp h
  refine normalizeShareFeedToken_eq_some_iff.mpr ⟨?_, hstored⟩
  rw [htext]
  refine List.map_congr_left fun c hc => ?_
  have hmem : c.toLower ∈ token.toList := by
    rw [htext]
    exact List.mem_map_of_mem hc
  have hfixed := (fixed_of_stored (hstored.stored _ hmem)).2.2.1
  rw [← hfixed, unambiguous_congr (CaseTable.toLower_toLower_char c)]

theorem normalizeShareFeedToken_of_mem {n : String → Option String}
    (hn : n ∈ [normalizeShareToken, normalizeShareFeedToken]) (h : n raw = some token) :
    normalizeShareFeedToken raw = some token := by
  simp only [List.mem_cons, List.not_mem_nil, or_false] at hn
  obtain rfl | rfl := hn
  · exact normalizeShareFeedToken_of_normalizeShareToken h
  · exact h

end Normalize

/-- Tokens survive retyping, and no text is read as two tokens. -/
theorem shareToken_retyped :
    (∀ (buf : Vector UInt8 10) (s : String),
      Retyped (groupedToken (generateShareToken buf)).toList s.toList →
        normalizeShareFeedToken s = some (generateShareToken buf)) ∧
      (∀ n ∈ [normalizeShareToken, normalizeShareFeedToken], ∀ s t, n s = some t → n t = some t) ∧
      ∀ n ∈ [normalizeShareToken, normalizeShareFeedToken],
        ∀ n' ∈ [normalizeShareToken, normalizeShareFeedToken],
        ∀ t t', StoredToken t → StoredToken t' → t ≠ t' →
          (∀ s, ¬ (n s = some t ∧ n' s = some t')) ∧ n t ≠ some t' ∧ n t' ≠ some t := by
  refine ⟨?_, ?_, ?_⟩
  · intro buf s h
    have hstored := storedToken_generateShareToken buf
    have htoken := normalizeShareFeedToken_eq_some_iff.mp hstored.normalize.2
    refine normalizeShareFeedToken_eq_some_iff.mpr ⟨?_, hstored⟩
    rw [h.contiguous, contiguous_groupedToken]
    exact htoken.1
  · intro n hn s t h
    have hstored := (normalizeShareFeedToken_eq_some_iff.mp
      (normalizeShareFeedToken_of_mem hn h)).2
    simp only [List.mem_cons, List.not_mem_nil, or_false] at hn
    obtain rfl | rfl := hn
    · exact hstored.normalize.1
    · exact hstored.normalize.2
  · intro n hn n' hn' t t' ht ht' hne
    have hread : ∀ m ∈ [normalizeShareToken, normalizeShareFeedToken], ∀ {a b : String},
        StoredToken a → m a = some b → a = b := by
      intro m hm a b ha h
      have := (normalizeShareFeedToken_of_mem hm h).symm.trans ha.normalize.2
      exact (Option.some_inj.mp this).symm
    refine ⟨?_, fun h => hne (hread n hn ht h), fun h => hne (hread n hn ht' h).symm⟩
    rintro s ⟨h, h'⟩
    have := (normalizeShareFeedToken_of_mem hn h).symm.trans
      (normalizeShareFeedToken_of_mem hn' h')
    exact hne (Option.some_inj.mp this)

/-- The token of ten zero bytes, with letters for two of the zeros and one hyphen missing, and
the token of a UUID. -/
theorem shareToken_retyped_zeros :
    normalizeShareFeedToken "Oo00\u00a00000-0000-0000" =
        some (generateShareToken (Vector.replicate 10 0)) ∧
      normalizeShareFeedToken "0000000000000000" = some "0000000000000000" ∧
      normalizeShareToken "0000000000000000" ≠ some "00000000000000000000000000000000" := by
  have hgrouped : (groupedToken (generateShareToken (Vector.replicate 10 0))).toList =
      "0000-0000-0000-0000".toList := by decide +kernel
  have htyped : Retyped "0000-0000-0000-0000".toList "Oo00\u00a00000-0000-0000".toList := by
    have hletter : Spells '0' 'O' ∧ Spells '0' 'o' := ⟨.inr (by decide), .inr (by decide)⟩
    refine .char hletter.1 (.char hletter.2 (.char (.inl rfl) (.char (.inl rfl) ?_)))
    exact .remove (by decide) (.insert (by decide) (.refl _))
  obtain ⟨hretyped, hidempotent, hdistinct⟩ := shareToken_retyped
  refine ⟨hretyped _ _ (hgrouped ▸ htyped), ?_, ?_⟩
  · exact hidempotent normalizeShareFeedToken (by simp) "0000-0000-0000-0000" _ (by decide +kernel)
  · exact (hdistinct normalizeShareToken (by simp) normalizeShareFeedToken (by simp) _ _
      (by decide +kernel) (by decide +kernel) (by decide)).2.1

end Fcore
