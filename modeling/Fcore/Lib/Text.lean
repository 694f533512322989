import Mathlib.Algebra.Group.Int.Defs
import Mathlib.Algebra.Group.Nat.Defs
import Mathlib.Data.List.DropRight
import Mathlib.Data.Nat.Notation

/-!
# Text and configuration lines

Texts are handled as lists of characters. A line of a configuration text is
blank, a comment, or a directive, and `directives` keeps the directives in
order: it is what a reader of the configuration acts on.

One section is about a text whose middle part is free. The free part stands
behind a comment mark, so as long as it has no line break it cannot contribute a
directive; `directives_splice_iff` says exactly when it does not. The last section
is about decimal numerals, which have no line breaks, determine their number and are read
back as it.
-/

namespace Fcore

/-- Whether `s` begins with `p`. -/
def startsWith (s p : String) : Bool := p.toList.isPrefixOf s.toList

theorem startsWith_append (p s : String) : startsWith (p ++ s) p = true := by
  simp [startsWith]

namespace Text

/-- The text before the first occurrence of a character and the text after it. -/
def splitOnce (c : Char) (s : String) : Option (String × String) :=
  match s.toList.dropWhile fun d => d ≠ c with
  | [] => none
  | _ :: right => some (String.ofList (s.toList.takeWhile fun d => d ≠ c), String.ofList right)

theorem splitOnce_append {c : Char} {left : String} (h : c ∉ left.toList) (right : String) :
    splitOnce c (left ++ String.ofList [c] ++ right) = some (left, right) := by
  have hne : ∀ d ∈ left.toList, decide (d ≠ c) = true := by
    intro d hd
    exact decide_eq_true fun heq => h (heq ▸ hd)
  have hlist : (left ++ String.ofList [c] ++ right).toList = left.toList ++ c :: right.toList := by
    simp
  have hdrop : (left.toList ++ c :: right.toList).dropWhile (fun d => d ≠ c) =
      c :: right.toList := by
    rw [List.dropWhile_append_of_pos hne, List.dropWhile_cons_of_neg (by simp)]
  have htake : (left.toList ++ c :: right.toList).takeWhile (fun d => d ≠ c) = left.toList := by
    rw [List.takeWhile_append_of_pos hne, List.takeWhile_cons_of_neg (by simp), List.append_nil]
  rw [splitOnce, hlist, hdrop]
  dsimp only
  rw [htake, String.ofList_toList, String.ofList_toList]

/-- The Unicode `White_Space` property. -/
def isWhitespace (c : Char) : Bool :=
  let n := c.toNat
  decide (9 ≤ n ∧ n ≤ 13) || n = 32 || n = 0x85 || n = 0xA0 || n = 0x1680 ||
    decide (0x2000 ≤ n ∧ n ≤ 0x200A) || n = 0x2028 || n = 0x2029 || n = 0x202F ||
    n = 0x205F || n = 0x3000

def trim (s : String) : String :=
  String.ofList ((s.toList.dropWhile isWhitespace).rdropWhile isWhitespace)

theorem trim_sublist (s : String) : (trim s).toList.Sublist s.toList := by
  rw [trim, String.toList_ofList]
  exact (List.rdropWhile_prefix isWhitespace _).sublist.trans (List.dropWhile_sublist isWhitespace)

def eqIgnoreAsciiCase (s s' : String) : Bool :=
  s.toList.map Char.toLower = s'.toList.map Char.toLower

def lines (text : List Char) : List (List Char) := text.splitOn '\n'

def isBlank (line : List Char) : Bool := line.all isWhitespace

def isComment (line : List Char) : Bool :=
  (line.dropWhile isWhitespace).head? = some '#'

def isDirective (line : List Char) : Bool := !isBlank line && !isComment line

def directives (text : List Char) : List (List Char) := (lines text).filter isDirective

theorem lines_append_newline (a b : List Char) :
    lines (a ++ '\n' :: b) = lines a ++ lines b :=
  List.splitOn_append_cons_self a b

theorem directives_append_newline (a b : List Char) :
    directives (a ++ '\n' :: b) = directives a ++ directives b := by
  simp [directives, lines_append_newline]

variable {line : List Char}

theorem lines_eq_singleton (h : '\n' ∉ line) : lines line = [line] :=
  List.splitOn_eq_singleton h

theorem line_cases (text : List Char) :
    '\n' ∉ text ∨ ∃ line rest, '\n' ∉ line ∧ text = line ++ '\n' :: rest := by
  induction text with
  | nil => simp
  | cons c text ih =>
    by_cases hc : c = '\n'
    · exact .inr ⟨[], text, by simp, by simp [hc]⟩
    · rcases ih with h | ⟨line, rest, hline, rfl⟩
      · exact .inl (by simp [h, Ne.symm hc])
      · exact .inr ⟨c :: line, rest, by simp [hline, Ne.symm hc], rfl⟩

@[elab_as_elim]
theorem lineInduction {P : List Char → Prop} (hline : ∀ line, '\n' ∉ line → P line)
    (hbreak : ∀ line rest, '\n' ∉ line → P rest → P (line ++ '\n' :: rest))
    (text : List Char) : P text := by
  induction hn : text.length using Nat.strong_induction_on generalizing text with
  | _ n ih =>
    rcases line_cases text with h | ⟨line, rest, h, rfl⟩
    · exact hline text h
    · refine hbreak line rest h (ih rest.length ?_ rest rfl)
      simp only [List.length_append, List.length_cons] at hn
      omega

theorem isComment_append_of_isComment {a : List Char} (h : isComment a = true) (b : List Char) :
    isComment (a ++ b) = true := by
  induction a with
  | nil => simp [isComment] at h
  | cons c a ih =>
    by_cases hc : isWhitespace c = true
    · simpa [isComment, hc] using ih (by simpa [isComment, hc] using h)
    · simpa [isComment, hc] using h

/-- Text put in front of a line that is no comment makes a comment of it only by
being one. -/
theorem isComment_append {b : List Char} (hcomment : isComment b = false) (a : List Char) :
    isComment (a ++ b) = isComment a := by
  induction a with
  | nil => simpa [isComment] using hcomment
  | cons c a ih =>
    by_cases hc : isWhitespace c = true
    · simpa [isComment, hc] using ih
    · simp [isComment, hc]

theorem isBlank_append {b : List Char} (hblank : isBlank b = false) (a : List Char) :
    isBlank (a ++ b) = false := by
  simp only [isBlank, List.all_append] at *
  simp [hblank]

theorem directives_of_isComment (hline : '\n' ∉ line) (h : isComment line = true) :
    directives line = [] := by
  simp [directives, lines_eq_singleton hline, isDirective, h]

/-- The lines a text adds to a configuration when it is spliced in behind a
comment mark are those after its first. None of them may be a directive, and the
last, which runs on into the text that follows, must open a comment itself. -/
def Harmless (text : List Char) : Prop :=
  (∀ line ∈ (lines text).tail.dropLast, isDirective line = false) ∧
    ∀ line ∈ (lines text).tail.getLast?, isComment line = true

instance (text : List Char) : Decidable (Harmless text) :=
  inferInstanceAs (Decidable (_ ∧ _))

section Splice

variable {mark tail first : List Char}

/-- What follows the free part: the remainder of a line that is neither blank nor
a comment, and possibly more lines. -/
structure Follows (tail first : List Char) : Prop where
  no_break : '\n' ∉ first
  not_blank : isBlank first = false
  not_comment : isComment first = false
  eq : tail = first ∨ ∃ rest, tail = first ++ '\n' :: rest

def laterDirectives (text : List Char) : List (List Char) :=
  (lines text).tail.filter isDirective

theorem laterDirectives_line_append (hline : '\n' ∉ line) (text : List Char) :
    laterDirectives (line ++ '\n' :: text) = directives text := by
  simp [laterDirectives, directives, lines_append_newline, lines_eq_singleton hline]

theorem directives_line_append (h : Follows tail first) (hline : '\n' ∉ line) :
    directives (line ++ tail) =
      (if isComment line = true then [] else [line ++ first]) ++ laterDirectives tail := by
  have hfirst : '\n' ∉ line ++ first := by simp [hline, h.no_break]
  have hdir : [line ++ first].filter isDirective =
      if isComment line = true then [] else [line ++ first] := by
    simp only [List.filter_cons, List.filter_nil, isDirective, isBlank_append h.not_blank,
      isComment_append h.not_comment]
    cases isComment line <;> simp
  rcases h.eq with rfl | ⟨rest, rfl⟩
  · simp only [directives, laterDirectives, lines_eq_singleton hfirst,
      lines_eq_singleton h.no_break, hdir]
    simp
  · have hassoc : line ++ (first ++ '\n' :: rest) = (line ++ first) ++ '\n' :: rest := by simp
    rw [hassoc, directives_append_newline, laterDirectives_line_append h.no_break]
    simpa [directives, lines_eq_singleton hfirst] using hdir

/-- The directives of a text that runs on into `tail`: those of its complete
lines, the line where the two meet, and those of the rest of `tail`. -/
theorem directives_append (h : Follows tail first) (text : List Char) :
    directives (text ++ tail) =
      ((lines text).dropLast.filter isDirective ++
        if isComment ((lines text).getLastD []) = true then []
        else [(lines text).getLastD [] ++ first]) ++ laterDirectives tail := by
  induction text using lineInduction with
  | hline line hline =>
    rw [directives_line_append h hline, lines_eq_singleton hline]
    simp
  | hbreak line rest hline ih =>
    obtain ⟨l, ls, hrest⟩ := List.exists_cons_of_ne_nil (List.splitOn_ne_nil '\n' rest)
    have hlines : lines (line ++ '\n' :: rest) = line :: lines rest := by
      simp [lines_append_newline, lines_eq_singleton hline]
    have hlast : (line :: lines rest).getLastD [] = (lines rest).getLastD [] := by
      simp [lines, hrest]
    have hdrop : (line :: lines rest).dropLast = line :: (lines rest).dropLast := by
      simp [lines, hrest]
    rw [List.append_assoc, List.cons_append, directives_append_newline, ih, hlines, hlast, hdrop]
    simp only [directives, lines_eq_singleton hline, List.filter_cons, List.filter_nil]
    split <;> simp

/-- A text spliced in behind a comment mark leaves the directives as they are
with a single-line text in its place exactly when it is harmless. -/
theorem directives_splice_iff (hmark : '\n' ∉ mark) (hcomment : isComment mark = true)
    (h : Follows tail first) {plain : List Char} (hplain : '\n' ∉ plain) (text : List Char) :
    directives (mark ++ text ++ tail) = directives (mark ++ plain ++ tail) ↔ Harmless text := by
  have hline : ∀ line, '\n' ∉ line → directives (mark ++ line ++ tail) = laterDirectives tail := by
    intro line hline
    rw [directives_line_append h (by simp [hmark, hline]),
      if_pos (isComment_append_of_isComment hcomment line), List.nil_append]
  rw [hline plain hplain]
  rcases line_cases text with htext | ⟨line, rest, hrest, rfl⟩
  · rw [hline text htext]
    simp [Harmless, lines_eq_singleton htext]
  · have hmarked : directives (mark ++ line) = [] :=
      directives_of_isComment (by simp [hmark, hrest])
        (isComment_append_of_isComment hcomment line)
    have hsplit : mark ++ (line ++ '\n' :: rest) ++ tail =
        (mark ++ line) ++ '\n' :: (rest ++ tail) := by simp
    have hlines : (lines (line ++ '\n' :: rest)).tail = lines rest := by
      simp [lines_append_newline, lines_eq_singleton hrest]
    obtain ⟨l, ls, hne⟩ := List.exists_cons_of_ne_nil (List.splitOn_ne_nil '\n' rest)
    have hlast : (lines rest).getLast? = some ((lines rest).getLastD []) := by
      simp [lines, hne, List.getLast?_cons]
    rw [hsplit, directives_append_newline, hmarked, List.nil_append, directives_append h,
      List.append_left_eq_self, Harmless, hlines, hlast]
    simp [List.filter_eq_nil_iff]

end Splice

section Numerals

theorem lines_injective : Function.Injective lines := by
  intro a b h
  calc
    a = List.intercalate ['\n'] (lines a) := (List.intercalate_splitOn '\n').symm
    _ = List.intercalate ['\n'] (lines b) := by rw [h]
    _ = b := List.intercalate_splitOn '\n'

theorem isDigit_of_mem_toString {n : ℕ} {c : Char} (h : c ∈ (toString n).toList) :
    c.isDigit = true := by
  rw [Nat.toString_eq_ofList_toDigits, String.toList_ofList] at h
  exact Nat.isDigit_of_mem_toDigits (by decide) (by decide) h

theorem toString_nat_injective : Function.Injective (toString : ℕ → String) := by
  intro m n h
  have hdigits := congrArg String.toList h
  rw [Nat.toString_eq_ofList_toDigits, Nat.toString_eq_ofList_toDigits, String.toList_ofList,
    String.toList_ofList] at hdigits
  have hvalue := congrArg (fun cs => Nat.ofDigitChars 10 cs 0) hdigits
  simpa only [Nat.ofDigitChars_ten_toDigits] using hvalue

theorem toList_toString_negSucc (n : ℕ) :
    (toString (Int.negSucc n)).toList = '-' :: (toString (n + 1)).toList := by
  simp [toString, Int.repr, String.toList_append]

theorem notMem_toString_int {c : Char} (hdigit : c.isDigit = false) (hminus : c ≠ '-') (i : ℤ) :
    c ∉ (toString i).toList := by
  have hnat : ∀ n : ℕ, c ∉ (toString n).toList := by
    intro n h
    rw [isDigit_of_mem_toString h] at hdigit
    cases hdigit
  cases i with
  | ofNat n => exact hnat n
  | negSucc n =>
    rw [toList_toString_negSucc]
    simpa [hminus] using hnat (n + 1)

theorem toString_int_injective : Function.Injective (toString : ℤ → String) := by
  have hmixed : ∀ m n : ℕ, toString (m : ℤ) ≠ toString (Int.negSucc n) := by
    intro m n h
    have hsign : '-' ∈ (toString m).toList := by
      change '-' ∈ (toString (m : ℤ)).toList
      rw [h, toList_toString_negSucc]
      exact List.mem_cons_self
    exact absurd (isDigit_of_mem_toString hsign) (by decide)
  intro i j h
  cases i with
  | ofNat m =>
    cases j with
    | ofNat n => exact congrArg Int.ofNat (toString_nat_injective h)
    | negSucc n => exact absurd h (hmixed m n)
  | negSucc m =>
    cases j with
    | ofNat n => exact absurd h.symm (hmixed n m)
    | negSucc n =>
      have hlist := congrArg String.toList h
      rw [toList_toString_negSucc, toList_toString_negSucc, List.cons.injEq,
        String.toList_inj] at hlist
      exact congrArg Int.negSucc (Nat.succ.inj (toString_nat_injective hlist.2))

theorem length_toString_nat {n k : ℕ} (hk : 0 < k) :
    (toString n).toList.length ≤ k ↔ n < 10 ^ k := by
  rw [Nat.toString_eq_ofList_toDigits, String.toList_ofList]
  exact Nat.length_toDigits_le_iff (by decide) hk

theorem head?_toString_nat {n : ℕ} (hn : 0 < n) : (toString n).toList.head? ≠ some '0' := by
  rw [Nat.toString_eq_ofList_toDigits, String.toList_ofList]
  induction n using Nat.strong_induction_on with
  | _ n ih =>
    by_cases hlt : n < 10
    · have hdigit : ∀ n < 10, 0 < n → [n.digitChar].head? ≠ some '0' := by decide
      rw [Nat.toDigits_of_lt_base hlt]
      exact hdigit n hlt hn
    · have hdiv := ih (n / 10) (by omega) (by omega)
      rw [Nat.toDigits_of_base_le (by decide) (by omega),
        List.head?_append_of_ne_nil _ Nat.toDigits_ne_nil]
      exact hdiv

/-- An unsigned number as the standard library reads it: decimal digits after at most one
plus sign. -/
def parseNat (s : String) : Option ℕ :=
  let digits := if s.toList.head? = some '+' then s.toList.tail else s.toList
  if digits.isEmpty || !digits.all Char.isDigit then none
  else some (Nat.ofDigitChars 10 digits 0)

theorem parseNat_toString (n : ℕ) : parseNat (toString n) = some n := by
  have hlist : (toString n).toList = Nat.toDigits 10 n := by
    rw [Nat.toString_eq_ofList_toDigits, String.toList_ofList]
  have hdigits : (Nat.toDigits 10 n).all Char.isDigit = true := by
    rw [List.all_eq_true]
    intro c hc
    exact Nat.isDigit_of_mem_toDigits (by decide) (by decide) hc
  have hhead : (Nat.toDigits 10 n).head? ≠ some '+' := by
    intro heq
    exact absurd (List.all_eq_true.mp hdigits '+' (List.mem_of_head? heq)) (by decide)
  have hne : (Nat.toDigits 10 n).isEmpty = false := by
    simp
  simp only [parseNat, hlist, if_neg hhead, hne, hdigits, Nat.ofDigitChars_ten_toDigits]
  rfl

def parseU8 (s : String) : Option UInt8 :=
  (parseNat s).bind fun n => if n < 256 then some (UInt8.ofNat n) else none

theorem parseU8_toString (n : UInt8) : parseU8 (toString n.toNat) = some n := by
  have hn : n.toNat < 256 := n.toNat_lt
  rw [parseU8, parseNat_toString, Option.bind_some, if_pos hn, UInt8.ofNat_toNat]

end Numerals

end Text

end Fcore
