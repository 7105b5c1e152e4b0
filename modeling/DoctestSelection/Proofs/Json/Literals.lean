import DoctestSelection.Json.Printer
import DoctestSelection.Json.Reader
import Mathlib.Data.List.DropRight
import Mathlib.Data.Nat.Init

/-!
# Written numbers and strings read back

The digits of a natural number are read up to the first character that could not go on with the
number; no zero stands in front of them, which the reader would refuse.  A string is read character
by character: an escaped character is read as the part that its escape spells, and the parts spell
the string again, since no escape is half of a surrogate pair.

## Main definitions

* `EndsNumber rest` — what follows a number does not go on with it.

## Main results

* `readNumber_ofNat` — **a written natural number reads back.**
* `readText_quoted` — **a written string reads back**, after its opening quote.
* `NumberLiteral.isReadable_ofNat_toNat` — an index is in the range of double precision.
-/

namespace DoctestSelection

/-! ### Blanks -/

variable {c : Char} {cs : List Char}

theorem skipBlanks_append {bs : List Char} (h : ∀ c ∈ bs, isJsonBlank c = true) (cs : List Char) :
    skipBlanks (bs ++ cs) = skipBlanks cs :=
  List.dropWhile_append_of_pos h

theorem skipBlanks_cons (h : isJsonBlank c = false) (cs : List Char) :
    skipBlanks (c :: cs) = c :: cs :=
  List.dropWhile_cons_of_neg (by simpa using h)

@[simp] theorem skipBlanks_skipBlanks (cs : List Char) :
    skipBlanks (skipBlanks cs) = skipBlanks cs :=
  List.dropWhile_idempotent isJsonBlank cs

/-! ### Numbers -/

/-- What follows a number does not go on with it: no digit, no point and no mark of a power. -/
def EndsNumber (rest : List Char) : Prop :=
  ∀ c, rest.head? = some c → c.isDigit = false ∧ c ≠ '.' ∧ c ≠ 'e' ∧ c ≠ 'E'

theorem endsNumber_nil : EndsNumber [] := nofun

theorem endsNumber_cons (h : c.isDigit = false ∧ c ≠ '.' ∧ c ≠ 'e' ∧ c ≠ 'E') (cs : List Char) :
    EndsNumber (c :: cs) := by
  intro d hd
  rwa [← Option.some.inj hd]

theorem readDigits_append {ds rest : List Char} (hne : ds ≠ []) (hds : ∀ c ∈ ds, c.isDigit = true)
    (hrest : EndsNumber rest) : readDigits (ds ++ rest) = some (ds, rest) := by
  have htake : rest.takeWhile Char.isDigit = [] := by
    cases rest with
    | nil => rfl
    | cons c rest =>
      have hc : c.isDigit = false := (hrest c rfl).1
      exact List.takeWhile_cons_of_neg (by simp [hc])
  have hdrop : rest.dropWhile Char.isDigit = rest := by
    cases rest with
    | nil => rfl
    | cons c rest =>
      have hc : c.isDigit = false := (hrest c rfl).1
      exact List.dropWhile_cons_of_neg (by simp [hc])
  unfold readDigits
  rw [List.takeWhile_append_of_pos hds, htake, List.append_nil, List.dropWhile_append_of_pos hds,
    hdrop]
  cases ds with
  | nil => exact absurd rfl hne
  | cons d ds => rfl

/-- The digits of a number start with a zero only if the number is zero. -/
theorem eq_zero_of_head?_toDigits {n : Nat} (h : (Nat.toDigits 10 n).head? = some '0') : n = 0 := by
  induction n using Nat.strong_induction_on with
  | _ n ih =>
    rw [Nat.toDigits_eq_if (by omega)] at h
    split at h
    · have hzero : n.digitChar = '0' := by simpa using h
      exact Nat.digitChar_eq_zero.1 hzero
    · rename_i hn
      -- the digits in front are those of a smaller number that is not zero
      have hfront : (Nat.toDigits 10 (n / 10)).head? = some '0' := by
        rw [List.head?_append] at h
        cases hds : Nat.toDigits 10 (n / 10) with
        | nil => exact absurd hds Nat.toDigits_ne_nil
        | cons d ds => simpa [hds] using h
      have hquotient : n / 10 = 0 := ih (n / 10) (by omega) hfront
      omega

theorem readWhole_toDigits (n : Nat) {rest : List Char} (hrest : EndsNumber rest) :
    readWhole (Nat.toDigits 10 n ++ rest) = some (Nat.toDigits 10 n, rest) := by
  have hdigits : ∀ c ∈ Nat.toDigits 10 n, c.isDigit = true := fun c hc =>
    Nat.isDigit_of_mem_toDigits (by omega) (by omega) hc
  unfold readWhole
  rw [readDigits_append Nat.toDigits_ne_nil hdigits hrest]
  split
  · rename_i hzero
    have hhead : Nat.toDigits 10 n = '0' :: _ := (Prod.mk.inj (Option.some.inj hzero)).1
    have hn : n = 0 := eq_zero_of_head?_toDigits (by rw [hhead]; rfl)
    rw [hn, Nat.toDigits_zero] at hhead
    exact nomatch hhead
  · rfl

theorem readFraction_of_endsNumber {rest : List Char} (hrest : EndsNumber rest) :
    readFraction rest = some ([], rest) := by
  unfold readFraction
  split
  · exact absurd rfl (hrest '.' rfl).2.1
  · rfl

theorem readExponent_of_endsNumber {rest : List Char} (hrest : EndsNumber rest) :
    readExponent rest = some (none, rest) := by
  unfold readExponent
  split
  · exact absurd rfl (hrest 'e' rfl).2.2.1
  · exact absurd rfl (hrest 'E' rfl).2.2.2
  · rfl

/-- **A written natural number reads back.** -/
theorem readNumber_ofNat (n : Nat) {rest : List Char} (hrest : EndsNumber rest) :
    readNumber ((NumberLiteral.ofNat n).chars ++ rest) = some (.ofNat n, rest) := by
  rw [NumberLiteral.chars_ofNat]
  have hmagnitude : readMagnitude false (Nat.toDigits 10 n ++ rest) = some (.ofNat n, rest) := by
    unfold readMagnitude
    rw [readWhole_toDigits n hrest]
    simp only [bind, Option.bind_some, readFraction_of_endsNumber hrest,
      readExponent_of_endsNumber hrest]
    rfl
  unfold readNumber
  split
  · rename_i hminus
    cases hdigits : Nat.toDigits 10 n with
    | nil => exact absurd hdigits Nat.toDigits_ne_nil
    | cons d ds =>
      -- a digit is no sign
      rw [hdigits, List.cons_append] at hminus
      have hd : d.isDigit = true :=
        Nat.isDigit_of_mem_toDigits (b := 10) (n := n) (by omega) (by omega) (by simp [hdigits])
      rw [(List.cons.inj hminus).1] at hd
      exact absurd hd (by decide)
  · exact hmagnitude

/-! ### The range of numbers -/

namespace NumberLiteral

theorem le_ofDigitChars (ds : List Char) (n : Nat) : n ≤ Nat.ofDigitChars 10 ds n := by
  induction ds generalizing n with
  | nil => exact Nat.le_of_eq Nat.ofDigitChars_nil.symm
  | cons d ds ih =>
    rw [Nat.ofDigitChars_cons]
    have hle := ih (10 * n + (d.toNat - '0'.toNat))
    omega

/-- All digits of a number of 64 bits are leading digits. -/
theorem leadingDigits_eq {ds : List Char} {n : Nat} (h : Nat.ofDigitChars 10 ds n < UInt64.size)
    (used : Nat) : leadingDigits n used ds = (Nat.ofDigitChars 10 ds n, used + ds.length) := by
  induction ds generalizing n used with
  | nil => rw [Nat.ofDigitChars_nil]; rfl
  | cons d ds ih =>
    rw [Nat.ofDigitChars_cons] at h ⊢
    have hnext : 10 * n + (d.toNat - '0'.toNat) < UInt64.size :=
      Nat.lt_of_le_of_lt (le_ofDigitChars ds _) h
    rw [leadingDigits]
    show (if _ then _ else _) = _
    rw [if_pos hnext, ih h, List.length_cons]
    congr 1
    omega

/-- Rounding adds less than one step of the least digit that is kept. -/
theorem roundToDouble_le (n : Nat) : roundToDouble n ≤ n + Nat.pow 2 (n.log2 - 52) := by
  have hquotient : n / Nat.pow 2 (n.log2 - 52) * Nat.pow 2 (n.log2 - 52) ≤ n := Nat.div_mul_le_self n _
  unfold roundToDouble
  simp only [Nat.add_mul]
  split <;> omega

theorem roundToDouble_toNat_le (i : Index) : roundToDouble i.toNat ≤ Nat.pow 2 65 := by
  have hlt : i.toNat < 2 ^ 64 := i.toNat_lt
  have hlog : i.toNat.log2 ≤ 63 := by
    by_cases hzero : i.toNat = 0
    · simp [hzero]
    · exact Nat.le_of_lt_succ ((Nat.log2_lt hzero).2 hlt)
  have hstep : Nat.pow 2 (i.toNat.log2 - 52) ≤ Nat.pow 2 11 :=
    Nat.pow_le_pow_right (by omega) (by omega)
  have hround := roundToDouble_le i.toNat
  have hsum : 2 ^ 64 + Nat.pow 2 11 ≤ Nat.pow 2 65 := by decide
  omega

/-- An index is in the range of double precision. -/
theorem isReadable_ofNat_toNat (i : Index) : (ofNat i.toNat).isReadable = true := by
  have hvalue : Nat.ofDigitChars 10 (Nat.toDigits 10 i.toNat) 0 = i.toNat :=
    Nat.ofDigitChars_ten_toDigits
  have hleading : leadingDigits 0 0 (Nat.toDigits 10 i.toNat ++ []) =
      (i.toNat, (Nat.toDigits 10 i.toNat).length) := by
    rw [List.append_nil, leadingDigits_eq (by rw [hvalue]; exact i.toNat_lt), hvalue, Nat.zero_add]
  have hscale : (0 : Int) + (Nat.toDigits 10 i.toNat).length - (Nat.toDigits 10 i.toNat).length = 0 := by
    omega
  have hone : roundToDouble (Nat.pow 10 (Int.toNat 0)) = 1 := by decide
  have hlt : roundToDouble i.toNat * 1 < doubleOverflow := by
    have hle := roundToDouble_toNat_le i
    have hbound : Nat.pow 2 65 < doubleOverflow := by decide +kernel
    omega
  unfold isReadable ofNat
  simp only [hleading, Option.getD_none, hscale, hone, hlt]
  simp

end NumberLiteral

/-! ### Strings -/

theorem hexValue?_hexDigit : ∀ n < 16, hexValue? (hexDigit n) = some n := by decide

/-- A letter behind a backslash. -/
theorem readParts_escape {letter : Char} (h : unescape? letter = some c) (cs : List Char) :
    readParts ('\\' :: letter :: cs) =
      (readParts cs).map fun read => (.char c :: read.1, read.2) := by
  have hu : letter ≠ 'u' := by
    intro hu
    rw [hu] at h
    exact nomatch h
  rw [readParts, h]
  · cases readParts cs <;> rfl
  · exact fun _ _ _ _ _ he _ => hu he

/-- Four hexadecimal digits behind a backslash. -/
theorem readParts_unit {x y z w : Char} {n : Nat} (h : unit? x y z w = some n) (cs : List Char) :
    readParts ('\\' :: 'u' :: x :: y :: z :: w :: cs) =
      (readParts cs).map fun read => (.unit n :: read.1, read.2) := by
  rw [readParts, h]
  cases readParts cs <;> rfl

/-- A character that stands for itself. -/
theorem readParts_char (hquote : c ≠ '"') (hbackslash : c ≠ '\\') (hcontrol : ¬ c.toNat < 0x20)
    (cs : List Char) :
    readParts (c :: cs) = (readParts cs).map fun read => (.char c :: read.1, read.2) := by
  have hplain : ¬ (decide (c.toNat < 0x20) || c == '\\') = true := by simp [hbackslash, hcontrol]
  rw [readParts, if_neg hplain]
  · cases readParts cs <;> rfl
  · exact hquote
  · exact fun _ _ _ _ _ he _ => hbackslash he
  · exact fun _ _ he _ => hbackslash he

/-- A unit below those of surrogates spells the character of its number. -/
theorem assemble_unit {n : Nat} (h : n < 0xD800) (parts : List StringPart) :
    assemble (.unit n :: parts) = (assemble parts).map (Char.ofNat n :: ·) := by
  have hhigh : isHighSurrogate n = false := by
    simp only [isHighSurrogate, Bool.and_eq_false_iff, decide_eq_false_iff_not]
    omega
  have hlow : isLowSurrogate n = false := by
    simp only [isLowSurrogate, Bool.and_eq_false_iff, decide_eq_false_iff_not]
    omega
  rw [assemble.eq_def]
  simp only [hhigh, hlow]
  rfl

/-- How a character is read within a string: as one part, which spells the character. -/
theorem exists_part (c : Char) :
    ∃ part : StringPart,
      (∀ cs, readParts (escapeChar c ++ cs) =
        (readParts cs).map fun read => (part :: read.1, read.2)) ∧
      ∀ parts, assemble (part :: parts) = (assemble parts).map (c :: ·) := by
  have hescape : ∀ letter, unescape? letter = some c → ∃ part : StringPart,
      (∀ cs, readParts (['\\', letter] ++ cs) =
        (readParts cs).map fun read => (part :: read.1, read.2)) ∧
      ∀ parts, assemble (part :: parts) = (assemble parts).map (c :: ·) :=
    fun letter h => ⟨.char c, readParts_escape h, fun _ => rfl⟩
  unfold escapeChar
  split_ifs with hquote hbackslash hback hform hline hreturn htab hcontrol
  · exact hescape '"' (by rw [hquote]; rfl)
  · exact hescape '\\' (by rw [hbackslash]; rfl)
  · exact hescape 'b' (by rw [hback]; rfl)
  · exact hescape 'f' (by rw [hform]; rfl)
  · exact hescape 'n' (by rw [hline]; rfl)
  · exact hescape 'r' (by rw [hreturn]; rfl)
  · exact hescape 't' (by rw [htab]; rfl)
  · -- another control character is written as its number, which is read from its two digits
    have hunit : unit? '0' '0' (hexDigit (c.toNat / 16)) (hexDigit (c.toNat % 16)) =
        some c.toNat := by
      have hhigh := hexValue?_hexDigit (c.toNat / 16) (by omega)
      have hlow := hexValue?_hexDigit (c.toNat % 16) (by omega)
      have hzero : hexValue? '0' = some 0 := by decide
      simp only [unit?, hzero, hhigh, hlow, bind, Option.bind_some, pure, Option.some.injEq]
      omega
    refine ⟨.unit c.toNat, readParts_unit hunit, fun parts => ?_⟩
    rw [assemble_unit (by omega), Char.ofNat_toNat]
  · exact ⟨.char c, readParts_char hquote hbackslash hcontrol, fun _ => rfl⟩

/-- The parts of a written text, which spell the text. -/
theorem exists_readParts (s rest : List Char) :
    ∃ parts, readParts (s.flatMap escapeChar ++ '"' :: rest) = some (parts, rest) ∧
      assemble parts = some s := by
  induction s with
  | nil => exact ⟨[], by rw [List.flatMap_nil, List.nil_append, readParts], rfl⟩
  | cons c s ih =>
    obtain ⟨parts, hread, hassemble⟩ := ih
    obtain ⟨part, hpart, hspells⟩ := exists_part c
    refine ⟨part :: parts, ?_, ?_⟩
    · rw [List.flatMap_cons, List.append_assoc, hpart, hread]
      rfl
    · rw [hspells, hassemble]
      rfl

/-- **A written string reads back**, after its opening quote. -/
theorem readText_quoted (s : String) (rest : List Char) :
    readText (s.toList.flatMap escapeChar ++ '"' :: rest) = some (some s, rest) := by
  obtain ⟨parts, hread, hassemble⟩ := exists_readParts s.toList rest
  rw [readText, hread]
  show some ((assemble parts).map String.ofList, rest) = _
  rw [hassemble, Option.map_some, String.ofList_toList]

end DoctestSelection
