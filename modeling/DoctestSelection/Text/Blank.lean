/-!
# Blank characters, trimming and words

Texts that people write are read up to the blanks around them.  A blank is a character with the
Unicode property `White_Space`; the twenty-five of them are listed here.  The functions work on
lists of characters, and each has a form on `String`.

## Main definitions

* `isBlank c` — `c` is a blank.
* `trimList`, `trim` — a text without the blanks at its two ends.
* `wordList`, `words` — the maximal runs of characters that are not blank.

## Main results

* `trimList_eq_self_iff` — a text is trimmed when it neither starts nor ends with a blank.
* `exists_eq_append_strip` — a text is what is left of it between what was dropped.
* `mem_wordList` — a word is not empty and holds no blank.
-/

namespace DoctestSelection.Text

/-- A blank is a character with the Unicode property `White_Space`. -/
def isBlank (c : Char) : Bool :=
  (0x09 ≤ c.val && c.val ≤ 0x0D) || c.val == 0x20 || c.val == 0x85 || c.val == 0xA0 ||
    c.val == 0x1680 || (0x2000 ≤ c.val && c.val ≤ 0x200A) || c.val == 0x2028 ||
    c.val == 0x2029 || c.val == 0x202F || c.val == 0x205F || c.val == 0x3000

/-! ### Trimming -/

/-- A list without the elements of a class at its end. -/
def dropEndWhile {α : Type} (p : α → Bool) (l : List α) : List α :=
  (l.reverse.dropWhile p).reverse

/-- A list without the elements of a class at either end. -/
def strip {α : Type} (p : α → Bool) (l : List α) : List α :=
  dropEndWhile p (l.dropWhile p)

/-- The characters of a text without the blanks at its two ends. -/
def trimList (cs : List Char) : List Char := strip isBlank cs

/-- A text without the blanks at its two ends. -/
def trim (s : String) : String := String.ofList (trimList s.toList)

@[simp] theorem toList_trim (s : String) : (trim s).toList = trimList s.toList :=
  String.toList_ofList

/-- The first element that stays is not of the class. -/
theorem head?_dropWhile_ne {α : Type} {p : α → Bool} {l : List α} {a : α}
    (h : (l.dropWhile p).head? = some a) : p a = false := by
  have := List.head?_dropWhile_not p l
  simpa [h] using this

theorem dropWhile_eq_self_iff {α : Type} {p : α → Bool} {l : List α} :
    l.dropWhile p = l ↔ ∀ a, l.head? = some a → p a = false := by
  cases l with
  | nil => simp
  | cons a l =>
    by_cases h : p a
    · simp only [List.dropWhile_cons_of_pos h, List.head?_cons, Option.some.injEq, forall_eq',
        h, Bool.true_eq_false, iff_false]
      intro he
      have := (List.dropWhile_suffix p (l := l)).length_le
      have := congrArg List.length he
      simp at this
      omega
    · simp [h]

theorem takeWhile_eq_nil_of_head? {α : Type} {p : α → Bool} {l : List α}
    (h : ∀ a, l.head? = some a → p a = false) : l.takeWhile p = [] := by
  cases l with
  | nil => rfl
  | cons a l => exact List.takeWhile_cons_of_neg (by simp [h a rfl])

/-- The last element that stays is not of the class. -/
theorem getLast?_dropEndWhile_ne {α : Type} {p : α → Bool} {l : List α} {a : α}
    (h : (dropEndWhile p l).getLast? = some a) : p a = false := by
  rw [dropEndWhile, List.getLast?_reverse] at h
  exact head?_dropWhile_ne h

theorem dropEndWhile_eq_self_iff {α : Type} {p : α → Bool} {l : List α} :
    dropEndWhile p l = l ↔ ∀ a, l.getLast? = some a → p a = false := by
  rw [dropEndWhile, List.reverse_eq_iff, dropWhile_eq_self_iff, List.head?_reverse]

/-- Dropping at the end leaves a part from the front. -/
theorem prefix_of_dropEndWhile {α : Type} (p : α → Bool) (l : List α) : dropEndWhile p l <+: l := by
  rw [dropEndWhile, ← List.reverse_suffix, List.reverse_reverse]
  exact List.dropWhile_suffix p

/-- A list is stripped when neither its first nor its last element is of the class. -/
theorem strip_eq_self_iff {α : Type} {p : α → Bool} {l : List α} :
    strip p l = l ↔
      (∀ a, l.head? = some a → p a = false) ∧ (∀ a, l.getLast? = some a → p a = false) := by
  constructor
  · intro h
    have h₁ : l.dropWhile p = l := by
      have hle := (prefix_of_dropEndWhile p (l.dropWhile p)).length_le
      rw [← strip, h] at hle
      exact (List.dropWhile_suffix p).eq_of_length_le hle
    refine ⟨dropWhile_eq_self_iff.1 h₁, dropEndWhile_eq_self_iff.1 ?_⟩
    rwa [strip, h₁] at h
  · rintro ⟨h₁, h₂⟩
    rw [strip, dropWhile_eq_self_iff.2 h₁, dropEndWhile_eq_self_iff.2 h₂]

theorem strip_eq_self_of_forall {α : Type} {p : α → Bool} {l : List α}
    (h : ∀ a ∈ l, p a = false) : strip p l = l :=
  strip_eq_self_iff.2
    ⟨fun a ha => h a (List.mem_of_mem_head? ha), fun a ha => h a (List.mem_of_getLast? ha)⟩

/-- A text is trimmed when it neither starts nor ends with a blank. -/
theorem trimList_eq_self_iff {cs : List Char} :
    trimList cs = cs ↔
      (∀ c, cs.head? = some c → isBlank c = false) ∧
        (∀ c, cs.getLast? = some c → isBlank c = false) :=
  strip_eq_self_iff

/-- Trimming adds no character. -/
theorem mem_of_mem_trimList {c : Char} {cs : List Char} (h : c ∈ trimList cs) : c ∈ cs := by
  have hdrop : c ∈ cs.dropWhile isBlank := (prefix_of_dropEndWhile isBlank _).subset h
  exact (List.dropWhile_suffix isBlank).subset hdrop

/-- What is stripped neither starts nor ends with an element of the class. -/
theorem strip_ends {α : Type} (p : α → Bool) (l : List α) :
    (∀ a, (strip p l).head? = some a → p a = false) ∧
      (∀ a, (strip p l).getLast? = some a → p a = false) := by
  refine ⟨fun a h => ?_, fun a h => getLast?_dropEndWhile_ne h⟩
  obtain ⟨t, ht⟩ := prefix_of_dropEndWhile p (l.dropWhile p)
  rw [strip] at h
  apply head?_dropWhile_ne (l := l)
  rw [← ht, List.head?_append, h, Option.some_or]

/-- Trimming twice is trimming once. -/
@[simp] theorem trimList_trimList (cs : List Char) : trimList (trimList cs) = trimList cs :=
  strip_eq_self_iff.2 (strip_ends isBlank cs)

@[simp] theorem trim_trim (s : String) : trim (trim s) = trim s := by
  rw [← String.toList_inj]
  simp

/-- What is dropped at the ends of a list is of the class. -/
theorem exists_eq_append_strip {α : Type} (p : α → Bool) (l : List α) :
    ∃ front back, l = front ++ (strip p l ++ back) ∧ (∀ a ∈ front, p a = true) ∧
      ∀ a ∈ back, p a = true := by
  have hend : l.dropWhile p = strip p l ++ ((l.dropWhile p).reverse.takeWhile p).reverse := by
    rw [strip, dropEndWhile, ← List.reverse_append, List.takeWhile_append_dropWhile,
      List.reverse_reverse]
  refine ⟨l.takeWhile p, ((l.dropWhile p).reverse.takeWhile p).reverse, ?_, ?_, ?_⟩
  · rw [← hend, List.takeWhile_append_dropWhile]
  · exact List.all_eq_true.1 List.all_takeWhile
  · intro a ha
    exact List.all_eq_true.1 List.all_takeWhile a (List.mem_reverse.1 ha)

/-- Nothing is left of a text when all of it is blank. -/
theorem forall_isBlank_of_trimList_eq_nil {cs : List Char} (h : trimList cs = []) :
    ∀ c ∈ cs, isBlank c = true := by
  obtain ⟨front, back, hcs, hfront, hback⟩ := exists_eq_append_strip isBlank cs
  rw [trimList] at h
  rw [h, List.nil_append] at hcs
  intro c hc
  rw [hcs, List.mem_append] at hc
  rcases hc with hc | hc
  · exact hfront c hc
  · exact hback c hc

theorem trimList_isInfix (cs : List Char) : trimList cs <:+: cs := by
  obtain ⟨front, back, hcs, -, -⟩ := exists_eq_append_strip isBlank cs
  refine ⟨front, back, ?_⟩
  rw [List.append_assoc]
  exact hcs.symm

/-- Blanks do not stand in front of trimmed text. -/
theorem eq_nil_of_trimList_append {bs cs : List Char} (h : trimList (bs ++ cs) = bs ++ cs)
    (hbs : ∀ c ∈ bs, isBlank c = true) : bs = [] := by
  cases bs with
  | nil => rfl
  | cons b bs =>
    have hb := (trimList_eq_self_iff.1 h).1 b rfl
    rw [hbs b List.mem_cons_self] at hb
    exact Bool.noConfusion hb

/-- Blanks do not stand at the end of trimmed text. -/
theorem eq_nil_of_trimList_append_right {cs bs : List Char}
    (h : trimList (cs ++ bs) = cs ++ bs) (hbs : ∀ c ∈ bs, isBlank c = true) : bs = [] := by
  apply Decidable.byContradiction
  intro hne
  have hlast : (cs ++ bs).getLast? = some (bs.getLast hne) := by
    rw [List.getLast?_append, List.getLast?_eq_some_getLast hne, Option.some_or]
  have hb := (trimList_eq_self_iff.1 h).2 _ hlast
  rw [hbs _ (List.getLast_mem hne)] at hb
  exact Bool.noConfusion hb

/-! ### Words -/

/-- The maximal runs of characters that are not blank, in order. -/
def wordList (cs : List Char) : List (List Char) :=
  (cs.splitOnP isBlank).filter (!·.isEmpty)

/-- The words of a text, in order. -/
def words (s : String) : List String := (wordList s.toList).map String.ofList

@[simp] theorem wordList_nil : wordList [] = [] := rfl

/-- No piece of a cut list holds an element at which it is cut. -/
theorem forall_mem_splitOnP {α : Type} {p : α → Bool} (l : List α) :
    ∀ w ∈ l.splitOnP p, ∀ a ∈ w, p a = false := by
  induction l with
  | nil => simp
  | cons b l ih =>
    rw [List.splitOnP_cons_eq_if_modifyHead]
    split
    · simpa using ih
    · rename_i hb
      rcases h : l.splitOnP p with _ | ⟨w, ws⟩
      · exact absurd h (List.splitOnP_ne_nil p l)
      · simp only [h, List.mem_cons, forall_eq_or_imp] at ih
        simpa [hb] using ih

/-- A word is not empty and holds no blank. -/
theorem mem_wordList {w cs : List Char} (h : w ∈ wordList cs) :
    w ≠ [] ∧ ∀ c ∈ w, isBlank c = false := by
  obtain ⟨hw, hne⟩ := List.mem_filter.1 h
  exact ⟨by simpa using hne, forall_mem_splitOnP cs w hw⟩

end DoctestSelection.Text
