import DoctestSelection.Proofs.Range.Runs
import Mathlib.Algebra.GroupWithZero.Nat
import Mathlib.Data.List.Chain

/-!
# Indices are shown as briefly as can be

A list of indices can be shown by runs in many ways: any list of runs will do that stands for the
list, and each run is shown by itself.  Putting a run in front of others is what pushing its indices
one by one comes to: the run is joined with the next one if that goes on from it.  Joining never
makes a text longer, and runs that were joined wherever possible leave nothing to join; so the runs
of a list are the only ones of which no two can be joined, and no text of the list is shorter, in
runs or in characters, than the one that is shown.

## Main definitions

* `IndexRun.GoesOn r next` — `next` starts where `r` ends.
* `IndexRun.Shows cs r` — how a single run is shown.
* `IndexRun.prepend r rs` — a run in front of others, joined with the next one if possible.
* `ShowsRuns text runs is` — a text that shows a list by some runs that stand for it.

## Main results

* `indexRuns_append` — **pushing the indices of a run prepends the run.**
* `eq_indexRuns_of_isChain` — runs that cannot be joined are the runs of their list.
* `formatted_indices_are_shortest` — **a list is shown by its runs, and in no shorter way.**
-/

namespace DoctestSelection

namespace IndexRun

variable {r next : IndexRun} {rs : List IndexRun} {cs : List Char}

/-! ### A single run -/

/-- A run goes on from another one when its first index follows the last one of the other.  No index
follows the greatest one. -/
def GoesOn (r next : IndexRun) : Prop := r.last.toNat + 1 = next.first.toNat

instance : Decidable (r.GoesOn next) := inferInstanceAs (Decidable (_ = _))

theorem goesOn_single_iff {i : Index} :
    GoesOn ⟨i, i⟩ next ↔ i ≠ Index.greatest ∧ i + 1 = next.first := by
  show i.toNat + 1 = next.first.toNat ↔ _
  constructor
  · intro h
    have hne : i ≠ Index.greatest := by
      rintro rfl
      have hgreatest : Index.greatest.toNat = 18446744073709551615 := rfl
      have hlt : next.first.toNat < 18446744073709551616 := next.first.toNat_lt
      omega
    exact ⟨hne, by rw [← UInt64.toNat_inj, Index.toNat_add_one hne, h]⟩
  · rintro ⟨hne, hnext⟩
    rw [← hnext, Index.toNat_add_one hne]

/-- How a run is shown: an index by its digits, and more than one by the first and the last one with
a dash between them. -/
inductive Shows : List Char → IndexRun → Prop
  | one (i : Index) : Shows i.digits ⟨i, i⟩
  | several {first last : Index} : first < last →
      Shows (first.digits ++ '-' :: last.digits) ⟨first, last⟩

theorem shows_iff : Shows cs r ↔ r.first ≤ r.last ∧ cs = r.chars := by
  unfold chars
  constructor
  · rintro (i | hlt)
    · exact ⟨UInt64.le_refl i, by rw [if_pos rfl]⟩
    · exact ⟨UInt64.le_of_lt hlt, by rw [if_neg (UInt64.ne_of_lt hlt)]⟩
  · rintro ⟨hle, rfl⟩
    obtain ⟨first, last⟩ := r
    split
    · rename_i hsame
      obtain rfl : first = last := hsame
      exact .one first
    · rename_i hne
      exact .several (UInt64.lt_of_le_of_ne hle hne)

theorem forall₂_shows_iff {parts : List (List Char)} :
    List.Forall₂ Shows parts rs ↔ (∀ r ∈ rs, r.first ≤ r.last) ∧ parts = rs.map chars := by
  induction rs generalizing parts with
  | nil => simp
  | cons r rs ih =>
    simp only [List.forall₂_cons_right_iff, shows_iff, ih, List.forall_mem_cons, List.map_cons]
    constructor
    · rintro ⟨cs, rest, ⟨hle, rfl⟩, ⟨hall, rfl⟩, rfl⟩
      exact ⟨⟨hle, hall⟩, rfl⟩
    · rintro ⟨⟨hle, hall⟩, rfl⟩
      exact ⟨_, _, ⟨hle, rfl⟩, ⟨hall, rfl⟩, rfl⟩

theorem chars_ne_nil (r : IndexRun) : r.chars ≠ [] := by
  unfold chars
  split
  · exact r.first.digits_ne_nil
  · exact List.append_ne_nil_of_right_ne_nil _ (List.cons_ne_nil _ _)

theorem length_chars_le (r : IndexRun) :
    r.chars.length ≤ r.first.digits.length + 1 + r.last.digits.length := by
  unfold chars
  split
  · omega
  · rw [List.length_append, List.length_cons]
    omega

theorem length_digits_first_le (r : IndexRun) : r.first.digits.length ≤ r.chars.length := by
  unfold chars
  split
  · exact Nat.le_refl _
  · rw [List.length_append]
    omega

theorem length_digits_last_le (r : IndexRun) : r.last.digits.length ≤ r.chars.length := by
  unfold chars
  split
  · rename_i hsame
    rw [hsame]
  · rw [List.length_append, List.length_cons]
    omega

/-! ### A run in front of others -/

/-- A run in front of others: it is joined with the next one if that goes on from it. -/
def prepend (r : IndexRun) : List IndexRun → List IndexRun
  | [] => [r]
  | next :: rest => if r.GoesOn next then ⟨r.first, next.last⟩ :: rest else r :: next :: rest

theorem push_eq_prepend (i : Index) (rs : List IndexRun) : push i rs = prepend ⟨i, i⟩ rs := by
  cases rs with
  | nil => rfl
  | cons next rest =>
    rw [push, prepend]
    exact if_congr goesOn_single_iff.symm rfl rfl

/-- A run that goes on from an index takes the index in, whatever follows. -/
theorem push_prepend {i : Index} (h : GoesOn ⟨i, i⟩ r) (rs : List IndexRun) :
    push i (prepend r rs) = prepend ⟨i, r.last⟩ rs := by
  have hpush : ∀ (last : Index) (rest : List IndexRun),
      push i (⟨r.first, last⟩ :: rest) = ⟨i, last⟩ :: rest := by
    intro last rest
    exact if_pos (goesOn_single_iff.1 h)
  cases rs with
  | nil => exact hpush r.last []
  | cons next rest =>
    rw [prepend, prepend]
    by_cases hnext : r.GoesOn next
    · have hjoined : GoesOn ⟨i, r.last⟩ next := hnext
      rw [if_pos hnext, if_pos hjoined, hpush]
    · have hjoined : ¬ GoesOn ⟨i, r.last⟩ next := hnext
      rw [if_neg hnext, if_neg hjoined]
      exact hpush r.last _

theorem prepend_of_isChain (h : (r :: rs).IsChain fun r next => ¬ r.GoesOn next) :
    prepend r rs = r :: rs := by
  cases rs with
  | nil => rfl
  | cons next rest => exact if_neg (List.isChain_cons_cons.1 h).1

/-- In front of runs that cannot be joined, a run leaves nothing to be joined. -/
theorem isChain_prepend (r : IndexRun) (h : rs.IsChain fun r next => ¬ r.GoesOn next) :
    (prepend r rs).IsChain fun r next => ¬ r.GoesOn next := by
  cases rs with
  | nil => exact .singleton r
  | cons next rest =>
    rw [prepend]
    split
    · -- the joined run ends where the next one did, so what follows does not go on from it
      have hend : ∀ {z : IndexRun}, ¬ next.GoesOn z → ¬ GoesOn ⟨r.first, next.last⟩ z := id
      exact h.imp_head hend
    · rename_i hnot
      exact h.cons_cons hnot

theorem length_prepend_le (r : IndexRun) (rs : List IndexRun) :
    (prepend r rs).length ≤ rs.length + 1 := by
  cases rs with
  | nil => exact Nat.le_refl _
  | cons next rest =>
    rw [prepend]
    split
    · exact Nat.le_succ _
    · exact Nat.le_refl _

/-- The characters that runs take, with one between any two of them and one more. -/
def width (rs : List IndexRun) : Nat := (rs.map fun r => r.chars.length + 1).sum

theorem width_cons (r : IndexRun) (rs : List IndexRun) :
    width (r :: rs) = r.chars.length + 1 + width rs := List.sum_cons

/-- Two runs that are joined do not take more characters than apart. -/
theorem width_prepend_le (r : IndexRun) (rs : List IndexRun) :
    width (prepend r rs) ≤ r.chars.length + 1 + width rs := by
  cases rs with
  | nil => exact Nat.le_refl _
  | cons next rest =>
    rw [prepend]
    split
    · have hjoined : (chars ⟨r.first, next.last⟩).length ≤
          r.first.digits.length + 1 + next.last.digits.length := length_chars_le _
      have hfirst := r.length_digits_first_le
      have hlast := next.length_digits_last_le
      rw [width_cons, width_cons]
      omega
    · exact Nat.le_refl _

theorem length_intercalate_chars (h : rs ≠ []) :
    ([','].intercalate (rs.map chars)).length + 1 = width rs := by
  induction rs with
  | nil => exact absurd rfl h
  | cons r rest ih =>
    cases rest with
    | nil => simp [width]
    | cons next rest =>
      rw [width_cons, ← ih (List.cons_ne_nil next rest), List.map_cons, List.map_cons,
        List.intercalate_cons_cons, List.length_append, List.length_append, List.length_singleton]
      omega

end IndexRun

/-! ### The runs of a list -/

section Runs

variable {r : IndexRun} {runs : List IndexRun} {is : List Index}

/-- **Pushing the indices of a run prepends the run.** -/
theorem indexRuns_append (h : r.first ≤ r.last) (is : List Index) :
    indexRuns (r.indices ++ is) = r.prepend (indexRuns is) := by
  obtain ⟨first, last⟩ := r
  -- by induction on how many indices the run has after its first one
  generalize hlength : last.toNat - first.toNat = n
  have hle : first.toNat ≤ last.toNat := UInt64.le_iff_toNat_le.1 h
  induction n generalizing first with
  | zero =>
    obtain rfl : first = last := by
      rw [← UInt64.toNat_inj]
      omega
    rw [IndexRun.indices_single, List.singleton_append, indexRuns_cons, IndexRun.push_eq_prepend]
  | succ n ih =>
    have hlast : last.toNat < UInt64.size := last.toNat_lt
    have hne : first ≠ Index.greatest := by
      rintro rfl
      have hgreatest : Index.greatest.toNat = UInt64.size - 1 := rfl
      omega
    have hnext : (first + 1).toNat = first.toNat + 1 := Index.toNat_add_one hne
    have hle' : first + 1 ≤ last := by
      rw [UInt64.le_iff_toNat_le]
      omega
    have hgoesOn : IndexRun.GoesOn ⟨first, first⟩ ⟨first + 1, last⟩ := hnext.symm
    rw [IndexRun.indices_cons (r := ⟨first + 1, last⟩) hne rfl hle', List.cons_append,
      indexRuns_cons, ih (first + 1) hle' (by omega) (by omega), IndexRun.push_prepend hgoesOn]

/-- The runs of what some runs stand for are these runs, joined wherever possible. -/
theorem indexRuns_flatMap_indices (h : ∀ r ∈ runs, r.first ≤ r.last) :
    indexRuns (runs.flatMap IndexRun.indices) = runs.foldr IndexRun.prepend [] := by
  induction runs with
  | nil => rfl
  | cons r rest ih =>
    obtain ⟨hr, hrest⟩ := List.forall_mem_cons.1 h
    rw [List.flatMap_cons, indexRuns_append hr, ih hrest, List.foldr_cons]

/-- No two neighbours among the runs of a list can be joined. -/
theorem isChain_indexRuns (is : List Index) :
    (indexRuns is).IsChain fun r next => ¬ r.GoesOn next := by
  induction is with
  | nil => exact .nil
  | cons i is ih =>
    rw [indexRuns_cons, IndexRun.push_eq_prepend]
    exact IndexRun.isChain_prepend _ ih

/-- Runs of which no two neighbours can be joined are the runs of what they stand for. -/
theorem eq_indexRuns_of_isChain (h : ∀ r ∈ runs, r.first ≤ r.last)
    (hchain : runs.IsChain fun r next => ¬ r.GoesOn next) :
    runs = indexRuns (runs.flatMap IndexRun.indices) := by
  rw [indexRuns_flatMap_indices h]
  induction runs with
  | nil => rfl
  | cons r rest ih =>
    rw [List.foldr_cons, ← ih (List.forall_mem_cons.1 h).2 hchain.tail,
      IndexRun.prepend_of_isChain hchain]

theorem length_indexRuns_le (h : ∀ r ∈ runs, r.first ≤ r.last) :
    (indexRuns (runs.flatMap IndexRun.indices)).length ≤ runs.length := by
  rw [indexRuns_flatMap_indices h]
  induction runs with
  | nil => exact Nat.le_refl _
  | cons r rest ih =>
    have hrest := ih (List.forall_mem_cons.1 h).2
    have hstep := r.length_prepend_le (rest.foldr IndexRun.prepend [])
    rw [List.foldr_cons, List.length_cons]
    omega

theorem width_indexRuns_le (h : ∀ r ∈ runs, r.first ≤ r.last) :
    IndexRun.width (indexRuns (runs.flatMap IndexRun.indices)) ≤ IndexRun.width runs := by
  rw [indexRuns_flatMap_indices h]
  induction runs with
  | nil => exact Nat.le_refl _
  | cons r rest ih =>
    have hrest := ih (List.forall_mem_cons.1 h).2
    have hstep := r.width_prepend_le (rest.foldr IndexRun.prepend [])
    rw [List.foldr_cons, IndexRun.width_cons]
    omega

/-- The text of runs that were joined wherever possible is not longer than that of the runs. -/
theorem length_intercalate_indexRuns_le (h : ∀ r ∈ runs, r.first ≤ r.last) :
    ([','].intercalate ((indexRuns (runs.flatMap IndexRun.indices)).map IndexRun.chars)).length ≤
      ([','].intercalate (runs.map IndexRun.chars)).length := by
  by_cases his : runs.flatMap IndexRun.indices = []
  · rw [his]
    exact Nat.zero_le _
  · have hne : runs ≠ [] := by
      rintro rfl
      exact his rfl
    have hwidth := width_indexRuns_le h
    rw [← IndexRun.length_intercalate_chars (indexRuns_ne_nil his),
      ← IndexRun.length_intercalate_chars hne] at hwidth
    omega

end Runs

/-! ### Texts of a list -/

/-- A text shows a list of indices by some runs: the texts of the runs have commas between them, and
the runs stand for the list, one after the other. -/
structure ShowsRuns (text : String) (runs : List IndexRun) (is : List Index) : Prop where
  text_eq : ∃ parts, List.Forall₂ IndexRun.Shows parts runs ∧ text.toList = [','].intercalate parts
  indices_eq : runs.flatMap IndexRun.indices = is

theorem showsRuns_iff {text : String} {runs : List IndexRun} {is : List Index} :
    ShowsRuns text runs is ↔
      (∀ r ∈ runs, r.first ≤ r.last) ∧
        text = String.ofList ([','].intercalate (runs.map IndexRun.chars)) ∧
        runs.flatMap IndexRun.indices = is := by
  rw [← String.toList_inj, String.toList_ofList]
  constructor
  · rintro ⟨⟨parts, hparts, htext⟩, his⟩
    obtain ⟨hle, rfl⟩ := IndexRun.forall₂_shows_iff.1 hparts
    exact ⟨hle, htext, his⟩
  · rintro ⟨hle, htext, his⟩
    exact ⟨⟨_, IndexRun.forall₂_shows_iff.2 ⟨hle, rfl⟩, htext⟩, his⟩

/-- A list is shown by its runs. -/
theorem showsRuns_formatIndices (is : List Index) :
    ShowsRuns (formatIndices is) (indexRuns is) is :=
  showsRuns_iff.2 ⟨fun _ => first_le_last_of_mem_indexRuns, rfl, flatMap_indices_indexRuns is⟩

/-- Only the empty list is shown as nothing. -/
theorem formatIndices_eq_empty_iff {is : List Index} : formatIndices is = "" ↔ is = [] := by
  constructor
  · intro htext
    by_contra hne
    have hsplit := splitOn_comma_formatIndices hne
    rw [htext] at hsplit
    have hnil : [] ∈ (indexRuns is).map IndexRun.chars := by
      rw [← hsplit]
      exact List.mem_singleton_self []
    obtain ⟨r, -, hchars⟩ := List.mem_map.1 hnil
    exact r.chars_ne_nil hchars
  · rintro rfl
    rfl

/-- Lists that are shown in the same way are the same. -/
theorem eq_of_formatIndices_eq {is js : List Index} (h : formatIndices is = formatIndices js) :
    is = js := by
  by_cases his : is = []
  · have hjs : js = [] := by rw [← formatIndices_eq_empty_iff, ← h, his]; rfl
    rw [his, hjs]
  · have hjs : js ≠ [] := by
      rw [← formatIndices_eq_empty_iff.ne, ← h]
      exact formatIndices_eq_empty_iff.not.2 his
    -- what is shown is read as the ranges of the runs, and a range tells its run
    have hread := RangeSet.parse_formatIndices his
    rw [h, RangeSet.parse_formatIndices hjs, Except.ok.injEq, RangeSet.mk.injEq] at hread
    have hinj : Function.Injective IndexRun.range := by
      rintro ⟨first, last⟩ ⟨first', last'⟩ heq
      simpa [IndexRun.range] using heq
    rw [← flatMap_indices_indexRuns is, ← flatMap_indices_indexRuns js,
      List.map_injective_iff.2 hinj hread]

/-- **A list is shown by its runs, and in no shorter way.**  What is shown of a list is the texts of
some runs that stand for it, of which no two neighbours can be joined; no other text that shows the
list has fewer runs or fewer characters, and none whose runs cannot be joined is different.  Only the
empty list is shown as nothing, and what is shown tells the list. -/
theorem formatted_indices_are_shortest (is : List Index) :
    (∃ runs, ShowsRuns (formatIndices is) runs is ∧
      (runs.IsChain fun r next => r.last.toNat + 1 ≠ next.first.toNat) ∧
      ∀ text others, ShowsRuns text others is →
        runs.length ≤ others.length ∧ (formatIndices is).length ≤ text.length) ∧
    (∀ text runs, ShowsRuns text runs is →
      (runs.IsChain fun r next => r.last.toNat + 1 ≠ next.first.toNat) →
      text = formatIndices is) ∧
    (formatIndices is = "" ↔ is = []) ∧
    ∀ js, formatIndices js = formatIndices is → js = is := by
  refine ⟨⟨indexRuns is, showsRuns_formatIndices is, isChain_indexRuns is, ?_⟩, ?_,
    formatIndices_eq_empty_iff, fun js => eq_of_formatIndices_eq⟩
  · intro text others hshows
    obtain ⟨hle, rfl, rfl⟩ := showsRuns_iff.1 hshows
    refine ⟨length_indexRuns_le hle, ?_⟩
    rw [formatIndices, String.length_ofList, String.length_ofList]
    exact length_intercalate_indexRuns_le hle
  · intro text runs hshows hchain
    obtain ⟨hle, rfl, rfl⟩ := showsRuns_iff.1 hshows
    rw [formatIndices, ← eq_indexRuns_of_isChain hle hchain]

/-- Indices out of order and repeated, and the two greatest ones before zero. -/
example : formatIndices [3, 2, 2, 3, 4, 18446744073709551614, 18446744073709551615, 0] =
    "3,2,2-4,18446744073709551614-18446744073709551615,0" := by decide

end DoctestSelection
