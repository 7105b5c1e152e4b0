import DoctestSelection.Proofs.Range.RoundTrip
import DoctestSelection.Range.Runs

/-!
# Runs of indices

A list of indices is shown as its runs.  A run stands for the indices from its first to its last
one, and the runs of a list, one after the other, stand for the list itself.  What is shown of a run
is a range with both of its bounds, so the text of a list that is not empty reads as the ranges of
its runs, and these hold the indices of the list and no others.  The empty list is the exception:
it is shown as nothing, which reads as the range of every index.

## Main definitions

* `IndexRun.indices` — the indices of a run, one by one.
* `IndexRun.range` — a run as a range.

## Main results

* `flatMap_indices_indexRuns` — **the runs of a list stand for the list.**
* `RangeSet.parse_formatIndices` — **shown indices read as the ranges of their runs.**
-/

namespace DoctestSelection

open Text

theorem Index.toNat_add_one {i : Index} (h : i ≠ greatest) : (i + 1).toNat = i.toNat + 1 := by
  have hne : i.toNat ≠ greatest.toNat := fun he => h (UInt64.toNat_inj.1 he)
  have hgreatest : greatest.toNat = 18446744073709551615 := rfl
  have hlt : i.toNat < 18446744073709551616 := i.toNat_lt
  have hone : (1 : Index).toNat = 1 := rfl
  rw [UInt64.toNat_add, hone]
  omega

/-! ### What a run stands for -/

namespace IndexRun

variable {r : IndexRun} {i : Index}

/-- The indices of a run, from its first to its last one. -/
def indices (r : IndexRun) : List Index :=
  (List.range' r.first.toNat (r.last.toNat + 1 - r.first.toNat)).map UInt64.ofNat

theorem mem_indices : i ∈ r.indices ↔ r.first ≤ i ∧ i ≤ r.last := by
  rw [indices, List.mem_map, UInt64.le_iff_toNat_le, UInt64.le_iff_toNat_le]
  constructor
  · rintro ⟨n, hn, rfl⟩
    rw [List.mem_range'_1] at hn
    have hlast : r.last.toNat < UInt64.size := r.last.toNat_lt
    rw [UInt64.toNat_ofNat_of_lt' (by omega)]
    omega
  · intro h
    refine ⟨i.toNat, ?_, UInt64.ofNat_toNat⟩
    rw [List.mem_range'_1]
    omega

theorem indices_single (i : Index) : indices ⟨i, i⟩ = [i] := by
  have hlength : i.toNat + 1 - i.toNat = 1 := by omega
  rw [indices, hlength, List.range'_one, List.map_singleton, UInt64.ofNat_toNat]

/-- A run that goes on from an index, with the index in front of it. -/
theorem indices_cons (hi : i ≠ Index.greatest) (hnext : i + 1 = r.first) (hr : r.first ≤ r.last) :
    indices ⟨i, r.last⟩ = i :: r.indices := by
  have hfirst : r.first.toNat = i.toNat + 1 := by rw [← hnext, Index.toNat_add_one hi]
  rw [UInt64.le_iff_toNat_le] at hr
  have hlength : r.last.toNat + 1 - i.toNat = (r.last.toNat + 1 - r.first.toNat) + 1 := by omega
  rw [indices, hlength, List.range'_succ, List.map_cons, UInt64.ofNat_toNat, ← hfirst, indices]

/-- An index in front of some runs: it goes into the first of them, or is a run of its own. -/
theorem push_cases (i : Index) (rs : List IndexRun) :
    push i rs = ⟨i, i⟩ :: rs ∨
      ∃ r rest, rs = r :: rest ∧ i ≠ Index.greatest ∧ i + 1 = r.first ∧
        push i rs = ⟨i, r.last⟩ :: rest := by
  cases rs with
  | nil => exact .inl rfl
  | cons r rest =>
    by_cases h : i ≠ Index.greatest ∧ i + 1 = r.first
    · exact .inr ⟨r, rest, rfl, h.1, h.2, if_pos h⟩
    · exact .inl (if_neg h)

end IndexRun

/-- No run of a list is reversed. -/
theorem first_le_last_of_mem_indexRuns {is : List Index} {r : IndexRun} (h : r ∈ indexRuns is) :
    r.first ≤ r.last := by
  induction is generalizing r with
  | nil => exact absurd h List.not_mem_nil
  | cons i is ih =>
    rw [indexRuns_cons] at h
    rcases IndexRun.push_cases i (indexRuns is) with hpush | ⟨next, rest, hruns, hi, hnext, hpush⟩
    · rw [hpush, List.mem_cons] at h
      rcases h with rfl | h
      · exact UInt64.le_refl i
      · exact ih h
    · rw [hpush, List.mem_cons] at h
      rcases h with rfl | h
      · have hle : next.first ≤ next.last := ih (hruns ▸ List.mem_cons_self)
        have hsucc : next.first.toNat = i.toNat + 1 := by rw [← hnext, Index.toNat_add_one hi]
        rw [UInt64.le_iff_toNat_le] at hle
        show i ≤ next.last
        rw [UInt64.le_iff_toNat_le]
        omega
      · exact ih (hruns ▸ List.mem_cons_of_mem next h)

/-- **The runs of a list stand for the list**, its order and its repetitions included. -/
theorem flatMap_indices_indexRuns (is : List Index) :
    (indexRuns is).flatMap IndexRun.indices = is := by
  induction is with
  | nil => rfl
  | cons i is ih =>
    rw [indexRuns_cons]
    rcases IndexRun.push_cases i (indexRuns is) with hpush | ⟨next, rest, hruns, hi, hnext, hpush⟩
    · rw [hpush, List.flatMap_cons, ih, IndexRun.indices_single, List.singleton_append]
    · have hle : next.first ≤ next.last :=
        first_le_last_of_mem_indexRuns (hruns ▸ List.mem_cons_self)
      rw [hruns, List.flatMap_cons] at ih
      rw [hpush, List.flatMap_cons, IndexRun.indices_cons hi hnext hle, List.cons_append, ih]

theorem indexRuns_ne_nil {is : List Index} (h : is ≠ []) : indexRuns is ≠ [] := by
  intro hnil
  have his := flatMap_indices_indexRuns is
  rw [hnil] at his
  exact h his.symm

/-! ### What the text of a run reads as -/

namespace IndexRun

/-- The range that a run fills. -/
def range (r : IndexRun) : IndexRange := ⟨r.first, some r.last⟩

theorem contains_range {r : IndexRun} {i : Index} : r.range.contains i = true ↔ i ∈ r.indices := by
  rw [IndexRange.contains_iff, mem_indices]
  simp [range]

/-- A run is spelled by its text as the range that it fills. -/
theorem spells_chars (r : IndexRun) : IndexRange.Spells r.chars r.range := by
  unfold chars
  split
  · rename_i hsame
    show IndexRange.Spells r.first.digits ⟨r.first, some r.last⟩
    rw [← hsame]
    exact .number r.first.spells_digits
  · exact IndexRange.spells_of_bounds (.number r.first.spells_digits) (.number r.last.spells_digits)

theorem isDigit_or_eq_of_mem_chars {r : IndexRun} {c : Char} (h : c ∈ r.chars) :
    c.isDigit = true ∨ c = '-' := by
  unfold chars at h
  split at h
  · exact .inl (Index.isDigit_of_mem_digits h)
  · rw [List.mem_append, List.mem_cons] at h
    rcases h with h | rfl | h
    · exact .inl (Index.isDigit_of_mem_digits h)
    · exact .inr rfl
    · exact .inl (Index.isDigit_of_mem_digits h)

/-- A run is read as the range that it fills. -/
theorem parse_chars (r : IndexRun) : IndexRange.parse (String.ofList r.chars) = .ok r.range :=
  IndexRange.parse_ofList_of_spells r.spells_chars fun _ hc =>
    isBlank_eq_false_of_isDigit_or_eq (isDigit_or_eq_of_mem_chars hc)

end IndexRun

/-! ### What the text of a list reads as -/

theorem splitOn_comma_formatIndices {is : List Index} (h : is ≠ []) :
    (formatIndices is).toList.splitOn ',' = (indexRuns is).map IndexRun.chars := by
  rw [formatIndices, String.toList_ofList]
  exact splitOn_comma_intercalate
    (List.forall_mem_map.2 fun _ _ _ => IndexRun.isDigit_or_eq_of_mem_chars)
    (by simpa using indexRuns_ne_nil h)

/-- **Shown indices read as the ranges of their runs**, if there are any. -/
theorem RangeSet.parse_formatIndices {is : List Index} (h : is ≠ []) :
    RangeSet.parse (formatIndices is) = .ok ⟨(indexRuns is).map IndexRun.range⟩ := by
  have hread : ((indexRuns is).map IndexRun.chars).mapM
      (fun part => IndexRange.parse (String.ofList part)) =
        .ok ((indexRuns is).map IndexRun.range) := by
    rw [mapM_eq_ok_iff, List.forall₂_map_left_iff, List.forall₂_map_right_iff, List.forall₂_same]
    exact fun r _ => IndexRun.parse_chars r
  rw [parse, splitOn_comma_formatIndices h, hread]
  rfl

/-- The ranges of the runs of a list hold the indices of the list. -/
theorem RangeSet.contains_range_indexRuns {is : List Index} {i : Index} :
    (RangeSet.mk ((indexRuns is).map IndexRun.range)).contains i = true ↔ i ∈ is := by
  have hmem : i ∈ (indexRuns is).flatMap IndexRun.indices ↔ i ∈ is := by
    rw [flatMap_indices_indexRuns]
  rw [← hmem, contains_iff, List.mem_flatMap]
  simp only [List.mem_map, exists_exists_and_eq_and, IndexRun.contains_range]

end DoctestSelection
