import DoctestSelection.Proofs.Range.Runs
import DoctestSelection.Proofs.Selection.Wanted

/-!
# Printed selections

The report of a selection prints the indices of the examples that are left of a test.  Whether an
example is kept goes by its index alone, so the examples with an index that is printed are those
that were kept, and the printed indices are ranges that keep the same examples of the full test
again.  A test of which no example is left was not selected by any filter; nothing is printed for
it, and nothing reads as the range of every index.

## Main results

* `FilterSet.keeps_iff_index_mem` — an example is kept when its index is that of a kept one.
* `FilterSet.keep?_of_contains_iff` — ranges of the indices that are left keep the same.
* `printed_indices_select_again` — **printed indices are a filter that selects the same again.**
-/

namespace DoctestSelection

namespace FilterSet

variable {fs : FilterSet} {t : Test} {e : Example} {pattern : NamePattern} {ranges : RangeSet}

/-- Examples with the same index are kept or left out together. -/
theorem keeps_congr_of_index_eq {e' : Example} (h : e.index = e'.index) :
    fs.Keeps t e ↔ fs.Keeps t e' := by
  unfold Keeps Wants
  rw [h]

/-- An example of a test is kept when its index is that of a kept one. -/
theorem keeps_iff_index_mem (he : e ∈ t.examples) :
    fs.Keeps t e ↔ e.index ∈ (t.withExamples (fs.kept t)).indices := by
  have hmem : ∀ e', e' ∈ fs.kept t ↔ e' ∈ t.examples ∧ fs.Keeps t e' := by
    intro e'
    rw [kept, List.mem_filter, decide_eq_true_iff]
  rw [Test.indices, Test.withExamples_examples, List.mem_map]
  constructor
  · intro hkeeps
    exact ⟨e, (hmem e).2 ⟨he, hkeeps⟩, rfl⟩
  · rintro ⟨e', he', hindex⟩
    exact (keeps_congr_of_index_eq hindex).1 ((hmem e').1 he').2

/-- A single filter with ranges wants the examples of the tests of its name that lie in them. -/
theorem wants_single_iff :
    Wants ⟨[⟨pattern, some ranges⟩]⟩ t e ↔
      pattern.accepts t.name = true ∧ ranges.contains e.index = true := by
  unfold Wants
  simp [RangeSet.contains_iff]

/-- Ranges that hold the indices of what is left of a test, and no others, keep the same of it under
any name that matches. -/
theorem keep?_of_contains_iff {s : Selected} (hs : fs.keep? t = some s) (hne : s.test.examples ≠ [])
    (hname : pattern.accepts t.name = true)
    (hranges : ∀ i, ranges.contains i = true ↔ i ∈ s.test.indices) :
    keep? ⟨[⟨pattern, some ranges⟩]⟩ t = some s := by
  obtain ⟨-, rfl⟩ := keep?_eq_some_iff.1 hs
  have hkept : kept ⟨[⟨pattern, some ranges⟩]⟩ t = fs.kept t := by
    refine List.filter_congr fun e he => ?_
    rw [decide_eq_decide, keeps_iff_wants rfl, wants_single_iff, and_iff_right hname, hranges,
      keeps_iff_index_mem he]
  rw [keep?_eq_some_iff, hkept]
  exact ⟨.inr hne, rfl⟩

end FilterSet

/-- **Printed indices are a filter that selects the same again.**  If examples of a test are left,
the printed indices are read, as ranges that hold the indices of these examples and no others; with
any name pattern that matches they keep the same of the test, as a copy if it was one and as the
test itself otherwise.  If no example is left, there was no filter; nothing is printed, and read as
every index. -/
theorem printed_indices_select_again (fs : FilterSet) (t : Test) (s : Selected)
    (hs : fs.keep? t = some s) :
    (s.test.examples ≠ [] →
      ∃ ranges, RangeSet.parse (formatIndices s.test.indices) = .ok ranges ∧
        (∀ i, ranges.contains i = true ↔ ∃ e ∈ s.test.examples, e.index = i) ∧
        ∀ pattern : NamePattern, pattern.accepts t.name = true →
          FilterSet.keep? ⟨[⟨pattern, some ranges⟩]⟩ t = some s) ∧
    (s.test.examples = [] →
      fs.isEmpty = true ∧ formatIndices s.test.indices = "" ∧
        ∃ ranges, RangeSet.parse (formatIndices s.test.indices) = .ok ranges ∧
          ∀ i, ranges.contains i = true) := by
  constructor
  · intro hne
    have hindices : s.test.indices ≠ [] := by simpa [Test.indices] using hne
    refine ⟨_, RangeSet.parse_formatIndices hindices, ?_, ?_⟩
    · intro i
      rw [RangeSet.contains_range_indexRuns, Test.indices, List.mem_map]
    · intro pattern hname
      exact FilterSet.keep?_of_contains_iff hs hne hname fun i => RangeSet.contains_range_indexRuns
  · intro hnil
    have hindices : s.test.indices = [] := by rw [Test.indices, hnil, List.map_nil]
    obtain ⟨hleft, rfl⟩ := FilterSet.keep?_eq_some_iff.1 hs
    rw [hindices]
    exact ⟨hleft.resolve_right (not_not_intro hnil), rfl, .all, rfl, RangeSet.contains_all⟩

/-- A test whose indices are out of order, repeated and as great as can be, of which the two
examples with one index are left out; and a test without examples. -/
theorem printed_indices_select_again_of_unordered_test :
    let t : Test := { name := "m.f", examples :=
      [⟨7, "a", "", none⟩, ⟨18446744073709551614, "b", "", none⟩,
        ⟨18446744073709551615, "c", "", none⟩, ⟨2, "d", "", none⟩, ⟨0, "e", "", none⟩,
        ⟨7, "f", "", none⟩, ⟨0, "g", "", none⟩, ⟨1, "h", "", none⟩] }
    let s : Selected := ⟨t.withExamples
      [⟨18446744073709551614, "b", "", none⟩, ⟨18446744073709551615, "c", "", none⟩,
        ⟨2, "d", "", none⟩, ⟨0, "e", "", none⟩, ⟨0, "g", "", none⟩, ⟨1, "h", "", none⟩], true⟩
    let fs : FilterSet :=
      ⟨[⟨⟨"f", by decide, ⟨'f', by decide⟩⟩, some ⟨[⟨8, none⟩, ⟨0, some 3⟩]⟩⟩]⟩
    let pattern : NamePattern := ⟨"*m*", by decide, ⟨'m', by decide⟩⟩
    (fs.keep? t = some s ∧
      formatIndices s.test.indices = "18446744073709551614-18446744073709551615,2,0,0-1" ∧
      ∃ ranges, RangeSet.parse (formatIndices s.test.indices) = .ok ranges ∧
        FilterSet.keep? ⟨[⟨pattern, some ranges⟩]⟩ t = some s) ∧
    FilterSet.empty.keep? (Test.ofCount "m.f" 0) = some ⟨Test.ofCount "m.f" 0, false⟩ ∧
      ∃ ranges, RangeSet.parse (formatIndices (Test.ofCount "m.f" 0).indices) = .ok ranges ∧
        ranges.contains 5 = true := by
  intro t s fs pattern
  constructor
  · have hs : fs.keep? t = some s := by decide
    obtain ⟨ranges, hparse, -, hagain⟩ :=
      (printed_indices_select_again fs t s hs).1 (List.cons_ne_nil _ _)
    exact ⟨hs, by decide, ranges, hparse, hagain pattern (by decide)⟩
  · have hs : FilterSet.empty.keep? (Test.ofCount "m.f" 0) = some ⟨Test.ofCount "m.f" 0, false⟩ :=
      rfl
    obtain ⟨-, -, ranges, hparse, hall⟩ := (printed_indices_select_again _ _ _ hs).2 rfl
    exact ⟨hs, ranges, hparse, hall 5⟩

end DoctestSelection
