import DoctestSelection.Proofs.Selection.Counting
import DoctestSelection.Proofs.Selection.Wanted

/-!
# What the counts of a selection account for

A selection keeps or drops each test of a list, and leaves or loses each example: lost examples went
with a test that was dropped or were left out of one that was kept.  The counts that are kept along
the way account for all of them.

Counting afterwards knows only the lists before and after, and takes a test that is left for a
partial one when it was not there before.  A test that is kept as it is was there before, so what
is taken for partial is partial; but a copy that looks like some test of the list is not noticed.
The two ways of counting therefore agree exactly when there is no such copy.

## Main definitions

* `FilterSet.lost fs t` — the examples of a test that are lost.
* `Summary.Accounts` — counts that account for all tests and examples.

## Main results

* `FilterSet.totalSize_eq_add` — **every example is left or lost.**
* `Summary.ofLists_eq_iff` — when counting afterwards gives the counts kept along the way.
* `selection_counts_agree` — **the two ways of counting agree**, and account for everything.
-/

namespace DoctestSelection

/-- Of two conditions of which one implies the other, as many elements have the one as the other
exactly when the other implies the one. -/
theorem countP_eq_countP_iff_of_imp {α : Type} {p q : α → Bool} {l : List α}
    (h : ∀ a ∈ l, p a = true → q a = true) :
    l.countP p = l.countP q ↔ ∀ a ∈ l, q a = true → p a = true := by
  have hp : l.countP p = (l.filter q).countP p := by
    rw [List.countP_filter]
    refine List.countP_congr fun a ha => ?_
    rw [Bool.and_eq_true]
    exact ⟨fun hpa => ⟨hpa, h a ha hpa⟩, And.left⟩
  rw [hp, List.countP_eq_length_filter (p := q), List.countP_eq_length]
  simp only [List.mem_filter, and_imp]

namespace FilterSet

variable {fs : FilterSet} {t : Test} {s : Selected}

/-! ### One test -/

/-- The examples of a test that are lost, in order. -/
def lost (fs : FilterSet) (t : Test) : List Example := t.examples.filter fun e => ¬ fs.Keeps t e

/-- With a test that is dropped all of its examples are lost. -/
theorem lost_of_keep?_eq_none (h : fs.keep? t = none) : fs.lost t = t.examples := by
  have hnone : ∀ e ∈ t.examples, ¬ fs.Keeps t e := (keep?_eq_none_iff.1 h).2
  rw [lost, List.filter_eq_self]
  intro e he
  exact decide_eq_true (hnone e he)

/-- The examples of a test that is kept are those that are left and those that are lost. -/
theorem examples_append_lost_perm (h : fs.keep? t = some s) :
    (s.test.examples ++ fs.lost t).Perm t.examples := by
  obtain ⟨-, rfl⟩ := keep?_eq_some_iff.1 h
  show (fs.kept t ++ fs.lost t).Perm t.examples
  simp only [kept, lost, decide_not]
  exact List.filter_append_perm _ _

/-- A test is partial when it has fewer examples than it had. -/
theorem isPartial_eq_decide_size_lt (h : fs.keep? t = some s) :
    s.isPartial = decide (s.test.size < t.size) := by
  obtain ⟨-, rfl⟩ := keep?_eq_some_iff.1 h
  show decide (fs.kept t ≠ t.examples) = decide ((fs.kept t).length < t.examples.length)
  rw [decide_eq_decide, ne_eq, ← length_kept_eq_iff]
  have hle : (fs.kept t).length ≤ t.examples.length := kept_sublist.length_le
  omega

/-- A test that is kept without being partial is one of the list. -/
theorem mem_of_mem_select {tests : List Test} (hs : s ∈ fs.select tests)
    (hfull : s.isPartial = false) : s.test ∈ tests := by
  obtain ⟨t, ht, hkeep⟩ := List.mem_filterMap.1 hs
  obtain ⟨-, rfl⟩ := keep?_eq_some_iff.1 hkeep
  have hall : fs.kept t = t.examples := by simpa using hfull
  show t.withExamples (fs.kept t) ∈ tests
  rw [hall, Test.withExamples_self]
  exact ht

/-! ### A list of tests -/

theorem countP_isPartial_eq (fs : FilterSet) (tests : List Test) :
    (fs.select tests).countP (·.isPartial) =
      tests.countP fun t => (fs.keep? t).any fun s => s.test.size < t.size := by
  rw [select, List.countP_filterMap]
  refine List.countP_congr fun t _ => ?_
  cases h : fs.keep? t with
  | none => exact Iff.rfl
  | some s =>
    show s.isPartial = true ↔ decide (s.test.size < t.size) = true
    rw [isPartial_eq_decide_size_lt h]

/-- The tests that are left and those that are dropped are all tests. -/
theorem length_select_add (fs : FilterSet) (tests : List Test) :
    (fs.select tests).length + tests.countP (fun t => (fs.keep? t).isNone) = tests.length := by
  rw [select, List.length_filterMap_eq_countP,
    List.length_eq_countP_add_countP fun t => (fs.keep? t).isSome]
  congr 1
  refine List.countP_congr fun t _ => ?_
  cases fs.keep? t <;> simp

/-- **Every example is left or lost.** -/
theorem totalSize_eq_add (fs : FilterSet) (tests : List Test) :
    Summary.totalSize tests =
      Summary.totalSize (fs.selectTests tests) + (tests.flatMap fs.lost).length := by
  induction tests with
  | nil => rfl
  | cons t ts ih =>
    have hsize : Summary.totalSize (t :: ts) = t.size + Summary.totalSize ts := rfl
    rw [hsize, ih, List.flatMap_cons, List.length_append]
    cases h : fs.keep? t with
    | none =>
      have hlost : (fs.lost t).length = t.size := by rw [lost_of_keep?_eq_none h, Test.size]
      rw [selectTests_cons_of_none h]
      omega
    | some s =>
      have hlost : s.test.size + (fs.lost t).length = t.size := by
        rw [Test.size, ← List.length_append, (examples_append_lost_perm h).length_eq, Test.size]
      have hleft : Summary.totalSize (s.test :: fs.selectTests ts) =
          s.test.size + Summary.totalSize (fs.selectTests ts) := rfl
      rw [selectTests_cons_of_some h, hleft]
      omega

end FilterSet

/-! ### The counts -/

namespace Summary

variable {fs : FilterSet} {tests : List Test}

/-- Counting afterwards gives the counts kept along the way exactly when no copy of a test looks
like one of the list. -/
theorem ofLists_eq_iff :
    ofLists tests (fs.selectTests tests) = (fs.selectWithSummary tests).2 ↔
      ∀ s ∈ fs.select tests, s.isPartial = true → s.test ∉ tests := by
  -- what is not in the list is partial, so only the converse is in question
  have hnew : ∀ s ∈ fs.select tests, (!tests.contains s.test) = true → s.isPartial = true := by
    intro s hs hmem
    by_contra hfull
    have hin : s.test ∈ tests := FilterSet.mem_of_mem_select hs (by simpa using hfull)
    simp [hin] at hmem
  have hcount : (fs.selectTests tests).countP (fun t => !tests.contains t) =
      (fs.select tests).countP fun s => !tests.contains s.test := by
    rw [FilterSet.selectTests, List.countP_map]
    rfl
  have hlength : (fs.selectTests tests).length = (fs.select tests).length := by
    rw [FilterSet.selectTests, List.length_map]
  rw [FilterSet.selectWithSummary_snd, ofLists, hcount, hlength, Summary.mk.injEq]
  simp only [true_and, and_true]
  rw [countP_eq_countP_iff_of_imp hnew]
  simp

/-- Counts that account for all tests of a list and for all of their examples. -/
structure Accounts (summary : Summary) (fs : FilterSet) (tests : List Test) : Prop where
  /-- The partial tests are those that are kept with fewer examples than they had. -/
  testsPartial : summary.testsPartial =
    tests.countP fun t => (fs.keep? t).any fun s => s.test.size < t.size
  /-- A test that is not left was dropped. -/
  testsSelected : summary.testsSelected + tests.countP (fun t => (fs.keep? t).isNone) =
    summary.testsDiscovered
  /-- An example that is not left was lost, and none is left that was not there. -/
  examplesSelected : summary.examplesSelected ≤ summary.examplesDiscovered ∧
    summary.examplesDiscovered - summary.examplesSelected = (tests.flatMap fs.lost).length
  testsPartial_le : summary.testsPartial ≤ summary.testsSelected
  testsSelected_le : summary.testsSelected ≤ summary.testsDiscovered

theorem accounts_selectWithSummary (fs : FilterSet) (tests : List Test) :
    (fs.selectWithSummary tests).2.Accounts fs tests := by
  rw [FilterSet.selectWithSummary_snd]
  have htests := fs.length_select_add tests
  have hexamples := fs.totalSize_eq_add tests
  constructor
  case testsPartial => exact fs.countP_isPartial_eq tests
  case testsSelected => exact htests
  case examplesSelected => constructor <;> dsimp only <;> omega
  case testsPartial_le => exact List.countP_le_length
  case testsSelected_le => dsimp only; omega

end Summary

/-- **The two ways of counting agree.**  Counting afterwards gives the five counts that are kept
along the way, as long as no copy of a test looks like one of the list and only then.  Each test is
left or dropped, and each example is left or lost: with its test when that is dropped, and out of
what was there when the test is kept. -/
theorem selection_counts_agree (fs : FilterSet) (tests : List Test) :
    let selected := (fs.selectWithSummary tests).1
    let summary := (fs.selectWithSummary tests).2
    (Summary.ofLists tests (selected.map (·.test)) = summary ↔
      ∀ s ∈ selected, s.isPartial = true → s.test ∉ tests) ∧
    summary.Accounts fs tests ∧
    ∀ t, (fs.keep? t = none → fs.lost t = t.examples) ∧
      ∀ s, fs.keep? t = some s → (s.test.examples ++ fs.lost t).Perm t.examples := by
  intro selected summary
  refine ⟨?_, Summary.accounts_selectWithSummary fs tests, fun t => ?_⟩
  · show Summary.ofLists tests ((fs.selectWithSummary tests).1.map (·.test)) = _ ↔
      ∀ s ∈ (fs.selectWithSummary tests).1, _
    rw [FilterSet.map_test_selectWithSummary, FilterSet.selectWithSummary_fst]
    exact Summary.ofLists_eq_iff
  · exact ⟨FilterSet.lost_of_keep?_eq_none, fun s => FilterSet.examples_append_lost_perm⟩

/-- A list with a repeated test that is trimmed, one that is kept as it is, one of which no example
is wanted, one without examples, and one that no filter applies to. -/
theorem selection_counts_agree_of_repeated_test :
    let fs : FilterSet := ⟨[⟨⟨"f", by decide, ⟨'f', by decide⟩⟩, some ⟨[⟨1, some 2⟩]⟩⟩]⟩
    let tests := [.ofCount "m.f" 4, .ofCount "m.f" 4,
      { name := "n.f", examples := [⟨1, "a", "", none⟩] },
      .ofCount "o.f" 1, .ofCount "p.f" 0, .ofCount "m.g" 3]
    (∀ s ∈ (fs.selectWithSummary tests).1, s.isPartial = true → s.test ∉ tests) ∧
    Summary.ofLists tests ((fs.selectWithSummary tests).1.map (·.test)) = ⟨6, 3, 2, 13, 5⟩ := by
  intro fs tests
  have hnew : ∀ s ∈ (fs.selectWithSummary tests).1, s.isPartial = true → s.test ∉ tests := by decide
  have hcounts : (fs.selectWithSummary tests).2 = ⟨6, 3, 2, 13, 5⟩ := by decide
  exact ⟨hnew, ((selection_counts_agree fs tests).1.2 hnew).trans hcounts⟩

/-- A copy that looks like a test of the list is not counted as partial afterwards. -/
example :
    let fs : FilterSet := ⟨[⟨⟨"f", by decide, ⟨'f', by decide⟩⟩, some ⟨[⟨0, some 0⟩]⟩⟩]⟩
    let tests := [.ofCount "f" 2, .ofCount "f" 1]
    (fs.selectWithSummary tests).2.testsPartial = 1 ∧
      (Summary.ofLists tests (fs.selectTests tests)).testsPartial = 0 := by decide

end DoctestSelection
