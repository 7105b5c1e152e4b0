import DoctestSelection.Selection.Basic
import Mathlib.Data.List.Forall2

/-!
# What a filter set keeps

An example is wanted when some filter accepts the name of its test and has no ranges, or has a
range with the index of the example in it.  A filter set keeps of a test the wanted examples, and a
set without filters keeps all of them.  Both decisions go by what the test and the example carry,
never by the place of an example among others, so they are the same for a copy of the test.

`FilterSet.keep?` decides by the filters that apply to the name and compares lengths to find out
whether anything was left out; `FilterSet.keep?_eq` says what comes of it in one equation, from
which everything else about selection is derived.

## Main definitions

* `FilterSet.Wants fs t e` — the rule for one example of a test.
* `FilterSet.Keeps fs t e` — the same, with every example kept by the set without filters.
* `FilterSet.kept fs t` — the examples that are kept of a test.
* `KeptFrom fs t s` — how a test that is left relates to the test it comes from.

## Main results

* `FilterSet.keep?_eq` — **what is kept of a test.**
* `select_keeps_wanted` — **selection keeps exactly what the filters say**, test by test.
-/

namespace DoctestSelection

namespace FilterSet

variable {fs : FilterSet} {t : Test} {e : Example}

/-! ### The rule for one example -/

/-- An example of a test is wanted when some filter accepts the name of the test and has no ranges,
or has a range with the index of the example in it. -/
def Wants (fs : FilterSet) (t : Test) (e : Example) : Prop :=
  ∃ f ∈ fs.filters, f.name.accepts t.name = true ∧
    (f.ranges = none ∨
      ∃ s, f.ranges = some s ∧ ∃ r ∈ s.ranges, r.contains e.index = true)

theorem wants_iff : fs.wants t e = true ↔ fs.Wants t e := by
  unfold wants Wants
  simp only [List.any_eq_true, Bool.and_eq_true]
  refine exists_congr fun f => and_congr_right fun _ => and_congr_right fun _ => ?_
  unfold Filter.acceptsIndex
  cases f.ranges <;> simp [RangeSet.contains_iff]

instance : Decidable (fs.Wants t e) := decidable_of_iff _ wants_iff

/-- An example of a test is kept when it is wanted.  Without filters all of them are kept. -/
def Keeps (fs : FilterSet) (t : Test) (e : Example) : Prop := fs.isEmpty = true ∨ fs.Wants t e

instance : Decidable (fs.Keeps t e) := inferInstanceAs (Decidable (_ ∨ _))

theorem keeps_of_isEmpty (h : fs.isEmpty = true) : fs.Keeps t e := .inl h

theorem keeps_iff_wants (h : fs.isEmpty = false) : fs.Keeps t e ↔ fs.Wants t e := by
  simp [Keeps, h]

@[simp] theorem keeps_withExamples (es : List Example) :
    fs.Keeps (t.withExamples es) e ↔ fs.Keeps t e := Iff.rfl

/-! ### What is kept of a test -/

/-- The examples of a test that are kept, in order. -/
def kept (fs : FilterSet) (t : Test) : List Example := t.examples.filter fun e => fs.Keeps t e

theorem kept_of_isEmpty (h : fs.isEmpty = true) : fs.kept t = t.examples :=
  List.filter_eq_self.2 fun _ _ => decide_eq_true (keeps_of_isEmpty h)

theorem kept_eq_examples_iff : fs.kept t = t.examples ↔ ∀ e ∈ t.examples, fs.Keeps t e := by
  simp [kept]

theorem kept_eq_nil_iff : fs.kept t = [] ↔ ∀ e ∈ t.examples, ¬ fs.Keeps t e := by
  simp [kept]

theorem kept_sublist : (fs.kept t).Sublist t.examples := List.filter_sublist

/-- Examples are left out without a change of order, so a list that is no shorter is the same. -/
theorem length_kept_eq_iff : (fs.kept t).length = t.examples.length ↔ fs.kept t = t.examples :=
  ⟨kept_sublist.eq_of_length, congrArg List.length⟩

@[simp] theorem kept_withExamples (es : List Example) :
    fs.kept (t.withExamples es) = es.filter fun e => fs.Keeps t e := rfl

/-- **What is kept of a test.**  A test is dropped when there are filters and they keep nothing of
it; otherwise its kept examples are handed on, and it is partial when these are not all. -/
theorem keep?_eq (fs : FilterSet) (t : Test) :
    fs.keep? t =
      if fs.isEmpty = true ∨ fs.kept t ≠ [] then
        some ⟨t.withExamples (fs.kept t), decide (fs.kept t ≠ t.examples)⟩
      else none := by
  unfold keep?
  by_cases h : fs.isEmpty = true
  · simp [h, kept_of_isEmpty h]
  · -- the applicable filters are asked one by one, which is what `wants` asks of all filters
    have hkept : (t.examples.filter fun e => (fs.matching t.name).any (·.acceptsIndex e.index)) =
        fs.kept t := by
      refine List.filter_congr fun e _ => ?_
      rw [Bool.eq_iff_iff, decide_eq_true_iff, keeps_iff_wants (by simpa using h), ← wants_iff,
        matching, List.any_filter, wants]
    rw [if_neg h]
    simp only [hkept]
    by_cases hnil : fs.kept t = []
    · simp [hnil, h]
    · have hempty : ¬ (fs.kept t).isEmpty = true := by simpa using hnil
      have hcond : fs.isEmpty = true ∨ fs.kept t ≠ [] := .inr hnil
      rw [if_neg hempty, if_pos hcond]
      by_cases hall : fs.kept t = t.examples
      · rw [if_pos (length_kept_eq_iff.2 hall), hall]
        simp
      · rw [if_neg (mt length_kept_eq_iff.1 hall)]
        simp [hall]

theorem keep?_eq_none_iff :
    fs.keep? t = none ↔ fs.isEmpty = false ∧ ∀ e ∈ t.examples, ¬ fs.Keeps t e := by
  rw [keep?_eq, ← kept_eq_nil_iff]
  simp

theorem keep?_eq_some_iff {s : Selected} :
    fs.keep? t = some s ↔
      (fs.isEmpty = true ∨ fs.kept t ≠ []) ∧
        s = ⟨t.withExamples (fs.kept t), decide (fs.kept t ≠ t.examples)⟩ := by
  rw [keep?_eq]
  split
  · rename_i h
    rw [Option.some.injEq, eq_comm, and_iff_right h]
  · rename_i h
    exact iff_of_false nofun fun hs => h hs.1

end FilterSet

/-! ### What is kept of a list of tests -/

/-- How a kept test relates to the test it comes from, if the filters that keep it are not the empty
set: it is the test with its wanted examples, it counts as the same when these are all of them, and
it lost some examples otherwise. -/
structure KeptFrom (fs : FilterSet) (t : Test) (s : Selected) : Prop where
  name : s.test.name = t.name
  filename : s.test.filename = t.filename
  lineno : s.test.lineno = t.lineno
  /-- The examples are the wanted ones, in their order. -/
  examples : s.test.examples = t.examples.filter fun e => fs.Wants t e
  /-- The test is handed on as it is exactly when all of its examples are wanted. -/
  isPartial_eq_false_iff : s.isPartial = false ↔ ∀ e ∈ t.examples, fs.Wants t e
  /-- A test that is handed on as it is has not changed. -/
  test_eq : s.isPartial = false → s.test = t
  /-- A copy has fewer examples. -/
  length_lt : s.isPartial = true → s.test.examples.length < t.examples.length

namespace FilterSet

variable {fs : FilterSet} {t : Test}

theorem kept_eq_filter_wants (h : fs.isEmpty = false) :
    fs.kept t = t.examples.filter fun e => fs.Wants t e := by
  simp only [kept, keeps_iff_wants h]

theorem keptFrom_of_keep? (h : fs.isEmpty = false) {s : Selected} (hs : fs.keep? t = some s) :
    KeptFrom fs t s := by
  obtain ⟨-, rfl⟩ := keep?_eq_some_iff.1 hs
  refine ⟨rfl, rfl, rfl, kept_eq_filter_wants h, ?_, ?_, ?_⟩
  · simp [kept_eq_examples_iff, keeps_iff_wants h]
  · intro hall
    have : fs.kept t = t.examples := by simpa using hall
    rw [this, Test.withExamples_self]
  · intro hpart
    have hne : fs.kept t ≠ t.examples := by simpa using hpart
    exact Nat.lt_of_le_of_ne kept_sublist.length_le (mt length_kept_eq_iff.1 hne)

/-- A test is left exactly when one of its examples is wanted. -/
theorem exists_keep?_eq_some_iff (h : fs.isEmpty = false) :
    (∃ s, fs.keep? t = some s) ↔ ∃ e ∈ t.examples, fs.Wants t e := by
  rw [← Option.ne_none_iff_exists', ne_eq, keep?_eq_none_iff]
  simp [h, keeps_iff_wants h]

/-- The set without filters hands every test on as it is. -/
theorem select_of_isEmpty (h : fs.isEmpty = true) (tests : List Test) :
    fs.select tests = tests.map fun t => ⟨t, false⟩ := by
  rw [select, ← List.filterMap_eq_map]
  refine List.filterMap_congr fun t _ => ?_
  rw [keep?_eq, if_pos (.inl h), kept_of_isEmpty h]
  simp

/-- Filters leave, in order, the tests of which some example is wanted. -/
theorem forall₂_select (h : fs.isEmpty = false) (tests : List Test) :
    List.Forall₂ (KeptFrom fs) (tests.filter fun t => ∃ e ∈ t.examples, fs.Wants t e)
      (fs.select tests) := by
  induction tests with
  | nil => exact .nil
  | cons t ts ih =>
    rw [select_cons]
    by_cases hw : ∃ e ∈ t.examples, fs.Wants t e
    · obtain ⟨s, hs⟩ := (exists_keep?_eq_some_iff h).2 hw
      rw [List.filter_cons_of_pos (by simpa using hw), hs]
      exact .cons (keptFrom_of_keep? h hs) ih
    · have hnone : fs.keep? t = none := by
        rw [Option.eq_none_iff_forall_ne_some]
        exact fun s hs => hw ((exists_keep?_eq_some_iff h).1 ⟨s, hs⟩)
      rw [List.filter_cons_of_neg (by simpa using hw), hnone]
      exact ih

end FilterSet

/-- **Selection keeps exactly what the filters say.**  Without filters every test is handed on as it
is.  With filters a test is left for each test of which some example is wanted, in order, and it has
the wanted examples.  A test without examples is left only by the set without filters. -/
theorem select_keeps_wanted (fs : FilterSet) (tests : List Test) :
    (fs.isEmpty = true → fs.select tests = tests.map fun t => ⟨t, false⟩) ∧
      (fs.isEmpty = false →
        List.Forall₂ (KeptFrom fs) (tests.filter fun t => ∃ e ∈ t.examples, fs.Wants t e)
          (fs.select tests)) ∧
      ∀ t : Test, t.examples = [] → (fs.select [t] = [] ↔ fs.isEmpty = false) := by
  refine ⟨fun h => FilterSet.select_of_isEmpty h tests, fun h => FilterSet.forall₂_select h tests,
    fun t ht => ?_⟩
  have hnone : fs.select [t] = [] ↔ fs.keep? t = none := by
    rw [FilterSet.select_cons, FilterSet.select_nil, List.append_nil]
    cases fs.keep? t <;> simp
  rw [hnone, FilterSet.keep?_eq_none_iff, ht]
  simp

end DoctestSelection
