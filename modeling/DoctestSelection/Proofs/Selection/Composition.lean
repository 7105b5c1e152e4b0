import DoctestSelection.Proofs.Selection.Wanted

/-!
# Selecting from a selection

A selection is a list of tests again, and can be selected from.  What is kept of a copy of a test
depends on its name and on the indices of the examples left in it, and these are the ones of the
test it comes from; so two selections in a row keep what both filter sets keep, in either order,
and a selection loses nothing when it is made again.

Presence is not a matter of examples alone: a test without examples is kept by the set without
filters, and so stays through two selections only if neither set has filters.

## Main definitions

* `FilterSet.keepTest? fs t` — the test that is left of a test.
* `FilterSet.keptByBoth fs gs t` — the examples of a test that two sets keep.

## Main results

* `FilterSet.keepTest?_bind` — what two selections in a row leave of a test.
* `FilterSet.keep?_keepTest?` — what is left of a test is kept as it is.
* `select_composes` — **selections compose as intersections.**
-/

namespace DoctestSelection

namespace FilterSet

variable {fs gs : FilterSet} {t : Test}

/-! ### One test -/

/-- The test that is left of a test, if one is left. -/
def keepTest? (fs : FilterSet) (t : Test) : Option Test := (fs.keep? t).map (·.test)

theorem selectTests_eq_filterMap (fs : FilterSet) (tests : List Test) :
    fs.selectTests tests = tests.filterMap fs.keepTest? := by
  rw [selectTests, select, List.map_filterMap]
  rfl

theorem keepTest?_eq (fs : FilterSet) (t : Test) :
    fs.keepTest? t =
      if fs.isEmpty = true ∨ fs.kept t ≠ [] then some (t.withExamples (fs.kept t)) else none := by
  rw [keepTest?, keep?_eq]
  split <;> rfl

/-- The examples of a test that two filter sets keep, in order. -/
def keptByBoth (fs gs : FilterSet) (t : Test) : List Example :=
  t.examples.filter fun e => fs.Keeps t e ∧ gs.Keeps t e

theorem keptByBoth_comm (fs gs : FilterSet) (t : Test) :
    fs.keptByBoth gs t = gs.keptByBoth fs t := by
  simp only [keptByBoth, and_comm]

/-- A copy of a test keeps its name and the indices of its examples, so that what a second set keeps
of the copy is what both keep of the test. -/
theorem kept_withExamples_kept (fs gs : FilterSet) (t : Test) :
    gs.kept (t.withExamples (fs.kept t)) = fs.keptByBoth gs t := by
  rw [kept_withExamples, kept, List.filter_filter, keptByBoth]
  simp only [Bool.decide_and, Bool.and_comm]

theorem keptByBoth_of_isEmpty (h : gs.isEmpty = true) : fs.keptByBoth gs t = fs.kept t := by
  simp only [keptByBoth, kept, keeps_of_isEmpty h, and_true]

theorem keptByBoth_eq_nil (h : fs.kept t = []) : fs.keptByBoth gs t = [] := by
  rw [← kept_withExamples_kept, h]
  rfl

/-- **What two selections in a row leave of a test.**  The test is there if some example is kept by
both sets, or if there are no filters at all. -/
theorem keepTest?_bind (fs gs : FilterSet) (t : Test) :
    (fs.keepTest? t).bind gs.keepTest? =
      if fs.keptByBoth gs t ≠ [] ∨ (fs.isEmpty = true ∧ gs.isEmpty = true) then
        some (t.withExamples (fs.keptByBoth gs t))
      else none := by
  rw [keepTest?_eq]
  split
  · rename_i hf
    rw [Option.bind_some, keepTest?_eq, kept_withExamples_kept, Test.withExamples_withExamples]
    refine if_congr ?_ rfl rfl
    constructor
    · rintro (hg | hboth)
      · rcases hf with hf | hf
        · exact .inr ⟨hf, hg⟩
        · exact .inl (keptByBoth_of_isEmpty hg ▸ hf)
      · exact .inl hboth
    · rintro (hboth | ⟨-, hg⟩)
      · exact .inr hboth
      · exact .inl hg
  · rename_i hf
    obtain ⟨hne, hnil⟩ : ¬ fs.isEmpty = true ∧ fs.kept t = [] := by simpa using hf
    rw [Option.bind_none, if_neg]
    rintro (hboth | ⟨hf, -⟩)
    · exact hboth (keptByBoth_eq_nil hnil)
    · exact hne hf

/-- What is left of a test is kept as it is by the set that left it. -/
theorem keep?_keepTest? {s : Test} (h : fs.keepTest? t = some s) :
    fs.keep? s = some ⟨s, false⟩ := by
  rw [keepTest?_eq] at h
  split at h
  · rename_i hf
    obtain rfl := Option.some.inj h
    have hkept : fs.kept (t.withExamples (fs.kept t)) = fs.kept t := by
      rw [kept_withExamples_kept]
      simp only [keptByBoth, kept, and_self]
    rw [keep?_eq, hkept, if_pos hf]
    simp
  · cases h

/-! ### Lists of tests -/

/-- What two selections in a row leave of a list of tests. -/
theorem selectTests_selectTests (fs gs : FilterSet) (tests : List Test) :
    gs.selectTests (fs.selectTests tests) =
      tests.filterMap fun t =>
        if fs.keptByBoth gs t ≠ [] ∨ (fs.isEmpty = true ∧ gs.isEmpty = true) then
          some (t.withExamples (fs.keptByBoth gs t))
        else none := by
  rw [selectTests_eq_filterMap, selectTests_eq_filterMap, List.filterMap_filterMap]
  exact List.filterMap_congr fun t _ => keepTest?_bind fs gs t

theorem selectTests_comm (fs gs : FilterSet) (tests : List Test) :
    gs.selectTests (fs.selectTests tests) = fs.selectTests (gs.selectTests tests) := by
  rw [selectTests_selectTests, selectTests_selectTests]
  simp only [keptByBoth_comm fs gs, and_comm]

/-- A selection that is made again hands on each of its tests. -/
theorem select_selectTests (fs : FilterSet) (tests : List Test) :
    fs.select (fs.selectTests tests) = (fs.selectTests tests).map fun t => ⟨t, false⟩ := by
  rw [selectTests_eq_filterMap, select, ← List.filterMap_eq_map]
  refine List.filterMap_congr fun s hs => ?_
  obtain ⟨t, -, ht⟩ := List.mem_filterMap.1 hs
  exact keep?_keepTest? ht

end FilterSet

/-- **Selections compose as intersections.**  Two selections in a row give the same in either order:
for each test, in order, the examples that both sets keep, where the test is there if these are some
or neither set has filters.  A selection that is made again hands on each of its tests as it is. -/
theorem select_composes (fs gs : FilterSet) (tests : List Test) :
    gs.selectTests (fs.selectTests tests) = fs.selectTests (gs.selectTests tests) ∧
      gs.selectTests (fs.selectTests tests) =
        tests.filterMap (fun t =>
          let both := t.examples.filter fun e => fs.Keeps t e ∧ gs.Keeps t e
          if both ≠ [] ∨ (fs.isEmpty = true ∧ gs.isEmpty = true) then some (t.withExamples both)
          else none) ∧
      fs.select (fs.selectTests tests) = (fs.selectTests tests).map fun t => ⟨t, false⟩ :=
  ⟨FilterSet.selectTests_comm fs gs tests, FilterSet.selectTests_selectTests fs gs tests,
    FilterSet.select_selectTests fs tests⟩

end DoctestSelection
