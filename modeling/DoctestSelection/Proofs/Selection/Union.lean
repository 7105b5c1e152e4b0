import DoctestSelection.Proofs.Filter.Grammar
import DoctestSelection.Proofs.Selection.Wanted

/-!
# Expressions add up

The words of two expressions that are written one after the other are those of the first and those
of the second, so the filters are too, and an example is wanted when a filter of either wants it.
What one filter set keeps of a test is therefore put together from what the two others keep, as
long as all of them have filters: a blank expression keeps everything by itself and yet adds nothing
to another one.

Only the set of the filters counts.  It is the set of the words of the expression that are read, and
so neither their order nor their repetitions matter, and more words never keep less.

## Main definitions

* `Selected.union? t x y` — what two selections leave of the test `t`, put together.

## Main results

* `FilterSet.select_congr` — filter sets with the same filters select the same.
* `FilterSet.keep?_of_subset` — more filters never keep less.
* `FilterSet.keep?_eq_union?` — what is kept by the filters of two sets.
* `select_expressions_add_up` — **expressions add up as unions.**
-/

namespace DoctestSelection

open Text

/-! ### What two selections leave of a test -/

/-- The examples that a selection leaves of a test, none if the test is dropped. -/
def Selected.leftExamples (x : Option Selected) : List Example := x.elim [] (·.test.examples)

/-- What two selections leave of a test, put together: nothing if both drop the test, and else the
test with the examples that one of them leaves, in the order of the test.  It is the test as it was
if these are all of its examples. -/
def Selected.union? (t : Test) (x y : Option Selected) : Option Selected :=
  if x = none ∧ y = none then none
  else
    let either := t.examples.filter fun e => e ∈ leftExamples x ∨ e ∈ leftExamples y
    some ⟨t.withExamples either, decide (either ≠ t.examples)⟩

namespace FilterSet

variable {fs gs hs : FilterSet} {t : Test} {e : Example}

theorem leftExamples_keep? (fs : FilterSet) (t : Test) :
    Selected.leftExamples (fs.keep? t) = fs.kept t := by
  rw [keep?_eq]
  split
  · rfl
  · rename_i h
    have hnil : fs.kept t = [] := by
      rw [not_or, not_not] at h
      exact h.2
    rw [hnil]
    rfl

theorem mem_leftExamples_keep? (he : e ∈ t.examples) :
    e ∈ Selected.leftExamples (fs.keep? t) ↔ fs.Keeps t e := by
  rw [leftExamples_keep?, kept, List.mem_filter, decide_eq_true_iff, and_iff_right he]

/-! ### The set of the filters -/

/-- More filters never want less. -/
theorem wants_of_subset (h : fs.filters ⊆ gs.filters) (hw : fs.Wants t e) : gs.Wants t e := by
  obtain ⟨f, hf, hrest⟩ := hw
  exact ⟨f, h hf, hrest⟩

theorem isEmpty_of_subset (h : fs.filters ⊆ gs.filters) (hne : fs.isEmpty = false) :
    gs.isEmpty = false := by
  obtain ⟨f, hf⟩ := List.exists_mem_of_ne_nil fs.filters (List.isEmpty_eq_false_iff.1 hne)
  exact List.isEmpty_eq_false_iff.2 (List.ne_nil_of_mem (h hf))

/-- Decisions that agree on each example of a test, and on tests without examples, agree on the
test. -/
theorem keep?_congr (hempty : fs.isEmpty = gs.isEmpty)
    (h : ∀ e ∈ t.examples, fs.Keeps t e ↔ gs.Keeps t e) : fs.keep? t = gs.keep? t := by
  have hkept : fs.kept t = gs.kept t := by
    refine List.filter_congr fun e he => ?_
    rw [decide_eq_decide]
    exact h e he
  rw [keep?_eq, keep?_eq, hempty, hkept]

/-- Filter sets with the same filters select the same, whatever the order and the repetitions. -/
theorem select_congr (h : ∀ f, f ∈ fs.filters ↔ f ∈ gs.filters) (tests : List Test) :
    fs.select tests = gs.select tests := by
  have hfg : fs.filters ⊆ gs.filters := fun f hf => (h f).1 hf
  have hgf : gs.filters ⊆ fs.filters := fun f hf => (h f).2 hf
  have hempty : fs.isEmpty = gs.isEmpty := by
    cases hf : fs.isEmpty with
    | false => exact (isEmpty_of_subset hfg hf).symm
    | true =>
      cases hg : gs.isEmpty with
      | true => rfl
      | false => exact absurd (isEmpty_of_subset hgf hg) (by rw [hf]; decide)
  refine List.filterMap_congr fun t _ => keep?_congr hempty fun e _ => ?_
  unfold Keeps
  rw [hempty]
  exact or_congr_right ⟨wants_of_subset hfg, wants_of_subset hgf⟩

/-- More filters never keep less: a test that some filters keep is kept, with all the examples that
they keep. -/
theorem keep?_of_subset (hne : fs.isEmpty = false) (h : fs.filters ⊆ gs.filters) {s : Selected}
    (hs : fs.keep? t = some s) :
    ∃ s', gs.keep? t = some s' ∧ s.test.examples.Sublist s'.test.examples := by
  have hne' : gs.isEmpty = false := isEmpty_of_subset h hne
  obtain ⟨hleft, rfl⟩ := keep?_eq_some_iff.1 hs
  have hsub : (fs.kept t).Sublist (gs.kept t) := by
    apply List.monotone_filter_right
    intro e he
    rw [decide_eq_true_iff, keeps_iff_wants hne] at he
    rw [decide_eq_true_iff, keeps_iff_wants hne']
    exact wants_of_subset h he
  refine ⟨⟨t.withExamples (gs.kept t), decide (gs.kept t ≠ t.examples)⟩, ?_, hsub⟩
  rw [keep?_eq_some_iff]
  refine ⟨.inr fun hnil => ?_, rfl⟩
  rw [hne] at hleft
  rw [hnil, List.sublist_nil] at hsub
  exact hleft.elim Bool.false_ne_true fun hk => hk hsub

/-- The filters of two sets want what either set wants. -/
theorem wants_iff_of_mem_iff (h : ∀ f, f ∈ hs.filters ↔ f ∈ fs.filters ∨ f ∈ gs.filters) :
    hs.Wants t e ↔ fs.Wants t e ∨ gs.Wants t e := by
  unfold Wants
  simp only [h, or_and_right, exists_or]

/-- **What is kept by the filters of two sets** is what either set keeps, if both have filters. -/
theorem keep?_eq_union? (hf : fs.isEmpty = false) (hg : gs.isEmpty = false)
    (h : ∀ f, f ∈ hs.filters ↔ f ∈ fs.filters ∨ f ∈ gs.filters) (t : Test) :
    hs.keep? t = Selected.union? t (fs.keep? t) (gs.keep? t) := by
  have hh : hs.isEmpty = false := isEmpty_of_subset (fun f hf => (h f).2 (.inl hf)) hf
  -- what is put together by membership is what the filters of both want, example by example
  have heither : (t.examples.filter fun e =>
      e ∈ Selected.leftExamples (fs.keep? t) ∨ e ∈ Selected.leftExamples (gs.keep? t)) =
        hs.kept t := by
    refine List.filter_congr fun e he => ?_
    rw [decide_eq_decide, mem_leftExamples_keep? he, mem_leftExamples_keep? he, keeps_iff_wants hf,
      keeps_iff_wants hg, keeps_iff_wants hh, wants_iff_of_mem_iff h]
  have hnone : (fs.keep? t = none ∧ gs.keep? t = none) ↔ hs.kept t = [] := by
    rw [keep?_eq_none_iff, keep?_eq_none_iff, kept_eq_nil_iff]
    simp only [hf, hg, true_and, keeps_iff_wants hf, keeps_iff_wants hg, keeps_iff_wants hh,
      wants_iff_of_mem_iff h, not_or]
    exact forall₂_and.symm
  unfold Selected.union?
  rw [keep?_eq, hh]
  simp only [heither, hnone, Bool.false_eq_true, false_or, ite_not]

end FilterSet

/-! ### Expressions -/

section Expression

variable [PatternEngine] {a b : String} {fs gs hs : FilterSet}

theorem FilterSet.exists_parse_of_words_subset (ha : FilterSet.parse a = .ok fs)
    (h : words b ⊆ words a) : ∃ gs, FilterSet.parse b = .ok gs := by
  rw [exists_parse_iff]
  intro word hword
  exact exists_parse_iff.1 ⟨fs, ha⟩ word (h hword)

/-- An expression whose words are among those of another has its filters among theirs. -/
theorem FilterSet.filters_subset_of_words_subset (ha : FilterSet.parse a = .ok fs)
    (hb : FilterSet.parse b = .ok gs) (h : words a ⊆ words b) : fs.filters ⊆ gs.filters := by
  intro f hf
  obtain ⟨word, hword, hparse⟩ := (mem_filters_iff ha f).1 hf
  exact (mem_filters_iff hb f).2 ⟨word, h hword, hparse⟩

/-- Two expressions with blanks between them are read when both are, and then have the filters of
both. -/
theorem FilterSet.exists_parse_append {w : String} (hw : w ≠ "") (hblank : BlankText w)
    (ha : FilterSet.parse a = .ok fs) (hb : FilterSet.parse b = .ok gs) :
    ∃ hs, FilterSet.parse (a ++ w ++ b) = .ok hs ∧
      ∀ f, f ∈ hs.filters ↔ f ∈ fs.filters ∨ f ∈ gs.filters := by
  have hwords : words (a ++ w ++ b) = words a ++ words b := words_append_blanks hw hblank a b
  obtain ⟨hs, hhs⟩ : ∃ hs, FilterSet.parse (a ++ w ++ b) = .ok hs := by
    rw [exists_parse_iff, hwords]
    intro word hword
    rcases List.mem_append.1 hword with hword | hword
    · exact exists_parse_iff.1 ⟨fs, ha⟩ word hword
    · exact exists_parse_iff.1 ⟨gs, hb⟩ word hword
  refine ⟨hs, hhs, fun f => ?_⟩
  rw [mem_filters_iff hhs, mem_filters_iff ha, mem_filters_iff hb, hwords]
  simp only [List.mem_append, or_and_right, exists_or]

theorem FilterSet.isEmpty_eq_false_of_not_blankText (h : FilterSet.parse a = .ok fs)
    (hne : ¬ BlankText a) : fs.isEmpty = false := by
  rw [← Bool.not_eq_true, isEmpty_iff_blankText h]
  exact hne

/-- The filters of a blank expression add nothing to those of another. -/
theorem FilterSet.select_eq_of_blankText (ha : FilterSet.parse a = .ok fs) (hblank : BlankText a)
    (h : ∀ f, f ∈ hs.filters ↔ f ∈ fs.filters ∨ f ∈ gs.filters) (tests : List Test) :
    hs.select tests = gs.select tests := by
  have hnil : fs.filters = [] := List.isEmpty_iff.1 ((isEmpty_iff_blankText ha).2 hblank)
  refine select_congr (fun f => ?_) tests
  rw [h, hnil]
  exact or_iff_right List.not_mem_nil

end Expression

/-- **Expressions add up as unions.**  Two expressions that are read, with blanks between them, are
read together.  If neither is blank, they keep of each test, in order, what one of the two keeps;
a blank one adds nothing to the other.

Expressions with the same words select the same, so the order of the words and their repetitions do
not matter; and with more words than those of an expression that is not blank, no example that it
keeps is lost. -/
theorem select_expressions_add_up [PatternEngine] :
    (∀ (a w b : String) (fs gs : FilterSet), FilterSet.parse a = .ok fs →
      FilterSet.parse b = .ok gs → w ≠ "" → BlankText w →
      ∃ hs, FilterSet.parse (a ++ w ++ b) = .ok hs ∧ ∀ tests : List Test,
        (¬ BlankText a → ¬ BlankText b →
          hs.select tests =
            tests.filterMap fun t => Selected.union? t (fs.keep? t) (gs.keep? t)) ∧
        (BlankText a → hs.select tests = gs.select tests) ∧
        (BlankText b → hs.select tests = fs.select tests)) ∧
    (∀ (a b : String) (fs : FilterSet), FilterSet.parse a = .ok fs →
      (∀ word, word ∈ words a ↔ word ∈ words b) →
      ∃ gs, FilterSet.parse b = .ok gs ∧ ∀ tests, gs.select tests = fs.select tests) ∧
    ∀ (a b : String) (fs gs : FilterSet), FilterSet.parse a = .ok fs → FilterSet.parse b = .ok gs →
      ¬ BlankText a → words a ⊆ words b → ∀ (t : Test) (s : Selected), fs.keep? t = some s →
      ∃ s', gs.keep? t = some s' ∧ s.test.examples.Sublist s'.test.examples := by
  refine ⟨?_, ?_, ?_⟩
  · intro a w b fs gs ha hb hw hblank
    obtain ⟨hs, hhs, hmem⟩ := FilterSet.exists_parse_append hw hblank ha hb
    refine ⟨hs, hhs, fun tests => ⟨fun hna hnb => ?_, fun hba => ?_, fun hbb => ?_⟩⟩
    · have hf := FilterSet.isEmpty_eq_false_of_not_blankText ha hna
      have hg := FilterSet.isEmpty_eq_false_of_not_blankText hb hnb
      exact List.filterMap_congr fun t _ => FilterSet.keep?_eq_union? hf hg hmem t
    · exact FilterSet.select_eq_of_blankText ha hba hmem tests
    · exact FilterSet.select_eq_of_blankText hb hbb (fun f => (hmem f).trans or_comm) tests
  · intro a b fs ha hwords
    have hab : words a ⊆ words b := fun word hword => (hwords word).1 hword
    have hba : words b ⊆ words a := fun word hword => (hwords word).2 hword
    obtain ⟨gs, hb⟩ := FilterSet.exists_parse_of_words_subset ha hba
    have hfg := FilterSet.filters_subset_of_words_subset ha hb hab
    have hgf := FilterSet.filters_subset_of_words_subset hb ha hba
    exact ⟨gs, hb, fun tests => FilterSet.select_congr (fun f => ⟨@hgf f, @hfg f⟩) tests⟩
  · intro a b fs gs ha hb hna hwords t s hs
    have hne := FilterSet.isEmpty_eq_false_of_not_blankText ha hna
    exact FilterSet.keep?_of_subset hne (FilterSet.filters_subset_of_words_subset ha hb hwords) hs

attribute [local instance] PatternEngine.bySize

/-- Two expressions about one test, which together keep its second example and its last two.  So do
the same filters in another order with a repetition, and what the first expression keeps is kept. -/
theorem select_expressions_add_up_of_two_ranges :
    let t := Test.ofCount "m.f" 5
    ∃ fs gs hs ks : FilterSet, FilterSet.parse "f:1" = .ok fs ∧ FilterSet.parse "f:3-" = .ok gs ∧
      FilterSet.parse ("f:1" ++ "\t " ++ "f:3-") = .ok hs ∧
      FilterSet.parse "f:3- f:1 f:3-" = .ok ks ∧
      hs.select [t] = [t].filterMap (fun t => Selected.union? t (fs.keep? t) (gs.keep? t)) ∧
      ks.select [t] = hs.select [t] ∧
      ∃ s, hs.keep? t = some s ∧ [⟨1, "example_1", "", none⟩].Sublist s.test.examples := by
  intro t
  have ha : FilterSet.parse "f:1" =
      .ok ⟨[⟨⟨"f", by decide, ⟨'f', by decide⟩⟩, some ⟨[.single 1]⟩⟩]⟩ := by decide
  have hb : FilterSet.parse "f:3-" =
      .ok ⟨[⟨⟨"f", by decide, ⟨'f', by decide⟩⟩, some ⟨[⟨3, none⟩]⟩⟩]⟩ := by decide
  obtain ⟨hs, hparse, hselect⟩ :=
    select_expressions_add_up.1 "f:1" "\t " "f:3-" _ _ ha hb (by decide) (by decide)
  have hwords : words ("f:1" ++ "\t " ++ "f:3-") = ["f:1", "f:3-"] := by decide
  have hsame : ∀ word, word ∈ words ("f:1" ++ "\t " ++ "f:3-") ↔ word ∈ words "f:3- f:1 f:3-" := by
    have hback : words "f:3- f:1 f:3-" = ["f:3-", "f:1", "f:3-"] := by decide
    intro word
    rw [hwords, hback]
    grind
  obtain ⟨ks, hks, hagain⟩ := select_expressions_add_up.2.1 _ _ hs hparse hsame
  have hmore : words "f:1" ⊆ words ("f:1" ++ "\t " ++ "f:3-") := by
    have hone : words "f:1" = ["f:1"] := by decide
    rw [hone, hwords]
    exact List.cons_subset_cons _ (List.nil_subset _)
  exact ⟨_, _, hs, ks, ha, hb, hparse, hks, (hselect _).1 (by decide) (by decide), hagain _,
    select_expressions_add_up.2.2 _ _ _ _ ha hparse (by decide) hmore t
      ⟨t.withExamples [⟨1, "example_1", "", none⟩], true⟩ (by decide)⟩

end DoctestSelection
