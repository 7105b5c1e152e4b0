import DoctestSelection.Proofs.Range.Spelling

/-!
# A list of ranges is a union

A range set is read segment by segment, and a comma between two texts keeps their segments apart.
So the text of two lists reads as the ranges of the first and then those of the second, and what a
set holds is told by its segments alone: neither their order nor their number matters.  A segment
with nothing in it, or with a dash alone, is the range of every index.

A set is empty when all of its ranges are reversed.  That is decided from the bounds, but it says
what it should about the indices: a range that is not reversed holds its own start, also where this
is the greatest index.

## Main definitions

* `RangeSet.segments` — what stands between the commas of a text.

## Main results

* `RangeSet.parse_append_comma` — **a list of two lists reads as one after the other.**
* `RangeSet.contains_iff_of_parse` — what a set holds is held by one of its segments.
* `RangeSet.isEmpty_iff_forall_contains` — a set is empty when it holds no index.
* `comma_lists_are_unions` — all of this.
-/

namespace DoctestSelection

open Text

/-! ### Reversed ranges -/

namespace IndexRange

theorem isEmpty_iff {r : IndexRange} :
    r.isEmpty = true ↔ ∃ stop, r.stop = some stop ∧ stop < r.start := by
  simp [isEmpty, Option.any_eq_true]

/-- A range that is not reversed holds its start. -/
theorem contains_start {r : IndexRange} (h : ¬r.isEmpty = true) : r.contains r.start = true := by
  rw [contains_iff]
  refine ⟨UInt64.le_refl r.start, fun stop hstop => UInt64.not_lt.1 fun hlt => ?_⟩
  exact h (isEmpty_iff.2 ⟨stop, hstop, hlt⟩)

/-- A range is empty when no index lies in it. -/
theorem isEmpty_iff_forall_contains {r : IndexRange} :
    r.isEmpty = true ↔ ∀ i, r.contains i = false := by
  constructor
  · intro h i
    obtain ⟨stop, hstop, hlt⟩ := isEmpty_iff.1 h
    rw [← Bool.not_eq_true, contains_iff]
    rintro ⟨hstart, hend⟩
    exact UInt64.not_lt.2 (UInt64.le_trans hstart (hend stop hstop)) hlt
  · intro h
    by_contra hne
    have hstart := contains_start hne
    rw [h] at hstart
    exact Bool.noConfusion hstart

end IndexRange

namespace RangeSet

/-! ### Segments -/

/-- What stands between the commas of a text, in order. -/
def segments (text : String) : List String := (text.toList.splitOn ',').map String.ofList

theorem segments_append_comma (a b : String) :
    segments (a ++ "," ++ b) = segments a ++ segments b := by
  have hcomma : (a ++ "," ++ b).toList = a.toList ++ ',' :: b.toList := by
    rw [String.toList_append, String.toList_append, List.append_assoc]
    rfl
  rw [segments, hcomma, List.splitOn_append_cons_self, List.map_append]
  rfl

/-- A range set is read segment by segment. -/
theorem parse_eq (text : String) :
    RangeSet.parse text = ((segments text).mapM IndexRange.parse).map RangeSet.mk := by
  rw [segments, List.mapM_map]
  rfl

variable {text : String} {s : RangeSet}

theorem parse_eq_ok_iff :
    RangeSet.parse text = .ok s ↔
      List.Forall₂ (fun segment r => IndexRange.parse segment = .ok r) (segments text)
        s.ranges := by
  rw [parse_eq, ← mapM_eq_ok_iff]
  cases (segments text).mapM IndexRange.parse with
  | error e => exact iff_of_false nofun nofun
  | ok ranges =>
    constructor
    · intro h
      rw [← Except.ok.inj h]
    · intro h
      rw [Except.ok.inj h]
      rfl

/-- A text is read when each of its segments is. -/
theorem exists_parse_iff :
    (∃ s, RangeSet.parse text = .ok s) ↔
      ∀ segment ∈ segments text, ∃ r, IndexRange.parse segment = .ok r := by
  rw [← exists_forall₂_iff]
  constructor
  · rintro ⟨s, h⟩
    exact ⟨s.ranges, parse_eq_ok_iff.1 h⟩
  · rintro ⟨ranges, h⟩
    exact ⟨⟨ranges⟩, parse_eq_ok_iff.2 h⟩

/-- **A list of two lists reads as one after the other**, and the first error counts. -/
theorem parse_append_comma (a b : String) :
    RangeSet.parse (a ++ "," ++ b) =
      match RangeSet.parse a, RangeSet.parse b with
      | .ok s, .ok t => .ok ⟨s.ranges ++ t.ranges⟩
      | .error e, _ => .error e
      | .ok _, .error e => .error e := by
  rw [parse_eq, parse_eq, parse_eq, segments_append_comma, List.mapM_append]
  cases (segments a).mapM IndexRange.parse with
  | error e => rfl
  | ok ranges =>
    cases (segments b).mapM IndexRange.parse with
    | error e => rfl
    | ok ranges' => rfl

/-! ### What a set holds -/

/-- What a set holds is held by one of its segments. -/
theorem contains_iff_of_parse (h : RangeSet.parse text = .ok s) (i : Index) :
    s.contains i = true ↔
      ∃ segment ∈ segments text, ∃ r, IndexRange.parse segment = .ok r ∧ r.contains i = true := by
  have hmem := mem_iff_exists_of_forall₂ (parse_eq_ok_iff.1 h)
  rw [contains_iff]
  constructor
  · rintro ⟨r, hr, hi⟩
    obtain ⟨segment, hsegment, hparse⟩ := (hmem r).1 hr
    exact ⟨segment, hsegment, r, hparse, hi⟩
  · rintro ⟨segment, hsegment, r, hparse, hi⟩
    exact ⟨r, (hmem r).2 ⟨segment, hsegment, hparse⟩, hi⟩

/-- Texts with the same segments, in any order and any number, read as sets that hold the same. -/
theorem exists_parse_of_segments {text' : String}
    (hsame : ∀ segment, segment ∈ segments text ↔ segment ∈ segments text')
    (h : RangeSet.parse text = .ok s) :
    ∃ s', RangeSet.parse text' = .ok s' ∧ ∀ i, s'.contains i = s.contains i := by
  have hread := exists_parse_iff.1 ⟨s, h⟩
  obtain ⟨s', h'⟩ : ∃ s', RangeSet.parse text' = .ok s' :=
    exists_parse_iff.2 fun segment hsegment => hread segment ((hsame segment).2 hsegment)
  refine ⟨s', h', fun i => ?_⟩
  rw [Bool.eq_iff_iff, contains_iff_of_parse h' i, contains_iff_of_parse h i]
  simp only [hsame]

/-- A segment that is nothing or a dash alone makes a set hold every index. -/
theorem contains_of_segment (h : RangeSet.parse text = .ok s) {segment : String}
    (hsegment : segment ∈ segments text) (hall : trim segment = "" ∨ trim segment = "-")
    (i : Index) : s.contains i = true := by
  have hspells : IndexRange.Spells (trim segment).toList IndexRange.all := by
    rcases hall with hnil | hdash
    · rw [hnil]
      exact .nothing
    · rw [hdash]
      exact IndexRange.spells_of_bounds .missing .missing
  exact (contains_iff_of_parse h i).2 ⟨segment, hsegment, IndexRange.all,
    IndexRange.parse_of_spells hspells, IndexRange.contains_all i⟩

/-! ### Empty sets -/

theorem isEmpty_iff {s : RangeSet} : s.isEmpty = true ↔ ∀ r ∈ s.ranges, r.isEmpty = true := by
  rw [isEmpty, List.all_eq_true]

/-- A set is empty when it holds no index. -/
theorem isEmpty_iff_forall_contains {s : RangeSet} :
    s.isEmpty = true ↔ ∀ i, s.contains i = false := by
  rw [isEmpty_iff]
  constructor
  · intro h i
    rw [← Bool.not_eq_true, contains_iff]
    rintro ⟨r, hr, hi⟩
    rw [IndexRange.isEmpty_iff_forall_contains.1 (h r hr) i] at hi
    exact Bool.noConfusion hi
  · intro h r hr
    rw [IndexRange.isEmpty_iff_forall_contains]
    intro i
    by_contra hi
    have hcontains : s.contains i = true := contains_iff.2 ⟨r, hr, by simpa using hi⟩
    rw [h i] at hcontains
    exact Bool.noConfusion hcontains

end RangeSet

/-- **A list of ranges is the union of its segments**, and a set is empty exactly when it holds no
index.  Two lists with a comma between them read as the ranges of both, or as the first error; the
order and the repetitions of segments do not matter for what the set holds, and a segment that is
nothing or a dash makes it hold every index. -/
theorem comma_lists_are_unions :
    (∀ a b : String, RangeSet.parse (a ++ "," ++ b) =
      match RangeSet.parse a, RangeSet.parse b with
      | .ok s, .ok t => .ok ⟨s.ranges ++ t.ranges⟩
      | .error e, _ => .error e
      | .ok _, .error e => .error e) ∧
    (∀ (text : String) (s : RangeSet), RangeSet.parse text = .ok s →
      (∀ i, s.contains i = true ↔ ∃ segment ∈ RangeSet.segments text, ∃ r,
        IndexRange.parse segment = .ok r ∧ r.contains i = true) ∧
      (∀ text' : String,
        (∀ segment, segment ∈ RangeSet.segments text ↔ segment ∈ RangeSet.segments text') →
        ∃ s', RangeSet.parse text' = .ok s' ∧ ∀ i, s'.contains i = s.contains i) ∧
      ((∃ segment ∈ RangeSet.segments text, trim segment = "" ∨ trim segment = "-") →
        ∀ i, s.contains i = true)) ∧
    ∀ s : RangeSet, (s.isEmpty = true ↔ ∀ i, s.contains i = false) ∧
      (s.isEmpty = true ↔ ∀ r ∈ s.ranges, ∃ stop, r.stop = some stop ∧ stop < r.start) := by
  refine ⟨RangeSet.parse_append_comma, fun text s h => ⟨RangeSet.contains_iff_of_parse h,
    fun text' hsame => RangeSet.exists_parse_of_segments hsame h, ?_⟩, fun s => ⟨?_, ?_⟩⟩
  · rintro ⟨segment, hsegment, hall⟩
    exact RangeSet.contains_of_segment h hsegment hall
  · exact RangeSet.isEmpty_iff_forall_contains
  · rw [RangeSet.isEmpty_iff]
    simp only [IndexRange.isEmpty_iff]

/-- A list and the same list in another order, with a segment repeated; and a list that ends with a
comma. -/
theorem comma_lists_are_unions_of_repeated_segment :
    (RangeSet.parse "7-9, 3" = .ok ⟨[⟨7, some 9⟩, .single 3]⟩ ∧
      ∃ s', RangeSet.parse " 3,7-9, 3" = .ok s' ∧
        ∀ i, s'.contains i = (RangeSet.mk [⟨7, some 9⟩, .single 3]).contains i) ∧
    RangeSet.parse "7-9," = .ok ⟨[⟨7, some 9⟩, .all]⟩ ∧
      (RangeSet.mk [⟨7, some 9⟩, .all]).contains Index.greatest = true := by
  have h : RangeSet.parse "7-9, 3" = .ok ⟨[⟨7, some 9⟩, .single 3]⟩ := by decide
  have hlast : RangeSet.parse "7-9," = .ok ⟨[⟨7, some 9⟩, .all]⟩ := by decide
  have hsame : ∀ segment, segment ∈ RangeSet.segments "7-9, 3" ↔
      segment ∈ RangeSet.segments " 3,7-9, 3" := by
    have hfirst : RangeSet.segments "7-9, 3" = ["7-9", " 3"] := by decide
    have hsecond : RangeSet.segments " 3,7-9, 3" = [" 3", "7-9", " 3"] := by decide
    intro segment
    rw [hfirst, hsecond]
    simp only [List.mem_cons, List.not_mem_nil, or_false]
    tauto
  exact ⟨⟨h, (comma_lists_are_unions.2.1 _ _ h).2.1 _ hsame⟩, hlast,
    (comma_lists_are_unions.2.1 _ _ hlast).2.2 ⟨"", by decide, by decide⟩ Index.greatest⟩

end DoctestSelection
