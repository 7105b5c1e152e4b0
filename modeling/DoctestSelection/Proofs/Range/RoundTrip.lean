import DoctestSelection.Proofs.Range.Spelling
import DoctestSelection.Range.Printer

/-!
# Written ranges read back

The text of a range spells it: the bounds are written around a dash, with nothing between them.  A
missing bound is written as nothing; a start of zero is left out as well, and reads as zero again.
The text of a range set has its ranges between commas, which no range has in it; a set without
ranges is the one that its text does not tell, since nothing reads as one range.

## Main results

* `IndexRange.spells_chars` — a range is spelled by its text.
* `IndexRange.parse_text` — **a written range reads back.**
* `RangeSet.parse_text` — **a written range set reads back**, if it has a range.
* `written_ranges_read_back` — both, with the one exception.
-/

namespace DoctestSelection

open Text

/-- Pieces of digits and dashes are found again between commas. -/
theorem splitOn_comma_intercalate {pieces : List (List Char)}
    (h : ∀ cs ∈ pieces, ∀ c ∈ cs, c.isDigit = true ∨ c = '-') (hne : pieces ≠ []) :
    ([','].intercalate pieces).splitOn ',' = pieces := by
  refine List.splitOn_intercalate ',' (fun cs hcs hmem => ?_) hne
  rcases h cs hcs ',' hmem with hd | hd
  · exact absurd hd (by decide)
  · exact absurd hd (by decide)

/-! ### One range -/

namespace IndexRange

/-- A bound as it is written: nothing if it is missing. -/
def boundChars (bound : Option Index) : List Char := bound.elim [] Index.digits

theorem boundSpells_boundChars (bound : Option Index) : BoundSpells (boundChars bound) bound := by
  cases bound with
  | none => exact .missing
  | some i => exact .number i.spells_digits

/-- The start as it is written around a dash, where zero goes without saying. -/
def startBound (r : IndexRange) : Option Index := if r.start = 0 then none else some r.start

theorem getD_startBound (r : IndexRange) : r.startBound.getD 0 = r.start := by
  unfold startBound
  split
  · rename_i h
    exact h.symm
  · rfl

/-- A range of more than one index, or of none, is written as its two bounds around a dash. -/
theorem chars_of_stop_ne {r : IndexRange} (h : r.stop ≠ some r.start) :
    r.chars = boundChars r.startBound ++ '-' :: boundChars r.stop := by
  obtain ⟨start, stop⟩ := r
  cases stop with
  | none =>
    show (if start = 0 then ['-'] else start.digits ++ ['-']) =
      boundChars (if start = 0 then none else some start) ++ '-' :: boundChars none
    split <;> rfl
  | some stop =>
    have hne : start ≠ stop := fun he => h (congrArg some he.symm)
    show (if start = stop then start.digits else if start = 0 then '-' :: stop.digits
        else start.digits ++ '-' :: stop.digits) =
      boundChars (if start = 0 then none else some start) ++ '-' :: boundChars (some stop)
    rw [if_neg hne]
    split <;> rfl

/-- A range is spelled by the text that is written for it. -/
theorem spells_chars (r : IndexRange) : Spells r.chars r := by
  by_cases h : r.stop = some r.start
  · obtain ⟨start, stop⟩ := r
    obtain rfl : stop = some start := h
    show Spells (single start).chars (single start)
    rw [chars_single]
    exact .number start.spells_digits
  · have hbounds := spells_of_bounds (boundSpells_boundChars r.startBound)
      (boundSpells_boundChars r.stop)
    rwa [← chars_of_stop_ne h, getD_startBound] at hbounds

/-- The characters of a written range. -/
theorem isDigit_or_eq_of_mem_chars {r : IndexRange} {c : Char} (h : c ∈ r.chars) :
    c.isDigit = true ∨ c = '-' := by
  have hbound : ∀ bound, c ∈ boundChars bound → c.isDigit = true := by
    intro bound hc
    cases bound with
    | none => exact absurd hc List.not_mem_nil
    | some i => exact Index.isDigit_of_mem_digits hc
  by_cases hstop : r.stop = some r.start
  · obtain ⟨start, stop⟩ := r
    obtain rfl : stop = some start := hstop
    have hsingle : c ∈ (single start).chars := h
    rw [chars_single] at hsingle
    exact .inl (Index.isDigit_of_mem_digits hsingle)
  · rw [chars_of_stop_ne hstop, List.mem_append, List.mem_cons] at h
    rcases h with h | h | h
    · exact .inl (hbound _ h)
    · exact .inr h
    · exact .inl (hbound _ h)

theorem isBlank_of_mem_chars {r : IndexRange} {c : Char} (h : c ∈ r.chars) : isBlank c = false :=
  isBlank_eq_false_of_isDigit_or_eq (isDigit_or_eq_of_mem_chars h)

/-- **A written range reads back.** -/
theorem parse_text (r : IndexRange) : IndexRange.parse r.text = .ok r :=
  parse_ofList_of_spells (spells_chars r) fun _ => isBlank_of_mem_chars

end IndexRange

/-! ### Range sets -/

namespace RangeSet

/-- The characters of a written range set. -/
theorem isDigit_or_eq_of_mem_chars {s : RangeSet} {c : Char} (h : c ∈ s.chars) :
    c.isDigit = true ∨ c = '-' ∨ c = ',' := by
  rcases mem_intercalate h with rfl | ⟨cs, hcs, hc⟩
  · exact .inr (.inr rfl)
  · obtain ⟨r, -, rfl⟩ := List.mem_map.1 hcs
    exact (IndexRange.isDigit_or_eq_of_mem_chars hc).imp_right .inl

theorem isBlank_of_mem_chars {s : RangeSet} {c : Char} (h : c ∈ s.chars) : isBlank c = false := by
  rcases isDigit_or_eq_of_mem_chars h with hd | rfl | rfl
  · exact isBlank_eq_false_of_isDigit hd
  · rfl
  · rfl

theorem splitOn_comma {s : RangeSet} (h : s.ranges ≠ []) :
    s.chars.splitOn ',' = s.ranges.map IndexRange.chars :=
  splitOn_comma_intercalate
    (List.forall_mem_map.2 fun _ _ _ => IndexRange.isDigit_or_eq_of_mem_chars) (by simpa using h)

/-- **A written range set reads back**, if it has a range. -/
theorem parse_text {s : RangeSet} (h : s.ranges ≠ []) : RangeSet.parse s.text = .ok s := by
  have hread : (s.ranges.map IndexRange.chars).mapM
      (fun part => IndexRange.parse (String.ofList part)) = .ok s.ranges := by
    rw [mapM_eq_ok_iff, List.forall₂_map_left_iff, List.forall₂_same]
    exact fun r _ => IndexRange.parse_text r
  rw [parse, toList_text, splitOn_comma h, hread]
  rfl

/-- Without a range nothing is written, which reads as the range of every index. -/
theorem parse_text_nil : RangeSet.parse (RangeSet.mk []).text = .ok all := by
  have hnil : (RangeSet.mk []).text.toList = [] := toList_text _
  rw [parse, hnil]
  rfl

/-- Some set is read from the text of a set, and it is another set only if that has no range. -/
theorem exists_parse_text (s : RangeSet) :
    ∃ t, RangeSet.parse s.text = .ok t ∧ (t = s ↔ s.ranges ≠ []) := by
  by_cases h : s.ranges = []
  · obtain ⟨ranges⟩ := s
    obtain rfl : ranges = [] := h
    exact ⟨all, parse_text_nil, iff_of_false nofun fun hne => hne rfl⟩
  · exact ⟨s, parse_text h, iff_of_true rfl h⟩

end RangeSet

/-- **Every range, and every range set that has a range, survives being written and read**, reversed
ranges and the greatest index included.  The set without ranges holds no index; it is the one
exception, and reads back as the set of every index. -/
theorem written_ranges_read_back :
    (∀ r : IndexRange, IndexRange.parse r.text = .ok r) ∧
    (∀ s : RangeSet, ∃ t, RangeSet.parse s.text = .ok t ∧ (t = s ↔ s.ranges ≠ [])) ∧
    RangeSet.parse (RangeSet.mk []).text = .ok RangeSet.all ∧
    ∀ i : Index, (RangeSet.mk []).contains i = false ∧ RangeSet.all.contains i = true := by
  refine ⟨IndexRange.parse_text, RangeSet.exists_parse_text, RangeSet.parse_text_nil, fun i => ?_⟩
  exact ⟨rfl, RangeSet.contains_all i⟩

end DoctestSelection
