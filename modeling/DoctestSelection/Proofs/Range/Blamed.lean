import DoctestSelection.Proofs.Range.Spelling
import DoctestSelection.Proofs.Text.Words

/-!
# What a refused range is blamed for

When a text does not spell a range, the error names a number in it.  The reader does not know which
number that is; it is found by a second look at the text, part by part around the dash, where any
blanks around a part are dropped.  So the second look accepts more blanks than the reader does, and
a text may be refused although each of its parts would do.  Then the whole text is named, and there
is only one reason that is left: a blank beside the dash that is neither a space nor a tab.

## Main definitions

* `IndexRange.BadPart part` — a part that is there but is not a number.
* `IndexRange.Blames cs b` — the rules by which the error about the text `cs` names `b`.

## Main results

* `IndexRange.exists_spells_or_oddBlank` — a text without a bad part spells a range, or has a blank
  beside its dash that is neither a space nor a tab.
* `IndexRange.blames_blamed` — what is named follows the rules.
* `IndexRange.Blames.not_spells` — what is named is never a number.
* `blamed_numbers_are_bad` — **the number that an error names is really a bad one.**
-/

namespace DoctestSelection

open Text

namespace IndexRange

/-! ### The rules -/

/-- A part of a range that is there, blanks around it aside, but is not a number. -/
def BadPart (part : List Char) : Prop :=
  trimList part ≠ [] ∧ ∀ i, ¬Index.Spells (trimList part) i

/-- A blank beside the only dash of a text is neither a space nor a tab.  The blanks `bs` before the
dash and `bs'` behind it are all that stand there. -/
structure OddBlank (cs first bs bs' last : List Char) : Prop where
  eq_append : cs = first ++ bs ++ '-' :: (bs' ++ last)
  one_dash : cs.count '-' = 1
  isBlank : ∀ c ∈ bs ++ bs', isBlank c = true
  first_end : ∀ c, first.getLast? = some c → Text.isBlank c = false
  last_start : ∀ c, last.head? = some c → Text.isBlank c = false
  odd : ∃ c ∈ bs ++ bs', c ≠ ' ' ∧ c ≠ '\t'

/-- The rules by which the error about a trimmed text names a part of it. -/
inductive Blames (cs : List Char) : List Char → Prop
  /-- The leftmost bad part is named, without the blanks around it. -/
  | part {before after : List (List Char)} {part : List Char} :
    cs.splitOn '-' = before ++ part :: after → (∀ p ∈ before, ¬BadPart p) → BadPart part →
    Blames cs (trimList part)
  /-- Without a bad part the whole text is named, because of a blank beside its dash. -/
  | whole {first bs bs' last : List Char} : (∀ part ∈ cs.splitOn '-', ¬BadPart part) →
    OddBlank cs first bs bs' last → Blames cs cs

/-! ### Texts without a bad part -/

variable {cs b : List Char}

theorem exists_boundSpells_of_not_badPart {part : List Char} (h : ¬BadPart part) :
    ∃ bound, BoundSpells (trimList part) bound := by
  by_cases hnil : trimList part = []
  · exact ⟨none, hnil ▸ .missing⟩
  · obtain ⟨i, hi⟩ : ∃ i, Index.Spells (trimList part) i := by
      by_contra hnot
      exact h ⟨hnil, not_exists.1 hnot⟩
    exact ⟨some i, .number hi⟩

/-- The parts around a single dash, and the blanks between them and the dash. -/
theorem exists_parts (htrim : trimList cs = cs) (hone : cs.count '-' = 1) :
    ∃ front back bs bs', cs.splitOn '-' = [front, back] ∧
      cs = trimList front ++ bs ++ '-' :: (bs' ++ trimList back) ∧
      ∀ c ∈ bs ++ bs', isBlank c = true := by
  have hmem : '-' ∈ cs := List.count_pos_iff.1 (by omega)
  obtain ⟨front, back, hsplit, hcs⟩ :
      ∃ front back, cs.splitOn '-' = [front, back] ∧ cs = front ++ '-' :: back :=
    ⟨_, _, splitOn_of_count_eq_one hone, exists_eq_append_cons hmem⟩
  obtain ⟨lead, bs, hfront, hlead, hbs⟩ := exists_eq_append_strip isBlank front
  obtain ⟨bs', trail, hback, hbs', htrail⟩ := exists_eq_append_strip isBlank back
  have hwhole : cs = lead ++ (trimList front ++ bs ++ '-' :: (bs' ++ trimList back)) ++ trail := by
    calc cs = front ++ '-' :: back := hcs
      _ = (lead ++ (trimList front ++ bs)) ++ '-' :: (bs' ++ (trimList back ++ trail)) := by
        rw [trimList, trimList, ← hfront, ← hback]
      _ = _ := by simp only [List.append_assoc, List.cons_append]
  -- the text is trimmed, so its own ends are those of the parts
  obtain rfl : trail = [] := eq_nil_of_trimList_append_right (hwhole ▸ htrim) htrail
  rw [List.append_nil] at hwhole
  obtain rfl : lead = [] := eq_nil_of_trimList_append (hwhole ▸ htrim) hlead
  rw [List.nil_append] at hwhole
  refine ⟨front, back, bs, bs', hsplit, hwhole, fun c hc => ?_⟩
  rcases List.mem_append.1 hc with hc | hc
  · exact hbs c hc
  · exact hbs' c hc

/-- A text without a bad part is refused for a blank beside its dash, if it is refused at all. -/
theorem exists_spells_or_oddBlank (htrim : trimList cs = cs) (hdashes : cs.count '-' < 2)
    (h : ∀ part ∈ cs.splitOn '-', ¬BadPart part) :
    (∃ r, Spells cs r) ∨ ∃ first bs bs' last, OddBlank cs first bs bs' last := by
  rcases Nat.lt_or_ge (cs.count '-') 1 with hnone | hsome
  · -- without a dash the only part is the text itself
    rw [splitOn_of_count_eq_zero (by omega), List.forall_mem_singleton] at h
    obtain ⟨bound, hbound⟩ := exists_boundSpells_of_not_badPart h
    rw [htrim] at hbound
    cases hbound with
    | missing => exact .inl ⟨all, .nothing⟩
    | number hds => exact .inl ⟨_, .number hds⟩
  · have hone : cs.count '-' = 1 := by omega
    obtain ⟨front, back, bs, bs', hsplit, hcs, hblank⟩ := exists_parts htrim hone
    rw [hsplit, List.forall_mem_cons, List.forall_mem_singleton] at h
    by_cases hodd : ∃ c ∈ bs ++ bs', c ≠ ' ' ∧ c ≠ '\t'
    · have hfirst := (strip_ends isBlank front).2
      have hlast := (strip_ends isBlank back).1
      exact .inr ⟨_, bs, bs', _, hcs, hone, hblank, hfirst, hlast, hodd⟩
    · obtain ⟨start, hstart⟩ := exists_boundSpells_of_not_badPart h.1
      obtain ⟨stop, hstop⟩ := exists_boundSpells_of_not_badPart h.2
      have hplain : BoundBlanks (bs ++ bs') := by
        intro c hc
        by_contra hne
        exact hodd ⟨c, hc, not_or.1 hne⟩
      have hbs : BoundBlanks bs := fun c hc => hplain c (List.mem_append_left bs' hc)
      have hbs' : BoundBlanks bs' := fun c hc => hplain c (List.mem_append_right bs hc)
      exact .inl ⟨⟨start.getD 0, stop⟩, hcs ▸ .bounds hstart hbs hbs' hstop⟩

/-! ### What is named -/

theorem isBadPart_trimList_iff {part : List Char} :
    isBadPart (trimList part) = true ↔ BadPart part := by
  unfold isBadPart BadPart
  rw [Bool.and_eq_true, Bool.not_eq_true', List.isEmpty_eq_false_iff, Option.isNone_iff_eq_none,
    Index.ofDigits?_eq_none_iff_not_spells]

/-- The leftmost bad part is named or, if there is none, the whole text. -/
theorem blamed_cases (cs : List Char) :
    (∃ before part after, cs.splitOn '-' = before ++ part :: after ∧ (∀ p ∈ before, ¬BadPart p) ∧
      BadPart part ∧ blamed cs = trimList part) ∨
      ((∀ part ∈ cs.splitOn '-', ¬BadPart part) ∧ blamed cs = cs) := by
  unfold blamed
  rw [List.find?_map]
  cases hfind : (cs.splitOn '-').find? (isBadPart ∘ trimList) with
  | none =>
    refine .inr ⟨fun part hpart hbad => ?_, rfl⟩
    exact List.find?_eq_none.1 hfind part hpart (isBadPart_trimList_iff.2 hbad)
  | some part =>
    obtain ⟨hbad, before, after, hsplit, hbefore⟩ := List.find?_eq_some_iff_append.1 hfind
    refine .inl ⟨before, part, after, hsplit, fun p hp hbad => ?_, isBadPart_trimList_iff.1 hbad,
      rfl⟩
    have hnot : isBadPart (trimList p) = false := by simpa using hbefore p hp
    rw [isBadPart_trimList_iff.2 hbad] at hnot
    exact Bool.noConfusion hnot

/-- What is named about a trimmed text that does not spell a range follows the rules. -/
theorem blames_blamed (htrim : trimList cs = cs) (hdashes : cs.count '-' < 2)
    (hnot : ∀ r, ¬Spells cs r) : Blames cs (blamed cs) := by
  rcases blamed_cases cs with ⟨before, part, after, hsplit, hbefore, hbad, he⟩ | ⟨hnone, he⟩
  · rw [he]
    exact .part hsplit hbefore hbad
  · rw [he]
    rcases exists_spells_or_oddBlank htrim hdashes hnone with ⟨r, hr⟩ | ⟨first, bs, bs', last, hodd⟩
    · exact absurd hr (hnot r)
    · exact .whole hnone hodd

theorem Blames.isInfix (h : Blames cs b) : b <:+: cs := by
  cases h with
  | @part before after part hsplit _ _ =>
    have hmem : part ∈ cs.splitOn '-' := hsplit ▸ List.mem_append_right before List.mem_cons_self
    exact (trimList_isInfix part).trans (isInfix_of_mem_splitOn hmem)
  | whole _ _ => exact List.infix_rfl

theorem Blames.trimList_eq (h : Blames cs b) (htrim : trimList cs = cs) : trimList b = b := by
  cases h with
  | part _ _ _ => exact trimList_trimList _
  | whole _ _ => exact htrim

theorem Blames.ne_nil (h : Blames cs b) : b ≠ [] := by
  cases h with
  | part _ _ hbad => exact hbad.1
  | whole _ hodd =>
    rintro rfl
    exact nomatch hodd.one_dash

/-- What is named is never a number: a bad part is none, and a dash is not a digit. -/
theorem Blames.not_spells (h : Blames cs b) (i : Index) : ¬Index.Spells b i := by
  cases h with
  | part _ _ hbad => exact hbad.2 i
  | whole _ hodd =>
    intro hspells
    have hmem : '-' ∈ cs := List.count_pos_iff.1 (by rw [hodd.one_dash]; exact Nat.one_pos)
    exact hspells.not_mem rfl hmem

/-- A trimmed text that is no number is refused as one, and is named itself. -/
theorem parse_number_of_not_spells (htrim : trimList b = b) (h : ∀ i, ¬Index.Spells b i) :
    Index.parse (String.ofList b) = .error (.invalidNumber (String.ofList b)) := by
  have hself : trim (String.ofList b) = String.ofList b := by
    rw [trim, String.toList_ofList, htrim]
  have hnot : ∀ i, ¬Index.Spells (trim (String.ofList b)).toList i := by
    rwa [hself, String.toList_ofList]
  have hparse := Index.parse_of_not_spells hnot
  rwa [hself] at hparse

theorem not_blankText_ofList (htrim : trimList b = b) (hne : b ≠ []) :
    ¬BlankText (String.ofList b) := by
  intro hblank
  rw [BlankText, String.toList_ofList] at hblank
  have hself : trimList (b ++ []) = b ++ [] := by rwa [List.append_nil]
  exact hne (eq_nil_of_trimList_append hself hblank)

/-! ### Texts without a dash -/

theorem Spells.of_dash_not_mem {r : IndexRange} (h : Spells cs r) (hdash : '-' ∉ cs) :
    cs = [] ∨ ∃ i, Index.Spells cs i := by
  cases h with
  | nothing => exact .inl rfl
  | number hds => exact .inr ⟨_, hds⟩
  | bounds _ _ _ _ => exact absurd (List.mem_append_right _ List.mem_cons_self) hdash

theorem blamed_of_dash_not_mem (htrim : trimList cs = cs) (hdash : '-' ∉ cs) : blamed cs = cs := by
  rw [blamed, List.splitOn_eq_singleton hdash, List.map_singleton, htrim]
  cases h : isBadPart cs with
  | true => rw [List.find?_cons_of_pos h, Option.getD_some]
  | false => rw [List.find?_cons_of_neg (by simp [h]), List.find?_nil, Option.getD_none]

/-- Without a dash, a range that is there is a single number. -/
theorem parse_of_dash_not_mem {text : String} (hblank : ¬BlankText text)
    (hdash : '-' ∉ text.toList) : IndexRange.parse text = (Index.parse text).map single := by
  have htrim := trimList_toList_trim text
  have hne : (trim text).toList ≠ [] := by
    rw [toList_trim]
    exact fun hnil => hblank (forall_isBlank_of_trimList_eq_nil hnil)
  have hdash : '-' ∉ (trim text).toList := by
    rw [toList_trim]
    exact fun hmem => hdash (mem_of_mem_trimList hmem)
  by_cases h : ∃ i, Index.Spells (trim text).toList i
  · obtain ⟨i, hi⟩ := h
    rw [parse_of_spells (.number hi), Index.parse_of_spells hi]
    rfl
  · have hdashes : dashes text < 2 := by
      rw [dashes, List.count_eq_zero.2 hdash]
      exact Nat.zero_lt_two
    have hnot : ∀ r, ¬Spells (trim text).toList r := by
      intro r hr
      rcases hr.of_dash_not_mem hdash with hnil | hi
      · exact hne hnil
      · exact h hi
    rw [parse_of_not_spells hdashes hnot, blamed_of_dash_not_mem htrim hdash,
      String.ofList_toList, Index.parse_of_not_spells (not_exists.1 h)]
    rfl

end IndexRange

/-- **The number that an error names is really a bad one.**  It is there, it stands in the text in
one run, and by itself it is refused in the same words.  It is the leftmost bad part of the text; if
no part is bad then it is the whole text, where a blank beside the only dash is neither a space nor
a tab.  A text without a dash is read as a range as it is read as a number. -/
theorem blamed_numbers_are_bad :
    (∀ text b : String, IndexRange.parse text = .error (.invalidNumber b) →
      ¬BlankText b ∧ b.toList <:+: (trim text).toList ∧
        Index.parse b = .error (.invalidNumber b) ∧
        IndexRange.Blames (trim text).toList b.toList) ∧
    ∀ text : String, ¬BlankText text → '-' ∉ text.toList →
      IndexRange.parse text = (Index.parse text).map IndexRange.single := by
  refine ⟨fun text b h => ?_, fun text => IndexRange.parse_of_dash_not_mem⟩
  obtain ⟨hdashes, hnot, rfl⟩ := IndexRange.parse_eq_invalidNumber_iff.1 h
  have htrim := trimList_toList_trim text
  have hblames := IndexRange.blames_blamed htrim hdashes hnot
  have hself := hblames.trimList_eq htrim
  refine ⟨IndexRange.not_blankText_ofList hself hblames.ne_nil, ?_,
    IndexRange.parse_number_of_not_spells hself hblames.not_spells, ?_⟩
  · rw [String.toList_ofList]
    exact hblames.isInfix
  · rw [String.toList_ofList]
    exact hblames

/-- A bad part behind a good one; a no-break space before the dash, which no part is to blame for;
and a number with zeros in front. -/
theorem blamed_numbers_are_bad_of_odd_blank :
    (IndexRange.parse " 5- 1 2" = .error (.invalidNumber "1 2") ∧
      Index.parse "1 2" = .error (.invalidNumber "1 2")) ∧
    (IndexRange.parse "4\u00a0-7" = .error (.invalidNumber "4\u00a0-7") ∧
      IndexRange.Blames "4\u00a0-7".toList "4\u00a0-7".toList) ∧
    ¬BlankText " 0012" ∧ '-' ∉ " 0012".toList ∧
      IndexRange.parse " 0012" = (Index.parse " 0012").map IndexRange.single := by
  have hpart : IndexRange.parse " 5- 1 2" = .error (.invalidNumber "1 2") := by decide
  have hwhole : IndexRange.parse "4\u00a0-7" = .error (.invalidNumber "4\u00a0-7") := by decide
  have hblank : ¬BlankText " 0012" := by decide
  have hdash : '-' ∉ " 0012".toList := by decide
  have htrim : trim "4\u00a0-7" = "4\u00a0-7" := by decide
  have hblames := (blamed_numbers_are_bad.1 _ _ hwhole).2.2.2
  rw [htrim] at hblames
  exact ⟨⟨hpart, (blamed_numbers_are_bad.1 _ _ hpart).2.2.1⟩, ⟨hwhole, hblames⟩, hblank, hdash,
    blamed_numbers_are_bad.2 _ hblank hdash⟩

end DoctestSelection
