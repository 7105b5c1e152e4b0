import DoctestSelection.Text.Blank

/-!
# Words are maximal runs

`words` cuts a text at each blank and leaves out the empty pieces.  What is left are the maximal
runs of characters that are not blank: each word is preceded by blanks only, and ends where a blank
follows or the text ends.  The runs of a text are described by a relation that does not cut at all,
and there is exactly one list of them.

## Main definitions

* `MaximalRuns cs runs` — `runs` are the maximal runs of characters of `cs` that are not blank.
* `BlankText s` — all characters of `s` are blank.

## Main results

* `wordList_append_cons_of_isBlank` — the words of a text with a blank in it.
* `maximalRuns_iff` — **the words of a text are its maximal runs.**
* `words_append_blanks` — the words of two texts with blanks between them.
* `words_intercalate_space` — the words of texts with single spaces between them.
-/

namespace DoctestSelection.Text

/-! ### The words of a composed text -/

theorem wordList_cons_of_isBlank {c : Char} (hc : isBlank c = true) (cs : List Char) :
    wordList (c :: cs) = wordList cs := by
  unfold wordList
  rw [List.splitOnP_cons_eq_if_modifyHead, if_pos hc]
  rfl

theorem wordList_of_forall_not_isBlank {w : List Char} (hne : w ≠ [])
    (hw : ∀ c ∈ w, isBlank c = false) : wordList w = [w] := by
  unfold wordList
  rw [List.splitOnP_eq_singleton hw, List.filter_cons_of_pos (by simpa using hne), List.filter_nil]

/-- A blank separates words. -/
theorem wordList_append_cons_of_isBlank {c : Char} (hc : isBlank c = true) (cs ds : List Char) :
    wordList (cs ++ c :: ds) = wordList cs ++ wordList ds := by
  unfold wordList
  rw [List.splitOnP_append_cons cs ds hc, List.filter_append]

/-- Blanks in front add no word. -/
theorem wordList_append_of_forall_isBlank {bs : List Char} (hb : ∀ c ∈ bs, isBlank c = true)
    (cs : List Char) : wordList (bs ++ cs) = wordList cs := by
  induction bs with
  | nil => rfl
  | cons b bs ih =>
    rw [List.cons_append, wordList_cons_of_isBlank (hb b (by simp))]
    exact ih fun c hc => hb c (by simp [hc])

theorem wordList_of_forall_isBlank {bs : List Char} (hb : ∀ c ∈ bs, isBlank c = true) :
    wordList bs = [] := by
  rw [← List.append_nil bs, wordList_append_of_forall_isBlank hb, wordList_nil]

/-- A run that ends where a blank follows is a word. -/
theorem wordList_run_append {w rest : List Char} (hne : w ≠ []) (hw : ∀ c ∈ w, isBlank c = false)
    (hrest : ∀ c, rest.head? = some c → isBlank c = true) :
    wordList (w ++ rest) = w :: wordList rest := by
  cases rest with
  | nil => rw [List.append_nil, wordList_of_forall_not_isBlank hne hw, wordList_nil]
  | cons c rest =>
    have hc : isBlank c = true := hrest c rfl
    rw [wordList_append_cons_of_isBlank hc, wordList_of_forall_not_isBlank hne hw,
      wordList_cons_of_isBlank hc, List.singleton_append]

/-- Runs with a blank between any two of them are the words of what they make up. -/
theorem wordList_intercalate {c : Char} (hc : isBlank c = true) {ws : List (List Char)}
    (h : ∀ w ∈ ws, w ≠ [] ∧ ∀ d ∈ w, isBlank d = false) :
    wordList ([c].intercalate ws) = ws := by
  induction ws with
  | nil => rfl
  | cons w ws ih =>
    obtain ⟨⟨hne, hw⟩, hws⟩ := List.forall_mem_cons.1 h
    cases ws with
    | nil => rw [List.intercalate_singleton, wordList_of_forall_not_isBlank hne hw]
    | cons w' ws =>
      rw [List.intercalate_cons_cons, List.append_assoc, List.singleton_append,
        wordList_append_cons_of_isBlank hc, wordList_of_forall_not_isBlank hne hw, ih hws,
        List.singleton_append]

/-! ### Maximal runs -/

/-- The maximal runs of characters of a text that are not blank, in order. -/
inductive MaximalRuns : List Char → List (List Char) → Prop
  /-- Blanks alone hold no run. -/
  | blank {bs : List Char} : (∀ c ∈ bs, isBlank c = true) → MaximalRuns bs []
  /-- The first run has only blanks before it and no more of its characters behind it. -/
  | run {bs w rest : List Char} {runs : List (List Char)} :
    (∀ c ∈ bs, isBlank c = true) → w ≠ [] → (∀ c ∈ w, isBlank c = false) →
    (∀ c, rest.head? = some c → isBlank c = true) → MaximalRuns rest runs →
    MaximalRuns (bs ++ w ++ rest) (w :: runs)

theorem MaximalRuns.eq_wordList {cs : List Char} {runs : List (List Char)}
    (h : MaximalRuns cs runs) : runs = wordList cs := by
  induction h with
  | blank hb => rw [wordList_of_forall_isBlank hb]
  | run hb hne hw hrest _ ih =>
    rw [List.append_assoc, wordList_append_of_forall_isBlank hb, wordList_run_append hne hw hrest,
      ih]

theorem MaximalRuns.run_append {w rest : List Char} {runs : List (List Char)} (hne : w ≠ [])
    (hw : ∀ c ∈ w, isBlank c = false) (hrest : ∀ c, rest.head? = some c → isBlank c = true)
    (h : MaximalRuns rest runs) : MaximalRuns (w ++ rest) (w :: runs) := by
  rw [← List.nil_append w]
  exact .run (by simp) hne hw hrest h

theorem exists_maximalRuns (cs : List Char) : ∃ runs, MaximalRuns cs runs := by
  induction cs with
  | nil => exact ⟨[], .blank (by simp)⟩
  | cons c cs ih =>
    obtain ⟨runs, h⟩ := ih
    cases hc : isBlank c with
    | true =>
      -- a blank goes to the blanks in front
      cases h with
      | blank hb => exact ⟨[], .blank (by simpa [hc] using hb)⟩
      | @run bs w rest runs hb hne hw hrest h =>
        have hcons : ∀ d ∈ c :: bs, isBlank d = true := by simpa [hc] using hb
        exact ⟨w :: runs, .run hcons hne hw hrest h⟩
    | false =>
      have hself : ∀ d ∈ [c], isBlank d = false := by simpa using hc
      cases h with
      | blank hb =>
        refine ⟨[[c]], .run_append (List.cons_ne_nil c []) hself ?_ (.blank hb)⟩
        exact fun d hd => hb d (List.mem_of_mem_head? hd)
      | @run bs w rest runs hb hne hw hrest h =>
        cases bs with
        | nil =>
          -- a character right before the first run belongs to it
          have hcons : ∀ d ∈ c :: w, isBlank d = false := by simpa [hc] using hw
          exact ⟨(c :: w) :: runs, .run_append (List.cons_ne_nil c w) hcons hrest h⟩
        | cons b bs =>
          -- before a blank it is a run of its own
          refine ⟨[c] :: w :: runs, .run_append (List.cons_ne_nil c []) hself ?_
            (.run hb hne hw hrest h)⟩
          intro d hd
          obtain rfl : b = d := by simpa using hd
          exact hb b (by simp)

/-- **The words of a text are its maximal runs.** -/
theorem maximalRuns_iff {cs : List Char} {runs : List (List Char)} :
    MaximalRuns cs runs ↔ runs = wordList cs := by
  constructor
  · exact MaximalRuns.eq_wordList
  · rintro rfl
    obtain ⟨runs, h⟩ := exists_maximalRuns cs
    rwa [← h.eq_wordList]

/-! ### Blank texts -/

/-- A text is blank when all of its characters are. -/
def BlankText (s : String) : Prop := ∀ c ∈ s.toList, isBlank c = true

instance (s : String) : Decidable (BlankText s) :=
  List.decidableBAll (isBlank · = true) s.toList

theorem wordList_eq_nil_iff {cs : List Char} :
    wordList cs = [] ↔ ∀ c ∈ cs, isBlank c = true := by
  constructor
  · intro h
    have hruns : MaximalRuns cs [] := maximalRuns_iff.2 h.symm
    cases hruns with
    | blank hb => exact hb
  · exact wordList_of_forall_isBlank

/-- Only a blank text has no words. -/
theorem words_eq_nil_iff {s : String} : words s = [] ↔ BlankText s := by
  rw [words, List.map_eq_nil_iff]
  exact wordList_eq_nil_iff

/-- Blanks between two texts keep their words apart and add none. -/
theorem words_append_blanks {w : String} (hne : w ≠ "") (hw : BlankText w) (a b : String) :
    words (a ++ w ++ b) = words a ++ words b := by
  have hlist : wordList (a ++ w ++ b).toList = wordList a.toList ++ wordList b.toList := by
    rw [String.toList_append, String.toList_append]
    cases hcs : w.toList with
    | nil => exact absurd (String.toList_eq_nil_iff.1 hcs) hne
    | cons c cs =>
      have hblank : ∀ d ∈ c :: cs, isBlank d = true := hcs ▸ hw
      have hc : isBlank c = true := hblank c List.mem_cons_self
      have hcs : ∀ d ∈ cs, isBlank d = true := fun d hd => hblank d (List.mem_cons_of_mem c hd)
      rw [List.append_assoc, List.cons_append, wordList_append_cons_of_isBlank hc,
        wordList_append_of_forall_isBlank hcs]
  rw [words, hlist, List.map_append]
  rfl

/-- A space between texts keeps their words apart, however many of them are blank. -/
theorem words_intercalate_space (texts : List String) :
    words (" ".intercalate texts) = texts.flatMap words := by
  have hspace : BlankText " " := by decide
  induction texts with
  | nil => rfl
  | cons a texts ih =>
    cases texts with
    | nil => rw [String.intercalate_singleton, List.flatMap_singleton]
    | cons b texts =>
      rw [String.intercalate_cons_cons, words_append_blanks (by decide) hspace, ih]
      rfl

end DoctestSelection.Text
