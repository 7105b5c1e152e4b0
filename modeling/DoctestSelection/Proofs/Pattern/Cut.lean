import DoctestSelection.Pattern.Basic
import DoctestSelection.Proofs.Text.Pieces

/-!
# The wildcard reading of a name pattern

A pattern is a row of literal pieces with wildcards around them, and a name matches when it can be
cut along these pieces: anything, then each piece with a gap behind it.  No gap holds a line break,
and the last one is empty unless the pattern ends with a wildcard.

The expression of a pattern is gathered from what stands between single wildcards, where a run of
wildcards leaves empty pieces.  The flag that keeps two gaps apart makes these invisible: read right
behind a gap, an empty piece adds nothing, and a literal piece adds itself and, if anything follows
it, a gap and what is read behind that gap.

## Main definitions

* `segments cs` — the literal pieces of a pattern, between the runs of wildcards.
* `hasOpenEnd cs` — whether a pattern ends with a wildcard.
* `interleave pieces gaps` — each piece with the gap behind it.
* `Cut pieces openEnd cs` — `cs` is the pieces, with allowed gaps behind them.

## Main results

* `suffixRegex_wildcard_wildcard` — **a run of wildcards stands for the same as one.**
* `fits_regexOfPieces` — what is read behind a gap fits the texts that are cut along its pieces.
* `compile_accepts_iff_cut` — **a compiled pattern accepts exactly the names that can be cut along
  its pieces**, and what is not compiled.
-/

namespace DoctestSelection

open Text

/-! ### The pieces of a pattern -/

/-- The literal pieces of a pattern: what stands between the runs of wildcards. -/
def segments (cs : List Char) : List (List Char) :=
  (cs.splitOn wildcard).filter (!·.isEmpty)

/-- Whether a pattern ends with a wildcard, and so leaves the end of a name open. -/
def hasOpenEnd (cs : List Char) : Bool := cs.getLast? == some wildcard

/-- Only wildcards leave a pattern without pieces. -/
theorem segments_ne_nil {cs : List Char} (h : ∃ c ∈ cs, c ≠ wildcard) : segments cs ≠ [] := by
  induction cs with
  | nil => simp at h
  | cons c cs ih =>
    unfold segments
    rw [List.splitOn_cons_eq_if_modifyHead]
    split
    · rename_i hc
      rw [List.filter_cons_of_neg (by simp)]
      exact ih (by simpa [beq_iff_eq.1 hc] using h)
    · -- the character goes to the first piece, which is then not empty
      cases hsplit : cs.splitOn wildcard with
      | nil => exact absurd hsplit (List.splitOn_ne_nil wildcard cs)
      | cons piece pieces => simp

/-- A pattern ends with a wildcard when nothing stands behind its last wildcard. -/
theorem getLast?_splitOn_wildcard {cs : List Char} (hcs : cs ≠ []) :
    ((cs.splitOn wildcard).getLast? == some []) = hasOpenEnd cs := by
  rw [hasOpenEnd, Bool.eq_iff_iff, beq_iff_eq, beq_iff_eq, getLast?_splitOn_eq_some_nil_iff,
    or_iff_right hcs]

/-! ### Cutting along pieces -/

/-- Each piece with the gap behind it. -/
def interleave (pieces gaps : List (List Char)) : List Char :=
  (List.zipWith (· ++ ·) pieces gaps).flatten

@[simp] theorem interleave_nil (gaps : List (List Char)) : interleave [] gaps = [] := rfl

@[simp] theorem interleave_cons (piece gap : List Char) (pieces gaps : List (List Char)) :
    interleave (piece :: pieces) (gap :: gaps) = piece ++ gap ++ interleave pieces gaps := rfl

/-- A text is cut along pieces when it is these pieces with a gap behind each of them.  A gap holds
no line break, and the last one is empty unless the end is open. -/
def Cut (pieces : List (List Char)) (openEnd : Bool) (cs : List Char) : Prop :=
  ∃ gaps : List (List Char), gaps.length = pieces.length ∧ cs = interleave pieces gaps ∧
    (∀ gap ∈ gaps, '\n' ∉ gap) ∧ (openEnd = false → ∀ gap, gaps.getLast? = some gap → gap = [])

@[simp] theorem cut_nil {openEnd : Bool} {cs : List Char} : Cut [] openEnd cs ↔ cs = [] := by
  constructor
  · rintro ⟨gaps, -, rfl, -⟩
    rfl
  · rintro rfl
    exact ⟨[], rfl, rfl, by simp, by simp⟩

theorem cut_singleton {piece : List Char} {openEnd : Bool} {cs : List Char} :
    Cut [piece] openEnd cs ↔
      ∃ gap, cs = piece ++ gap ∧ '\n' ∉ gap ∧ (openEnd = false → gap = []) := by
  constructor
  · rintro ⟨gaps, hlen, rfl, hline, hend⟩
    obtain ⟨gap, rfl⟩ := List.length_eq_one_iff.1 hlen
    exact ⟨gap, by simp, hline gap (by simp), fun h => hend h gap rfl⟩
  · rintro ⟨gap, rfl, hline, hend⟩
    exact ⟨[gap], rfl, by simp, by simpa using hline, by simpa using hend⟩

/-- Behind a piece that is not the last one stands any gap. -/
theorem cut_cons {piece : List Char} {pieces : List (List Char)} (hne : pieces ≠ [])
    {openEnd : Bool} {cs : List Char} :
    Cut (piece :: pieces) openEnd cs ↔
      ∃ gap rest, cs = piece ++ (gap ++ rest) ∧ '\n' ∉ gap ∧ Cut pieces openEnd rest := by
  constructor
  · rintro ⟨_ | ⟨gap, gaps⟩, hlen, rfl, hline, hend⟩
    · simp at hlen
    · have hgaps : gaps ≠ [] := by
        rintro rfl
        exact hne (List.length_eq_zero_iff.1 (by simpa using hlen.symm))
      refine ⟨gap, interleave pieces gaps, by simp, hline gap (by simp), gaps, by simpa using hlen,
        rfl, fun g hg => hline g (by simp [hg]), fun h g hg => hend h g ?_⟩
      rw [List.getLast?_cons_of_ne_nil hgaps, hg]
  · rintro ⟨gap, rest, rfl, hgap, gaps, hlen, rfl, hline, hend⟩
    have hgaps : gaps ≠ [] := by
      rintro rfl
      exact hne (List.length_eq_zero_iff.1 hlen.symm)
    refine ⟨gap :: gaps, by simp [hlen], by simp, by simpa [hgap] using hline, fun h g hg => ?_⟩
    rw [List.getLast?_cons_of_ne_nil hgaps] at hg
    exact hend h g hg

/-! ### What fits a part of a pattern -/

theorem fits_literals_append {s : List Char} {ps : Regex} {cs : List Char} :
    Fits (s.map .literal ++ ps) cs ↔ ∃ rest, cs = s ++ rest ∧ Fits ps rest := by
  induction s generalizing cs with
  | nil => simp
  | cons c s ih =>
    rw [List.map_cons, List.cons_append]
    cases cs with
    | nil => simp [not_fits_literal_nil]
    | cons d cs =>
      rw [fits_literal_cons, ih]
      simp only [List.cons_append, List.cons.injEq]
      constructor
      · rintro ⟨rfl, rest, rfl, h⟩
        exact ⟨rest, ⟨rfl, rfl⟩, h⟩
      · rintro ⟨rest, ⟨rfl, rfl⟩, h⟩
        exact ⟨rfl, rest, rfl, h⟩

theorem fits_gap_iff {ps : Regex} {cs : List Char} :
    Fits (.gap :: ps) cs ↔ ∃ gap rest, cs = gap ++ rest ∧ '\n' ∉ gap ∧ Fits ps rest := by
  induction cs with
  | nil =>
    rw [fits_gap_nil]
    constructor
    · exact fun h => ⟨[], [], rfl, by simp, h⟩
    · rintro ⟨gap, rest, he, -, h⟩
      rwa [(List.append_eq_nil_iff.1 he.symm).2] at h
  | cons c cs ih =>
    rw [fits_gap_cons, ih]
    constructor
    · rintro (h | ⟨hc, gap, rest, rfl, hgap, h⟩)
      · exact ⟨[], c :: cs, rfl, by simp, h⟩
      · exact ⟨c :: gap, rest, rfl, by simp [hgap, Ne.symm hc], h⟩
    · rintro ⟨_ | ⟨d, gap⟩, rest, he, hgap, h⟩
      · rw [List.nil_append] at he
        exact .inl (he ▸ h)
      · obtain ⟨rfl, rfl⟩ := List.cons.inj he
        simp only [List.mem_cons, not_or] at hgap
        exact .inr ⟨Ne.symm hgap.1, gap, rest, rfl, hgap.2, h⟩

/-- A gap in front of an expression makes no difference to whether it fits somewhere. -/
theorem exists_fits_gap_cons {ps : Regex} {name : List Char} :
    (∃ before rest, name = before ++ rest ∧ Fits (.gap :: ps) rest) ↔
      ∃ before rest, name = before ++ rest ∧ Fits ps rest := by
  constructor
  · rintro ⟨before, rest, rfl, h⟩
    obtain ⟨gap, rest, rfl, -, h⟩ := fits_gap_iff.1 h
    exact ⟨before ++ gap, rest, by simp, h⟩
  · rintro ⟨before, rest, rfl, h⟩
    exact ⟨before, rest, rfl, .skip h⟩

/-! ### The expression of a pattern -/

theorem regexOfPieces_isFirst (pieces : List (List Char)) :
    regexOfPieces true true pieces = regexOfPieces false true pieces := by
  cases pieces with
  | nil => rfl
  | cons piece pieces => simp [regexOfPieces_cons]

/-- Behind a gap no second gap is added. -/
theorem regexOfPieces_cons_of_afterGap (piece : List Char) (pieces : List (List Char)) :
    regexOfPieces false true (piece :: pieces) =
      piece.map .literal ++ regexOfPieces false piece.isEmpty pieces := by
  simp [regexOfPieces_cons]

/-- Behind a literal, whatever follows comes after a gap. -/
theorem regexOfPieces_cons_of_not_afterGap (piece : List Char) (pieces : List (List Char)) :
    regexOfPieces false false (piece :: pieces) =
      .gap :: regexOfPieces false true (piece :: pieces) := by
  simp [regexOfPieces_cons]

theorem regexOfPieces_nil_cons (afterGap : Bool) {pieces : List (List Char)} (hne : pieces ≠ []) :
    regexOfPieces false afterGap ([] :: pieces) = regexOfPieces false afterGap pieces := by
  cases afterGap with
  | true => rw [regexOfPieces_cons_of_afterGap, List.map_nil, List.nil_append, List.isEmpty_nil]
  | false =>
    -- the gap that the empty piece adds is the one that the next piece would add
    obtain ⟨piece, pieces, rfl⟩ := List.exists_cons_of_ne_nil hne
    rw [regexOfPieces_cons_of_not_afterGap, regexOfPieces_cons_of_not_afterGap,
      regexOfPieces_cons_of_afterGap, List.map_nil, List.nil_append, List.isEmpty_nil]

theorem regexOfPieces_append_nil_cons (before : List (List Char)) (afterGap : Bool)
    {after : List (List Char)} (hafter : after ≠ []) :
    regexOfPieces false afterGap (before ++ [] :: after) =
      regexOfPieces false afterGap (before ++ after) := by
  induction before generalizing afterGap with
  | nil => exact regexOfPieces_nil_cons afterGap hafter
  | cons piece before ih =>
    rw [List.cons_append, List.cons_append, regexOfPieces_cons, regexOfPieces_cons, ih]

/-- **A run of wildcards stands for the same as one.** -/
theorem suffixRegex_wildcard_wildcard (before after : List Char) :
    suffixRegex (String.ofList (before ++ wildcard :: wildcard :: after)) =
      suffixRegex (String.ofList (before ++ wildcard :: after)) := by
  have hw : (wildcard == wildcard) = true := by simp
  have hcut (cs : List Char) :
      (before ++ wildcard :: cs).splitOn wildcard =
        before.splitOn wildcard ++ cs.splitOn wildcard :=
    List.splitOnP_append_cons _ _ hw
  obtain ⟨piece, pieces, hpieces⟩ :=
    List.exists_cons_of_ne_nil (List.splitOn_ne_nil wildcard before)
  rw [suffixRegex, suffixRegex, String.toList_ofList, String.toList_ofList, hcut, hcut, hpieces,
    List.splitOn_cons_eq_if_modifyHead, if_pos hw, List.cons_append, List.cons_append,
    regexOfPieces_cons, regexOfPieces_cons,
    regexOfPieces_append_nil_cons _ _ (List.splitOn_ne_nil wildcard after)]

theorem getLast?_eq_of_filter_eq_nil {pieces : List (List Char)} (hne : pieces ≠ [])
    (h : pieces.filter (!·.isEmpty) = []) : pieces.getLast? = some [] := by
  rw [List.getLast?_eq_some_getLast hne, Option.some.injEq]
  have hall := List.filter_eq_nil_iff.1 h _ (List.getLast_mem hne)
  simpa using hall

/-- A piece that something follows has a gap behind it, also if only wildcards follow. -/
theorem cut_cons_filter (piece : List Char) {pieces : List (List Char)} (hne : pieces ≠ [])
    (cs : List Char) :
    Cut (piece :: pieces.filter (!·.isEmpty)) (pieces.getLast? == some []) cs ↔
      ∃ rest, cs = piece ++ rest ∧ ∃ gap rest', rest = gap ++ rest' ∧ '\n' ∉ gap ∧
        Cut (pieces.filter (!·.isEmpty)) (pieces.getLast? == some []) rest' := by
  by_cases hnil : pieces.filter (!·.isEmpty) = []
  · -- then the end is open
    rw [hnil, getLast?_eq_of_filter_eq_nil hne hnil, cut_singleton]
    simp
  · rw [cut_cons hnil]
    constructor
    · rintro ⟨gap, rest, rfl, hgap, h⟩
      exact ⟨gap ++ rest, rfl, gap, rest, rfl, hgap, h⟩
    · rintro ⟨_, rfl, gap, rest, rfl, hgap, h⟩
      exact ⟨gap, rest, rfl, hgap, h⟩

/-- What is read behind a gap fits the texts that are cut along its literal pieces.  The end is open
when the last piece is empty. -/
theorem fits_regexOfPieces (pieces : List (List Char)) (cs : List Char) :
    Fits (regexOfPieces false true pieces) cs ↔
      Cut (pieces.filter (!·.isEmpty)) (pieces.getLast? == some []) cs := by
  induction pieces generalizing cs with
  | nil =>
    rw [regexOfPieces, fits_textEnd, List.filter_nil, cut_nil]
    exact and_iff_left .nil
  | cons piece pieces ih =>
    rw [regexOfPieces_cons_of_afterGap]
    by_cases hpiece : piece = []
    · -- nothing is added for an empty piece
      subst hpiece
      rw [List.map_nil, List.nil_append, List.isEmpty_nil, ih, List.filter_cons_of_neg (by simp)]
      by_cases hpieces : pieces = []
      · rw [hpieces, List.filter_nil, cut_nil, cut_nil]
      · rw [List.getLast?_cons_of_ne_nil hpieces]
    · rw [fits_literals_append, List.isEmpty_eq_false_iff.2 hpiece,
        List.filter_cons_of_pos (by simpa using hpiece)]
      cases pieces with
      | nil =>
        -- the last piece is literal, so nothing may follow
        rw [List.filter_nil, cut_singleton]
        simp [regexOfPieces, fits_textEnd, Fits.nil, hpiece]
      | cons next pieces =>
        have hne : next :: pieces ≠ [] := List.cons_ne_nil _ _
        rw [List.getLast?_cons_of_ne_nil hne, cut_cons_filter piece hne]
        simp only [regexOfPieces_cons_of_not_afterGap, fits_gap_iff, ih]

/-- A pattern accepts the names of which some end is cut along its pieces. -/
theorem NamePattern.accepts_iff_cut {p : NamePattern} {name : String} :
    p.accepts name = true ↔
      ∃ before rest, name.toList = before ++ rest ∧
        Cut (segments p.text.toList) (hasOpenEnd p.text.toList) rest := by
  have hne : p.text.toList ≠ [] := by
    obtain ⟨c, hc, -⟩ := p.hasLiteral
    exact List.ne_nil_of_mem hc
  rw [accepts, Regex.isMatch_iff, regex, suffixRegex, exists_fits_gap_cons]
  simp only [regexOfPieces_isFirst, fits_regexOfPieces, getLast?_splitOn_wildcard hne, segments]

/-- **A compiled pattern accepts exactly the names that can be cut along its pieces.**  What is not
compiled has no literal character, or is refused by the engine. -/
theorem compile_accepts_iff_cut [PatternEngine] (text : String) :
    ((∃ filter, NamePattern.compile text = .error (.emptyName filter)) ↔
        ∀ c ∈ (trim text).toList, c = wildcard) ∧
      (∀ e, NamePattern.compile text = .error e →
        e = .emptyName (trim text) ∨
          ∃ message, PatternEngine.complaint? (suffixRegex (trim text)) = some message ∧
            e = .invalidPattern (trim text) message) ∧
      ∀ p, NamePattern.compile text = .ok p →
        segments (trim text).toList ≠ [] ∧
          ∀ name : String, p.accepts name = true ↔
            ∃ (before : List Char) (gaps : List (List Char)),
              gaps.length = (segments (trim text).toList).length ∧
              name.toList = before ++ interleave (segments (trim text).toList) gaps ∧
              (∀ gap ∈ gaps, '\n' ∉ gap) ∧
              (hasOpenEnd (trim text).toList = false →
                ∀ gap, gaps.getLast? = some gap → gap = []) := by
  refine ⟨?_, ?_, ?_⟩
  · constructor
    · rintro ⟨filter, h⟩
      rcases NamePattern.compile_eq_error_iff.1 h with ⟨hall, -⟩ | ⟨-, message, -, he⟩
      · exact hall
      · cases he
    · exact fun h => ⟨_, NamePattern.compile_of_forall_eq_wildcard h⟩
  · intro e h
    rcases NamePattern.compile_eq_error_iff.1 h with ⟨-, he⟩ | ⟨-, message, hm, he⟩
    · exact .inl he
    · exact .inr ⟨message, hm, he⟩
  · intro p h
    have ht : p.text = trim text := (NamePattern.compile_eq_ok_iff.1 h).1
    rw [← ht]
    refine ⟨segments_ne_nil p.hasLiteral, fun name => ?_⟩
    rw [NamePattern.accepts_iff_cut]
    constructor
    · rintro ⟨before, rest, hname, gaps, hlen, rfl, hline, hend⟩
      exact ⟨before, gaps, hlen, hname, hline, hend⟩
    · rintro ⟨before, gaps, hlen, hname, hline, hend⟩
      exact ⟨before, _, hname, gaps, hlen, rfl, hline, hend⟩

attribute [local instance] PatternEngine.bySize

/-- A name may have a line break before the first piece, but not between two of them. -/
example :
    (NamePattern.compile "a*b").map (fun p => (p.accepts "x\nac.b", p.accepts "a\nb")) =
      .ok (true, false) := by
  rfl

end DoctestSelection
