import DoctestSelection.Filter.Parser
import DoctestSelection.Proofs.Text.Pieces
import DoctestSelection.Proofs.Text.Words
import Mathlib.Data.List.TakeWhile

/-!
# The grammar of filter expressions

A filter is told by the colons in it: more than one is an error, none makes it a name, and one
parts a name from a list of ranges.  What is wrong with a filter is found in this order: the number
of its parts, a name without a literal character, a name that the matching engine refuses, and last
the leftmost range that cannot be read.  `Filter.Reads` states these rules one by one, errors
included, without the stages of `Filter.parse`; a text reads in exactly one way.

An expression is read filter by filter, and a filter is a maximal run of characters that are not
blank.

## Main definitions

* `Filter.colons`, `Filter.nameChars`, `Filter.rangeTexts` — the parts of a trimmed filter.
* `Filter.Reads text result` — the rules by which a text reads as a filter, or as an error.

## Main results

* `Filter.parse_of_reads` — each rule is followed.
* `Filter.exists_reads` — some rule applies to every text.
* `parse_iff_reads` — **filters and expressions are read by exactly these rules.**
-/

namespace DoctestSelection

open Text

/-! ### The parts of a filter -/

namespace Filter

/-- The number of colons in a filter. -/
def colons (text : String) : Nat := (trim text).toList.count ':'

/-- The name part of a filter, trimmed: what stands before the first colon. -/
def nameChars (text : String) : List Char := trimList ((trim text).toList.takeWhile (· != ':'))

/-- The ranges part of a filter: what stands behind the first colon. -/
def rangesChars (text : String) : List Char := ((trim text).toList.dropWhile (· != ':')).tail

/-- The ranges of a filter, as they stand between commas. -/
def rangeTexts (text : String) : List String :=
  ((rangesChars text).splitOn ',').map String.ofList

theorem trim_ofList (cs : List Char) : trim (String.ofList cs) = String.ofList (trimList cs) := by
  rw [trim, String.toList_ofList]

theorem splitParts_of_two_le_colons {text : String} (h : 2 ≤ colons text) :
    splitParts text = .error (.tooManyParts (trim text) (colons text + 1)) := by
  have hlen := length_splitOn ':' (trim text).toList
  unfold colons at h
  unfold splitParts
  split
  · rename_i hs
    rw [hs, List.length_singleton] at hlen
    omega
  · rename_i hs
    rw [hs, List.length_cons, List.length_singleton] at hlen
    omega
  · rw [hlen, colons]

theorem splitParts_of_colons_eq_zero {text : String} (h : colons text = 0) :
    splitParts text = .ok (String.ofList ((trim text).toList.takeWhile (· != ':')), none) := by
  have hfront : (trim text).toList.takeWhile (· != ':') = (trim text).toList := by
    rw [List.takeWhile_eq_self_iff]
    intro c hc
    exact bne_iff_ne.2 fun he => List.count_eq_zero.1 h (he ▸ hc)
  rw [splitParts, splitOn_of_count_eq_zero h, hfront]

theorem splitParts_of_colons_eq_one {text : String} (h : colons text = 1) :
    splitParts text =
      .ok (String.ofList ((trim text).toList.takeWhile (· != ':')),
        some (String.ofList (rangesChars text))) := by
  rw [splitParts, splitOn_of_count_eq_one h]
  rfl

theorem exists_splitParts {text : String} (h : colons text < 2) :
    ∃ ranges, splitParts text =
      .ok (String.ofList ((trim text).toList.takeWhile (· != ':')), ranges) := by
  rcases Nat.lt_or_ge (colons text) 1 with h0 | h1
  · exact ⟨none, splitParts_of_colons_eq_zero (by omega)⟩
  · exact ⟨_, splitParts_of_colons_eq_one (by omega)⟩

theorem parseRanges_rangesChars (text : String) :
    parseRanges (some (String.ofList (rangesChars text))) =
      ((rangeTexts text).mapM IndexRange.parse).map fun ranges => some ⟨ranges⟩ := by
  have hread : (fun r => IndexRange.parse (String.ofList r)) =
      IndexRange.parse ∘ String.ofList := rfl
  rw [parseRanges, RangeSet.parse, String.toList_ofList, rangeTexts, List.mapM_map, hread]
  cases (List.splitOn ',' (rangesChars text)).mapM (IndexRange.parse ∘ String.ofList) <;> rfl

theorem exists_pattern {text : String} (named : ∃ c ∈ nameChars text, c ≠ wildcard) :
    ∃ p : NamePattern, p.text = String.ofList (nameChars text) ∧
      p.regex = suffixRegex (String.ofList (nameChars text)) :=
  ⟨⟨String.ofList (nameChars text), by rw [trim_ofList, nameChars, trimList_trimList],
    by rwa [String.toList_ofList]⟩, rfl, rfl⟩

/-! ### The rules -/

variable [PatternEngine]

/-- The rules by which a text reads as a filter, or as the error that is told about it. -/
inductive Reads (text : String) : Except FilterError Filter → Prop
  /-- A second colon is an error, whatever else is wrong. -/
  | tooManyParts : 2 ≤ colons text →
    Reads text (.error (.tooManyParts (trim text) (colons text + 1)))
  /-- A name without a literal character is an error, also before a bad range. -/
  | emptyName : colons text < 2 → (∀ c ∈ nameChars text, c = wildcard) →
    Reads text (.error (.emptyName (trim text)))
  /-- A name that the engine refuses is an error, also before a bad range. -/
  | invalidPattern {message : String} : colons text < 2 → (∃ c ∈ nameChars text, c ≠ wildcard) →
    PatternEngine.complaint? (suffixRegex (String.ofList (nameChars text))) = some message →
    Reads text (.error (.invalidPattern (String.ofList (nameChars text)) message))
  /-- Behind a good name, the leftmost range that cannot be read is an error. -/
  | badRange {before after : List String} {range : String} {e : FilterError} :
    colons text = 1 → (∃ c ∈ nameChars text, c ≠ wildcard) →
    PatternEngine.complaint? (suffixRegex (String.ofList (nameChars text))) = none →
    rangeTexts text = before ++ range :: after →
    (∀ r ∈ before, ∃ parsed, IndexRange.parse r = .ok parsed) → IndexRange.parse range = .error e →
    Reads text (.error e)
  /-- Without a colon, a good name is a filter. -/
  | name {p : NamePattern} : colons text = 0 → p.text = String.ofList (nameChars text) →
    PatternEngine.complaint? p.regex = none → Reads text (.ok ⟨p, none⟩)
  /-- With a colon, a good name and good ranges are a filter. -/
  | nameAndRanges {p : NamePattern} {ranges : List IndexRange} : colons text = 1 →
    p.text = String.ofList (nameChars text) → PatternEngine.complaint? p.regex = none →
    List.Forall₂ (fun r parsed => IndexRange.parse r = .ok parsed) (rangeTexts text) ranges →
    Reads text (.ok ⟨p, some ⟨ranges⟩⟩)

/-! ### The rules are followed -/

/-- Once the parts are told apart, the name decides before the ranges. -/
theorem parse_of_splitParts {text name : String} {ranges : Option String}
    (h : splitParts text = .ok (name, ranges)) :
    Filter.parse text =
      match NamePattern.compile name with
      | .error e => .error (e.inFilter (trim text))
      | .ok p => (parseRanges ranges).map fun parsed => ⟨p, parsed⟩ := by
  rw [Filter.parse, h, ok_bind]
  dsimp only
  cases NamePattern.compile name with
  | error e => rw [mapError_error, error_bind]
  | ok p =>
    rw [mapError_ok, ok_bind]
    cases parseRanges ranges with
    | error e =>
      rw [error_bind]
      rfl
    | ok parsed =>
      rw [ok_bind]
      rfl

theorem parse_of_forall_eq_wildcard {text : String} (h : colons text < 2)
    (hall : ∀ c ∈ nameChars text, c = wildcard) :
    Filter.parse text = .error (.emptyName (trim text)) := by
  obtain ⟨ranges, hsplit⟩ := exists_splitParts h
  rw [parse_of_splitParts hsplit, NamePattern.compile_of_forall_eq_wildcard]
  · rfl
  · rwa [trim_ofList, String.toList_ofList]

theorem parse_of_complaint {text message : String} (h : colons text < 2)
    (named : ∃ c ∈ nameChars text, c ≠ wildcard)
    (hc : PatternEngine.complaint? (suffixRegex (String.ofList (nameChars text))) = some message) :
    Filter.parse text = .error (.invalidPattern (String.ofList (nameChars text)) message) := by
  obtain ⟨ranges, hsplit⟩ := exists_splitParts h
  rw [nameChars, ← trim_ofList] at hc
  rw [parse_of_splitParts hsplit, NamePattern.compile_of_complaint _ hc, trim_ofList]
  · rfl
  · rwa [trim_ofList, String.toList_ofList]

theorem parse_of_pattern {text : String} {ranges : Option String} {p : NamePattern}
    (h : splitParts text =
      .ok (String.ofList ((trim text).toList.takeWhile (· != ':')), ranges))
    (hp : p.text = String.ofList (nameChars text))
    (hc : PatternEngine.complaint? p.regex = none) :
    Filter.parse text = (parseRanges ranges).map fun parsed => ⟨p, parsed⟩ := by
  rw [nameChars, ← trim_ofList] at hp
  rw [parse_of_splitParts h, NamePattern.compile_eq_ok_iff.2 ⟨hp, hc⟩]

/-- Each rule is followed. -/
theorem parse_of_reads {text : String} {result : Except FilterError Filter}
    (h : Reads text result) : Filter.parse text = result := by
  cases h with
  | tooManyParts h =>
    rw [Filter.parse, splitParts_of_two_le_colons h]
    rfl
  | emptyName h hall => exact parse_of_forall_eq_wildcard h hall
  | invalidPattern h named hc => exact parse_of_complaint h named hc
  | @badRange before after range e h named hc hranges hbefore hrange =>
    obtain ⟨p, hp, hregex⟩ := exists_pattern named
    have herror : (rangeTexts text).mapM IndexRange.parse = .error e :=
      mapM_eq_error_iff.2 ⟨before, range, after, hranges, hbefore, hrange⟩
    rw [parse_of_pattern (splitParts_of_colons_eq_one h) hp (hregex ▸ hc), parseRanges_rangesChars,
      herror]
    rfl
  | name h hp hc =>
    rw [parse_of_pattern (splitParts_of_colons_eq_zero h) hp hc]
    rfl
  | nameAndRanges h hp hc hranges =>
    rw [parse_of_pattern (splitParts_of_colons_eq_one h) hp hc, parseRanges_rangesChars,
      mapM_eq_ok_iff.2 hranges]
    rfl

/-- Some rule applies to every text. -/
theorem exists_reads (text : String) : ∃ result, Reads text result := by
  rcases Nat.lt_or_ge (colons text) 2 with h | h
  · by_cases named : ∃ c ∈ nameChars text, c ≠ wildcard
    · obtain ⟨p, hp, hregex⟩ := exists_pattern named
      cases hc : PatternEngine.complaint? (suffixRegex (String.ofList (nameChars text))) with
      | some message => exact ⟨_, .invalidPattern h named hc⟩
      | none =>
        rcases Nat.lt_or_ge (colons text) 1 with h0 | h1
        · exact ⟨_, .name (by omega) hp (hregex ▸ hc)⟩
        · have hone : colons text = 1 := by omega
          cases hranges : (rangeTexts text).mapM IndexRange.parse with
          | ok ranges =>
            exact ⟨_, .nameAndRanges hone hp (hregex ▸ hc) (mapM_eq_ok_iff.1 hranges)⟩
          | error e =>
            obtain ⟨before, range, after, hsplit, hbefore, hrange⟩ := mapM_eq_error_iff.1 hranges
            exact ⟨_, .badRange hone named hc hsplit hbefore hrange⟩
    · exact ⟨_, .emptyName h (by simpa using named)⟩
  · exact ⟨_, .tooManyParts h⟩

/-- A text reads in exactly one way, which is what comes of it. -/
theorem parse_eq_iff_reads {text : String} {result : Except FilterError Filter} :
    Filter.parse text = result ↔ Reads text result := by
  constructor
  · rintro rfl
    obtain ⟨result, h⟩ := exists_reads text
    rwa [parse_of_reads h]
  · exact parse_of_reads

/-- Nothing behind the colon is one range, of every index. -/
theorem ranges_of_rangesChars_eq_nil {text : String} {f : Filter} (h : Filter.parse text = .ok f)
    (hcolons : colons text = 1) (hnil : rangesChars text = []) : f.ranges = some RangeSet.all := by
  cases parse_eq_iff_reads.1 h with
  | name h0 => omega
  | nameAndRanges _ _ _ hranges =>
    have hone : (rangeTexts text).mapM IndexRange.parse = .ok [IndexRange.all] := by
      rw [rangeTexts, hnil]
      rfl
    obtain rfl := Except.ok.inj ((mapM_eq_ok_iff.2 hranges).symm.trans hone)
    rfl

end Filter

/-! ### Expressions -/

namespace ExpressionParser

variable {p : ExpressionParser} {expression : String}

theorem parse_eq_ok_iff {fs : FilterSet} :
    p.parse expression = .ok fs ↔ (p.split expression).mapM p.parseFilter = .ok fs.filters := by
  unfold parse
  cases (p.split expression).mapM p.parseFilter with
  | error e => exact iff_of_false nofun nofun
  | ok filters =>
    constructor
    · intro h
      rw [← Except.ok.inj h]
    · intro h
      rw [Except.ok.inj h]
      rfl

theorem parse_eq_error_iff {e : FilterError} :
    p.parse expression = .error e ↔ (p.split expression).mapM p.parseFilter = .error e := by
  unfold parse
  cases (p.split expression).mapM p.parseFilter with
  | error e' =>
    show Except.error e' = Except.error e ↔ _
    rw [Except.error.injEq, Except.error.injEq]
  | ok filters => exact iff_of_false nofun nofun

end ExpressionParser

section Expression

variable [PatternEngine]

theorem FilterSet.parse_eq_ok_iff {expression : String} {fs : FilterSet} :
    FilterSet.parse expression = .ok fs ↔
      List.Forall₂ (fun run f => Filter.parse (String.ofList run) = .ok f)
        (wordList expression.toList) fs.filters := by
  rw [FilterSet.parse, ExpressionParser.parse_eq_ok_iff, mapM_eq_ok_iff]
  exact List.forall₂_map_left_iff

theorem FilterSet.parse_eq_error_iff {expression : String} {e : FilterError} :
    FilterSet.parse expression = .error e ↔
      ∃ before run after, wordList expression.toList = before ++ run :: after ∧
        (∀ r ∈ before, ∃ f, Filter.parse (String.ofList r) = .ok f) ∧
        Filter.parse (String.ofList run) = .error e := by
  have hruns : (words expression).mapM Filter.parse =
      (wordList expression.toList).mapM fun run => Filter.parse (String.ofList run) := List.mapM_map
  rw [← mapM_eq_error_iff (f := fun run => Filter.parse (String.ofList run)), ← hruns]
  exact ExpressionParser.parse_eq_error_iff

/-! ### The filters of an expression, word by word -/

theorem FilterSet.parse_eq_ok_iff_words {expression : String} {fs : FilterSet} :
    FilterSet.parse expression = .ok fs ↔
      List.Forall₂ (fun word f => Filter.parse word = .ok f) (words expression) fs.filters := by
  rw [words, List.forall₂_map_left_iff]
  exact parse_eq_ok_iff

/-- Where a filter stands in an expression, and how often, does not matter for what filters there
are. -/
theorem FilterSet.mem_filters_iff {expression : String} {fs : FilterSet}
    (h : FilterSet.parse expression = .ok fs) (f : Filter) :
    f ∈ fs.filters ↔ ∃ word ∈ words expression, Filter.parse word = .ok f :=
  mem_iff_exists_of_forall₂ (parse_eq_ok_iff_words.1 h) f

/-- An expression is read when each of its words is. -/
theorem FilterSet.exists_parse_iff {expression : String} :
    (∃ fs, FilterSet.parse expression = .ok fs) ↔
      ∀ word ∈ words expression, ∃ f, Filter.parse word = .ok f := by
  rw [← exists_forall₂_iff]
  constructor
  · rintro ⟨fs, h⟩
    exact ⟨fs.filters, parse_eq_ok_iff_words.1 h⟩
  · rintro ⟨filters, h⟩
    exact ⟨⟨filters⟩, parse_eq_ok_iff_words.2 h⟩

/-- Only a blank expression has no filters. -/
theorem FilterSet.isEmpty_iff_blankText {expression : String} {fs : FilterSet}
    (h : FilterSet.parse expression = .ok fs) : fs.isEmpty = true ↔ BlankText expression := by
  have hlen : (words expression).length = fs.filters.length := (parse_eq_ok_iff_words.1 h).length_eq
  rw [← words_eq_nil_iff, isEmpty, List.isEmpty_iff, ← List.length_eq_zero_iff,
    ← List.length_eq_zero_iff, hlen]

end Expression

/-- **Filters and expressions are read by exactly the rules.**  A filter comes to what the rules
say, where nothing behind the colon is the range of every index.  An expression has one list of
maximal runs; it comes to a filter for each of them, or to the error of the first one that has an
error. -/
theorem parse_iff_reads [PatternEngine] :
    (∀ (text : String) (result : Except FilterError Filter),
      Filter.parse text = result ↔ Filter.Reads text result) ∧
    (∀ (text : String) (f : Filter), Filter.parse text = .ok f → Filter.colons text = 1 →
      Filter.rangesChars text = [] → f.ranges = some RangeSet.all) ∧
    ∀ expression : String, ∃ runs : List (List Char),
      (∀ ws, MaximalRuns expression.toList ws ↔ ws = runs) ∧
      (∀ fs, FilterSet.parse expression = .ok fs ↔
        List.Forall₂ (fun run f => Filter.parse (String.ofList run) = .ok f) runs fs.filters) ∧
      ∀ e, FilterSet.parse expression = .error e ↔
        ∃ before run after, runs = before ++ run :: after ∧
          (∀ r ∈ before, ∃ f, Filter.parse (String.ofList r) = .ok f) ∧
          Filter.parse (String.ofList run) = .error e := by
  refine ⟨fun _ _ => Filter.parse_eq_iff_reads,
    fun _ _ => Filter.ranges_of_rangesChars_eq_nil, fun expression => ?_⟩
  exact ⟨wordList expression.toList, fun _ => maximalRuns_iff, fun _ => FilterSet.parse_eq_ok_iff,
    fun _ => FilterSet.parse_eq_error_iff⟩

end DoctestSelection
