import DoctestSelection.Command
import DoctestSelection.Proofs.Filter.Grammar
import DoctestSelection.Proofs.Range.RoundTrip

/-!
# The normalized expression reads back

Writing the filters of an expression gives its normalized form: one blank between filters, none
within a filter, and each range in the one spelling that tells it.  Reading takes three cuts, at
blanks, at the colon and at commas, with blanks left out at each of them.  A filter that was read
survives them: its name is trimmed and has no colon in it, it has at least one range if it has any,
and within an expression its name has no blank in it either.

## Main definitions

* `Filter.Writable f` — the filter `f` can be written so that it reads back.
* `FilterInfo.text` — how a shown filter is written in an expression.

## Main results

* `Filter.parse_text` — **a filter that can be written reads back.**
* `Filter.writable_of_parse` — a filter that was read can be written.
* `FilterSet.parse_text` — **the normalized form of an expression reads back.**
* `normalized_text_reads_back` — all of this, and how filters are shown.
-/

namespace DoctestSelection

open Text

namespace Filter

/-! ### The text of a filter -/

/-- The characters of a filter behind its name. -/
def rangesSuffix (f : Filter) : List Char := f.ranges.elim [] fun ranges => ':' :: ranges.chars

theorem chars_eq_append (f : Filter) : f.chars = f.name.text.toList ++ f.rangesSuffix := rfl

theorem name_ne_nil (f : Filter) : f.name.text.toList ≠ [] := by
  obtain ⟨c, hc, -⟩ := f.name.hasLiteral
  exact List.ne_nil_of_mem hc

theorem chars_ne_nil (f : Filter) : f.chars ≠ [] := by
  rw [chars_eq_append]
  exact List.append_ne_nil_of_left_ne_nil f.name_ne_nil _

theorem trimList_name (f : Filter) : trimList f.name.text.toList = f.name.text.toList := by
  rw [← toList_trim, f.name.isTrimmed]

theorem isBlank_of_mem_rangesSuffix {f : Filter} {c : Char} (h : c ∈ f.rangesSuffix) :
    isBlank c = false := by
  unfold rangesSuffix at h
  cases hranges : f.ranges with
  | none =>
    rw [hranges] at h
    exact absurd h List.not_mem_nil
  | some s =>
    rw [hranges] at h
    rcases List.mem_cons.1 h with rfl | hc
    · rfl
    · exact RangeSet.isBlank_of_mem_chars hc

/-- A filter is written without blanks around it: its name is trimmed, and no blank comes behind
the name. -/
theorem trim_text (f : Filter) : trim f.text = f.text := by
  rw [← String.toList_inj, toList_trim, toList_text, chars_eq_append, trimList_eq_self_iff]
  have hname := trimList_eq_self_iff.1 f.trimList_name
  constructor
  · intro c hc
    rw [List.head?_append_of_ne_nil _ f.name_ne_nil] at hc
    exact hname.1 c hc
  · intro c hc
    by_cases hnil : f.rangesSuffix = []
    · rw [hnil, List.append_nil] at hc
      exact hname.2 c hc
    · rw [List.getLast?_append_of_ne_nil _ hnil] at hc
      exact isBlank_of_mem_rangesSuffix (List.mem_of_getLast? hc)

/-- The name part of a text has no colon in it, and nothing that the text does not have. -/
theorem mem_nameChars {text : String} {c : Char} (h : c ∈ nameChars text) :
    c ≠ ':' ∧ c ∈ text.toList := by
  rw [nameChars] at h
  have hfront : c ∈ (trim text).toList.takeWhile (· != ':') := mem_of_mem_trimList h
  constructor
  · have hall := List.all_eq_true.1 List.all_takeWhile c hfront
    exact bne_iff_ne.1 hall
  · have htrim : c ∈ (trim text).toList := (List.takeWhile_prefix _).subset hfront
    rw [toList_trim] at htrim
    exact mem_of_mem_trimList htrim

/-! ### Filters that can be written -/

variable [PatternEngine]

/-- A filter can be written so that it reads back if its name has no colon and is not refused, and
if there is a range wherever there are ranges. -/
structure Writable (f : Filter) : Prop where
  colon_not_mem : ':' ∉ f.name.text.toList
  not_refused : PatternEngine.complaint? f.name.regex = none
  ranges_ne_nil : ∀ s, f.ranges = some s → s.ranges ≠ []

theorem Writable.splitParts_text {f : Filter} (h : f.Writable) :
    splitParts f.text = .ok (f.name.text, f.ranges.map RangeSet.text) := by
  unfold splitParts
  rw [trim_text, toList_text, chars_eq_append]
  cases hranges : f.ranges with
  | none =>
    have hsuffix : f.rangesSuffix = [] := by rw [rangesSuffix, hranges]; rfl
    rw [hsuffix, List.append_nil, List.splitOn_eq_singleton h.colon_not_mem]
    show Except.ok (String.ofList f.name.text.toList, none) = _
    rw [String.ofList_toList]
    rfl
  | some s =>
    have hsuffix : f.rangesSuffix = ':' :: s.chars := by rw [rangesSuffix, hranges]; rfl
    have hcolon : ':' ∉ s.chars := by
      intro hmem
      rcases RangeSet.isDigit_or_eq_of_mem_chars hmem with hd | hd | hd
      · exact absurd hd (by decide)
      · exact absurd hd (by decide)
      · exact absurd hd (by decide)
    rw [hsuffix, List.splitOn_append_cons_self_of_not_mem h.colon_not_mem,
      List.splitOn_eq_singleton hcolon]
    show Except.ok (String.ofList f.name.text.toList, some (String.ofList s.chars)) = _
    rw [String.ofList_toList]
    rfl

theorem Writable.parseRanges_text {f : Filter} (h : f.Writable) :
    parseRanges (f.ranges.map RangeSet.text) = .ok f.ranges := by
  cases hranges : f.ranges with
  | none => rfl
  | some s =>
    show (RangeSet.parse s.text).map some = .ok (some s)
    rw [RangeSet.parse_text (h.ranges_ne_nil s hranges)]
    rfl

/-- **A filter that can be written reads back.** -/
theorem parse_text {f : Filter} (h : f.Writable) : Filter.parse f.text = .ok f := by
  rw [parse_of_splitParts h.splitParts_text, NamePattern.compile_text h.not_refused]
  show (parseRanges (f.ranges.map RangeSet.text)).map (fun parsed => (⟨f.name, parsed⟩ : Filter)) =
    .ok f
  rw [h.parseRanges_text]
  rfl

/-! ### Filters that were read -/

theorem toList_name_of_parse {text : String} {f : Filter} (h : Filter.parse text = .ok f) :
    f.name.text.toList = nameChars text := by
  cases parse_eq_iff_reads.1 h with
  | name _ hp _ => rw [hp, String.toList_ofList]
  | nameAndRanges _ hp _ _ => rw [hp, String.toList_ofList]

/-- A filter that was read can be written: the first colon ended its name, and nothing behind the
colon is one range. -/
theorem writable_of_parse {text : String} {f : Filter} (h : Filter.parse text = .ok f) :
    f.Writable := by
  have hname := toList_name_of_parse h
  have hcolon : ':' ∉ f.name.text.toList := by
    rw [hname]
    exact fun hmem => (mem_nameChars hmem).1 rfl
  cases parse_eq_iff_reads.1 h with
  | name _ _ hc => exact ⟨hcolon, hc, nofun⟩
  | @nameAndRanges p ranges _ _ hc hranges =>
    refine ⟨hcolon, hc, fun s hs => ?_⟩
    obtain rfl := Option.some.inj hs
    have hlen : (rangeTexts text).length = ranges.length := hranges.length_eq
    rw [rangeTexts, List.length_map, length_splitOn] at hlen
    intro hnil
    rw [show ranges = [] from hnil, List.length_nil] at hlen
    omega

/-- A filter that was read from a word is written as a word. -/
theorem isBlank_of_mem_chars_of_parse {word : List Char} (hword : ∀ c ∈ word, isBlank c = false)
    {f : Filter} (h : Filter.parse (String.ofList word) = .ok f) {c : Char} (hc : c ∈ f.chars) :
    isBlank c = false := by
  rw [chars_eq_append, List.mem_append] at hc
  rcases hc with hc | hc
  · rw [toList_name_of_parse h] at hc
    have hmem : c ∈ (String.ofList word).toList := (mem_nameChars hc).2
    rw [String.toList_ofList] at hmem
    exact hword c hmem
  · exact isBlank_of_mem_rangesSuffix hc

end Filter

/-! ### Expressions -/

section Expression

variable [PatternEngine]

/-- **The normalized form of an expression reads back**: its words are the filters as they are
written. -/
theorem FilterSet.parse_text {expression : String} {fs : FilterSet}
    (h : FilterSet.parse expression = .ok fs) : FilterSet.parse fs.text = .ok fs := by
  have hread : ∀ f ∈ fs.filters, ∃ word ∈ wordList expression.toList,
      Filter.parse (String.ofList word) = .ok f := fun f hf =>
    (mem_iff_exists_of_forall₂ (parse_eq_ok_iff.1 h) f).1 hf
  have hwords : wordList fs.text.toList = fs.filters.map Filter.chars := by
    have hspace : isBlank ' ' = true := by decide
    rw [toList_text, chars]
    refine wordList_intercalate hspace fun w hw => ?_
    obtain ⟨f, hf, rfl⟩ := List.mem_map.1 hw
    obtain ⟨word, hword, hparse⟩ := hread f hf
    have hblank := (mem_wordList hword).2
    exact ⟨f.chars_ne_nil, fun c hc => Filter.isBlank_of_mem_chars_of_parse hblank hparse hc⟩
  rw [parse_eq_ok_iff, hwords, List.forall₂_map_left_iff, List.forall₂_same]
  intro f hf
  obtain ⟨word, -, hparse⟩ := hread f hf
  exact Filter.parse_text (Filter.writable_of_parse hparse)

end Expression

/-! ### How filters are shown -/

/-- How a shown filter is written in an expression: its name, and its ranges after a colon. -/
def FilterInfo.text (info : FilterInfo) : String :=
  match info.ranges with
  | none => info.name
  | some ranges => info.name ++ ":" ++ ranges

theorem Filter.text_info (f : Filter) : f.info.text = f.text := by
  rw [← String.toList_inj, toList_text, chars_eq_append]
  unfold info rangesSuffix FilterInfo.text
  cases f.ranges with
  | none => simp
  | some s => simp

/-- The shown filters of a set, with single spaces between them, are the set as it is written. -/
theorem FilterSet.intercalate_text_info (fs : FilterSet) :
    " ".intercalate ((fs.filters.map Filter.info).map FilterInfo.text) = fs.text := by
  rw [← String.toList_inj, String.toList_intercalate, toList_text, chars, List.map_map,
    List.map_map]
  refine congrArg _ (List.map_congr_left fun f _ => ?_)
  show f.info.text.toList = f.chars
  rw [Filter.text_info, Filter.toList_text]

/-- **The normalized form of a filter or an expression reads back** as the same filters, names and
ranges and all.  The filters that are shown for an expression spell the same text. -/
theorem normalized_text_reads_back [PatternEngine] :
    (∀ (text : String) (f : Filter), Filter.parse text = .ok f → Filter.parse f.text = .ok f) ∧
    (∀ (expression : String) (fs : FilterSet), FilterSet.parse expression = .ok fs →
      FilterSet.parse fs.text = .ok fs) ∧
    (∀ fs : FilterSet,
      " ".intercalate ((fs.filters.map Filter.info).map FilterInfo.text) = fs.text) ∧
    ∀ (settings : Settings) (fs : FilterSet),
      FilterSet.parse settings.filterExpression.value = .ok fs →
      Command.parse settings =
        .ok (.parsed settings.filterExpression.value (fs.filters.map Filter.info)) := by
  refine ⟨fun text f h => Filter.parse_text (Filter.writable_of_parse h),
    fun expression fs h => FilterSet.parse_text h, FilterSet.intercalate_text_info, ?_⟩
  intro settings fs h
  rw [Command.parse, Command.filters, h, mapError_ok, ok_bind]
  rfl

attribute [local instance] PatternEngine.bySize

/-- A filter with blanks in its name and around its parts, and with a zero that goes without
saying; and an expression that shows as its normalized filters. -/
theorem normalized_text_reads_back_of_spaced_filter :
    (∃ f, Filter.parse " a b : 05 , 0-3 " = .ok f ∧ f.text = "a b:5,-3" ∧
      Filter.parse f.text = .ok f) ∧
    let settings : Settings :=
      { Settings.defaults with filterExpression := ⟨" c*\t a:05,0-3", .flag⟩ }
    ∃ fs, FilterSet.parse settings.filterExpression.value = .ok fs ∧ fs.text = "c* a:5,-3" ∧
      FilterSet.parse fs.text = .ok fs ∧
      Command.parse settings =
        .ok (.parsed " c*\t a:05,0-3" [⟨"c*", none⟩, ⟨"a", some "5,-3"⟩]) := by
  constructor
  · have h : Filter.parse " a b : 05 , 0-3 " =
        .ok ⟨⟨"a b", by decide, ⟨'a', by decide⟩⟩, some ⟨[.single 5, ⟨0, some 3⟩]⟩⟩ := by decide
    exact ⟨_, h, by decide, normalized_text_reads_back.1 _ _ h⟩
  · intro settings
    have h : FilterSet.parse settings.filterExpression.value =
        .ok ⟨[⟨⟨"c*", by decide, ⟨'c', by decide⟩⟩, none⟩,
          ⟨⟨"a", by decide, ⟨'a', by decide⟩⟩, some ⟨[.single 5, ⟨0, some 3⟩]⟩⟩]⟩ := by decide
    exact ⟨_, h, by decide, normalized_text_reads_back.2.1 _ _ h,
      normalized_text_reads_back.2.2.2 settings _ h⟩

end DoctestSelection
