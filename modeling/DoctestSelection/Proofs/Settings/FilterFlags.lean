import DoctestSelection.Proofs.Filter.Grammar
import DoctestSelection.Proofs.Settings.Merging

/-!
# Filters from several flags

The filters of the flags are joined into one expression, with a space between any two of them, and
this expression is cut into words long afterwards.  A space is a blank, so no word reaches from one
flag into the next, and none is cut in two: the words of the expression are those of the flags, one
flag after the other.  What a parser makes of the single words does not matter for that.

The environment can name filters too, but the flags stand in a higher layer and take the place of
what it says.

## Main results

* `Settings.filterExpression_of_resolve` — which expression the flags spell.
* `ExpressionParser.parse_eq_ok_iff_of_split` — an expression with the pieces of several texts.
* `filter_flags_concatenate` — **the filters of several flags are those of each flag, in order.**
-/

namespace DoctestSelection

open Text

/-! ### The expression that is settled on -/

theorem Flags.filterExpression?_of_ne_nil {flags : Flags} (hne : flags.filters ≠ []) :
    flags.filterExpression? = some (" ".intercalate flags.filters) :=
  if_neg (by simpa using hne)

namespace Settings

variable {env : String → Option String} {flags : Flags} {settings : Settings}

/-- A flag takes the place of whatever a lower layer says. -/
theorem override_flag {α : Type} (base : Layered α) (value : α) :
    override base .flag (some value) = ⟨value, .flag⟩ := by
  have hrank : base.layer.rank ≤ Layer.flag.rank := by cases base.layer <;> decide
  exact Layered.merge_of_le hrank

theorem filterExpression_of_resolve (h : resolve env flags = .ok settings)
    (hne : flags.filters ≠ []) :
    settings.filterExpression = ⟨" ".intercalate flags.filters, .flag⟩ := by
  unfold resolve at h
  simp only [bind_eq_ok_iff] at h
  obtain ⟨level, -, format, -, hsettings⟩ := h
  rw [← Except.ok.inj hsettings, Flags.filterExpression?_of_ne_nil hne]
  exact override_flag _ _

/-- What the environment says about filters does not matter if a flag says something. -/
theorem resolve_congr {env' : String → Option String}
    (henv : ∀ variableName, variableName ≠ filterVariable → env variableName = env' variableName)
    (hne : flags.filters ≠ []) : resolve env flags = resolve env' flags := by
  have hlevel : env levelVariable = env' levelVariable := henv levelVariable (by decide)
  have hformat : env formatVariable = env' formatVariable := henv formatVariable (by decide)
  unfold resolve readVariable
  simp only [Flags.filterExpression?_of_ne_nil hne, hlevel, hformat, override_flag]

end Settings

/-! ### An expression with the pieces of several texts -/

namespace ExpressionParser

variable {p : ExpressionParser} {expression : String} {texts : List String} {fs : FilterSet}
  {e : FilterError}

/-- An expression with the pieces of several texts is read when each of them is, and then has the
filters of each, one text after the other. -/
theorem parse_eq_ok_iff_of_split (h : p.split expression = texts.flatMap p.split) :
    p.parse expression = .ok fs ↔
      ∃ sets, List.Forall₂ (fun text fs => p.parse text = .ok fs) texts sets ∧
        fs.filters = (sets.map (·.filters)).flatten := by
  have hsets : ∀ sets : List FilterSet,
      List.Forall₂ (fun text fs => p.parse text = .ok fs) texts sets ↔
        texts.mapM (fun text => (p.split text).mapM p.parseFilter) =
          .ok (sets.map (·.filters)) := by
    intro sets
    rw [mapM_eq_ok_iff, List.forall₂_map_right_iff]
    simp only [parse_eq_ok_iff]
  simp only [hsets]
  rw [parse_eq_ok_iff, h, mapM_flatMap]
  cases texts.mapM fun text => (p.split text).mapM p.parseFilter with
  | error e =>
    refine iff_of_false nofun ?_
    intro hex
    obtain ⟨sets, hsets, -⟩ := hex
    exact nomatch hsets
  | ok lists =>
    show Except.ok lists.flatten = Except.ok fs.filters ↔ _
    rw [Except.ok.injEq]
    constructor
    · intro hflat
      have hlists : lists = (lists.map FilterSet.mk).map (·.filters) := by
        rw [List.map_map]
        exact (List.map_id lists).symm
      exact ⟨lists.map FilterSet.mk, congrArg Except.ok hlists, by rw [← hlists, hflat]⟩
    · intro hex
      obtain ⟨sets, hlists, hflat⟩ := hex
      rw [hflat, Except.ok.inj hlists]

/-- An expression with the pieces of several texts fails with the error of the first of them that
has one. -/
theorem parse_eq_error_iff_of_split (h : p.split expression = texts.flatMap p.split) :
    p.parse expression = .error e ↔
      ∃ before text after, texts = before ++ text :: after ∧
        (∀ t ∈ before, ∃ fs, p.parse t = .ok fs) ∧ p.parse text = .error e := by
  have hread : ∀ text, (∃ fs, p.parse text = .ok fs) ↔
      ∃ filters, (p.split text).mapM p.parseFilter = .ok filters := by
    intro text
    simp only [parse_eq_ok_iff]
    constructor
    · intro hex
      obtain ⟨fs, hfs⟩ := hex
      exact ⟨fs.filters, hfs⟩
    · intro hex
      obtain ⟨filters, hfilters⟩ := hex
      exact ⟨⟨filters⟩, hfilters⟩
  simp only [hread, parse_eq_error_iff]
  rw [h, mapM_flatMap, ← mapM_eq_error_iff (f := fun text => (p.split text).mapM p.parseFilter)]
  cases texts.mapM fun text => (p.split text).mapM p.parseFilter with
  | error e' =>
    show Except.error e' = Except.error e ↔ _
    rw [Except.error.injEq, Except.error.injEq]
  | ok lists => exact iff_of_false nofun nofun

/-- A blank text spells no filter, whatever a filter looks like. -/
theorem parse_of_blankText (parseFilter : String → Except FilterError Filter)
    (h : BlankText expression) : parse ⟨words, parseFilter⟩ expression = .ok .empty := by
  have hnil : words expression = [] := words_eq_nil_iff.2 h
  rw [parse_eq_ok_iff]
  show (words expression).mapM parseFilter = _
  rw [hnil]
  rfl

end ExpressionParser

/-- **The filters of several flags are those of each flag, in order.**  Once the settings are
settled, the words of the filter expression are those of the flags.  Whatever a parser makes of the
words, it reads the expression when it reads what each flag says, and finds the filters of one flag
after the other; otherwise it finds the error of the first flag that it does not read.  A blank flag
has no filters, and what the environment says about filters does not matter. -/
theorem filter_flags_concatenate (flags : Flags) (hne : flags.filters ≠ []) :
    (∀ (env : String → Option String) (settings : Settings),
      Settings.resolve env flags = .ok settings →
      let expression := settings.filterExpression.value
      words expression = flags.filters.flatMap words ∧
      ∀ parseFilter : String → Except FilterError Filter,
        let parser : ExpressionParser := ⟨words, parseFilter⟩
        (∀ fs, parser.parse expression = .ok fs ↔
          ∃ sets, List.Forall₂ (fun value fs => parser.parse value = .ok fs) flags.filters sets ∧
            fs.filters = (sets.map (·.filters)).flatten) ∧
        (∀ e, parser.parse expression = .error e ↔
          ∃ before value after, flags.filters = before ++ value :: after ∧
            (∀ v ∈ before, ∃ fs, parser.parse v = .ok fs) ∧ parser.parse value = .error e) ∧
        ∀ value, BlankText value → parser.parse value = .ok .empty) ∧
    ∀ env env' : String → Option String,
      (∀ variableName, variableName ≠ Settings.filterVariable →
        env variableName = env' variableName) →
      Settings.resolve env flags = Settings.resolve env' flags := by
  constructor
  · intro env settings h expression
    have hexpression : expression = " ".intercalate flags.filters :=
      congrArg Layered.value (Settings.filterExpression_of_resolve h hne)
    have hwords : words expression = flags.filters.flatMap words := by
      rw [hexpression, words_intercalate_space]
    refine ⟨hwords, ?_⟩
    intro parseFilter parser
    exact ⟨fun fs => ExpressionParser.parse_eq_ok_iff_of_split hwords,
      fun e => ExpressionParser.parse_eq_error_iff_of_split hwords,
      fun value hblank => ExpressionParser.parse_of_blankText parseFilter hblank⟩
  · intro env env' henv
    exact Settings.resolve_congr henv hne

attribute [local instance] PatternEngine.bySize

/-- A flag with two filters, a blank one and one with blanks around it, in an environment with a
filter that does not count; and two flags that cannot be read, of which the first one is told. -/
theorem filter_flags_concatenate_of_blank_flag :
    let env : String → Option String := fun variableName =>
      if variableName = Settings.filterVariable then some "*" else none
    let settings (expression : String) : Settings :=
      { Settings.defaults with filterExpression := ⟨expression, .flag⟩ }
    (Settings.resolve env { filters := ["a b", " \t", "\u2003c\n"] } =
        .ok (settings "a b  \t \u2003c\n") ∧
      FilterSet.parse "a b  \t \u2003c\n" = .ok ⟨[⟨⟨"a", by decide, ⟨'a', by decide⟩⟩, none⟩,
        ⟨⟨"b", by decide, ⟨'b', by decide⟩⟩, none⟩, ⟨⟨"c", by decide, ⟨'c', by decide⟩⟩, none⟩]⟩) ∧
    (Settings.resolve env { filters := ["a", "*", "b:x"] } = .ok (settings "a * b:x") ∧
      FilterSet.parse "a * b:x" = .error (.emptyName "*")) := by
  intro env settings
  constructor
  · have hresolve : Settings.resolve env { filters := ["a b", " \t", "\u2003c\n"] } =
        .ok (settings "a b  \t \u2003c\n") := by decide
    have hparse := (filter_flags_concatenate _ (by decide)).1 env _ hresolve
    refine ⟨hresolve, ((hparse.2 Filter.parse).1 _).2 ⟨[
      ⟨[⟨⟨"a", by decide, ⟨'a', by decide⟩⟩, none⟩, ⟨⟨"b", by decide, ⟨'b', by decide⟩⟩, none⟩]⟩,
      .empty, ⟨[⟨⟨"c", by decide, ⟨'c', by decide⟩⟩, none⟩]⟩], ?_, rfl⟩⟩
    exact .cons (by decide) (.cons (by decide) (.cons (by decide) .nil))
  · have hresolve : Settings.resolve env { filters := ["a", "*", "b:x"] } =
        .ok (settings "a * b:x") := by decide
    have hparse := (filter_flags_concatenate _ (by decide)).1 env _ hresolve
    refine ⟨hresolve, ((hparse.2 Filter.parse).2.1 _).2 ⟨["a"], "*", ["b:x"], rfl, ?_, by decide⟩⟩
    intro v hv
    rw [List.mem_singleton.1 hv]
    exact ⟨⟨[⟨⟨"a", by decide, ⟨'a', by decide⟩⟩, none⟩]⟩, by decide⟩

end DoctestSelection
