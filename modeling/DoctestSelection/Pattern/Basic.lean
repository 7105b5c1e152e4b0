import DoctestSelection.Pattern.Regex
import DoctestSelection.Text.Blank

/-!
# Name patterns

A name pattern is a text in which `*` is a wildcard and every other character stands for itself.  It
matches the end of a name: a wildcard in front of it goes without saying.  A pattern must hold
something other than wildcards.  Beyond that, the engine may refuse the expression that the pattern
stands for.

## Main definitions

* `suffixRegex text` — the expression that a pattern stands for, as in `.*seg1.*seg2$`.
* `NamePattern`, `NamePattern.compile` — a pattern that can be used, and how one is made.
* `NamePattern.accepts p name` — whether `p` matches the end of `name`.

## Main results

* `NamePattern.compile_eq_ok_iff` — what can be compiled, and to what.
* `NamePattern.compile_eq_error_iff` — what is refused, and why.
* `NamePattern.compile_text` — the text of a pattern compiles to the pattern.
-/

namespace DoctestSelection

open Text

/-! ### The expression of a pattern -/

/-- The character that stands for any run of characters on one line. -/
def wildcard : Char := '*'

/-- The expression of the rest of a pattern, given by what stands between its wildcards.  There is a
gap for each wildcard that is passed, but never one right after another. -/
def regexOfPieces (isFirst afterGap : Bool) : List (List Char) → Regex
  | [] => [.textEnd]
  | piece :: pieces =>
    let addsGap := !isFirst && !afterGap
    (if addsGap then [.gap] else []) ++ piece.map .literal ++
      regexOfPieces false (piece.isEmpty && (afterGap || addsGap)) pieces

theorem regexOfPieces_cons (isFirst afterGap : Bool) (piece : List Char)
    (pieces : List (List Char)) :
    regexOfPieces isFirst afterGap (piece :: pieces) =
      (if !isFirst && !afterGap then [.gap] else []) ++ piece.map .literal ++
        regexOfPieces false (piece.isEmpty && (afterGap || (!isFirst && !afterGap))) pieces := rfl

/-- The expression of a pattern.  It starts with a gap, and it is only tied to the end of a name. -/
def suffixRegex (text : String) : Regex :=
  .gap :: regexOfPieces true true (text.toList.splitOn wildcard)

/-! ### Patterns that can be used -/

/-- A name pattern: a trimmed text with some literal character. -/
structure NamePattern where
  text : String
  /-- No blanks surround the text. -/
  isTrimmed : trim text = text
  /-- Some character of the text stands for itself. -/
  hasLiteral : ∃ c ∈ text.toList, c ≠ wildcard
  deriving DecidableEq

namespace NamePattern

/-- Two patterns with one text are equal. -/
@[ext] theorem ext {p q : NamePattern} (h : p.text = q.text) : p = q := by
  cases p; cases q; simpa using h

/-- The expression that the pattern stands for. -/
def regex (p : NamePattern) : Regex := suffixRegex p.text

/-- Whether a pattern matches the end of a name. -/
def accepts (p : NamePattern) (name : String) : Bool := p.regex.isMatch name

section Compile

variable [PatternEngine]

/-- The pattern that a text spells, blanks around it left out.  A text without a literal character
is refused before one that the engine refuses. -/
def compile (text : String) : Except FilterError NamePattern :=
  if named : (trim text).toList.any (· != wildcard) then
    match PatternEngine.complaint? (suffixRegex (trim text)) with
    | none => .ok ⟨trim text, trim_trim text, by simpa using named⟩
    | some message => .error (.invalidPattern (trim text) message)
  else .error (.emptyName (trim text))

theorem compile_of_forall_eq_wildcard {text : String}
    (h : ∀ c ∈ (trim text).toList, c = wildcard) :
    compile text = .error (.emptyName (trim text)) := by
  rw [compile, dif_neg]
  simpa using h

theorem compile_of_complaint {text message : String}
    (named : ∃ c ∈ (trim text).toList, c ≠ wildcard)
    (h : PatternEngine.complaint? (suffixRegex (trim text)) = some message) :
    compile text = .error (.invalidPattern (trim text) message) := by
  rw [compile, dif_pos (by simpa using named), h]

theorem compile_of_no_complaint {text : String}
    (named : ∃ c ∈ (trim text).toList, c ≠ wildcard)
    (h : PatternEngine.complaint? (suffixRegex (trim text)) = none) :
    compile text = .ok ⟨trim text, trim_trim text, named⟩ := by
  rw [compile, dif_pos (by simpa using named), h]

/-- A text that the engine does not refuse compiles exactly to the pattern with the trimmed text. -/
theorem compile_eq_ok_iff {text : String} {p : NamePattern} :
    compile text = .ok p ↔ p.text = trim text ∧ PatternEngine.complaint? p.regex = none := by
  constructor
  · intro h
    unfold compile at h
    split at h
    · split at h
      · rename_i hc
        obtain rfl := Except.ok.inj h
        exact ⟨rfl, hc⟩
      · cases h
    · cases h
  · rintro ⟨ht, hc⟩
    rw [regex, ht] at hc
    rw [compile_of_no_complaint (ht ▸ p.hasLiteral) hc]
    exact congrArg Except.ok (NamePattern.ext ht.symm)

/-- A text is refused for its lack of a literal character, or else by the engine. -/
theorem compile_eq_error_iff {text : String} {e : FilterError} :
    compile text = .error e ↔
      ((∀ c ∈ (trim text).toList, c = wildcard) ∧ e = .emptyName (trim text)) ∨
        ((∃ c ∈ (trim text).toList, c ≠ wildcard) ∧
          ∃ message, PatternEngine.complaint? (suffixRegex (trim text)) = some message ∧
            e = .invalidPattern (trim text) message) := by
  constructor
  · intro h
    unfold compile at h
    split at h
    · rename_i named
      split at h
      · cases h
      · rename_i message hc
        exact .inr ⟨by simpa using named, message, hc, (Except.error.inj h).symm⟩
    · rename_i named
      exact .inl ⟨by simpa using named, (Except.error.inj h).symm⟩
  · rintro (⟨hall, rfl⟩ | ⟨named, message, hc, rfl⟩)
    · exact compile_of_forall_eq_wildcard hall
    · exact compile_of_complaint named hc

/-- The text of a pattern that the engine does not refuse compiles to the pattern. -/
theorem compile_text {p : NamePattern} (h : PatternEngine.complaint? p.regex = none) :
    compile p.text = .ok p :=
  compile_eq_ok_iff.2 ⟨p.isTrimmed.symm, h⟩

end Compile

end NamePattern

end DoctestSelection
