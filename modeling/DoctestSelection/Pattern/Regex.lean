import DoctestSelection.Filter.Error

/-!
# The regular expressions behind name patterns

A name pattern is matched as a regular expression.  Few kinds of parts are needed: a character that
stands for itself, a gap for any characters on one line (`.*`), and the end of the text (`$`).  An
expression matches a text when it fits somewhere in it, with anything before and, unless it asks for
the end, anything behind.

Matching fills a table with one row for each rest of the expression and, in it, one entry for each
rest of the text, from the back; its cost is the product of the two lengths, whatever the gaps.  The
engine may refuse an expression that it cannot compile, and says why; which ones it refuses is left
open.  The engine that the program uses refuses expressions whose automaton would outgrow a memory
limit.

## Main definitions

* `RegexPart`, `Regex` — the expressions.
* `Fits regex text` — `regex` fits the beginning of `text`, as a relation.
* `matchRow regex text` — the row of `regex`: for each rest of `text`, whether `regex` fits there.
* `Regex.isMatch regex text` — whether `regex` fits somewhere in `text`.
* `PatternEngine` — what a matching engine refuses to compile.
* `PatternEngine.bySize` — the engine that the program uses.

## Main results

* `isRow_matchRow` — the entries of the table are right.
* `Regex.isMatch_iff` — the table decides whether an expression fits somewhere.
-/

namespace DoctestSelection

/-! ### Expressions and what fits them -/

/-- A part of a regular expression. -/
inductive RegexPart
  /-- A character that stands for itself. -/
  | literal (c : Char)
  /-- Any characters other than the line break. -/
  | gap
  | textEnd
  deriving DecidableEq, Repr, Inhabited

/-- A regular expression: its parts, in order. -/
abbrev Regex := List RegexPart

/-- An expression fits the beginning of a text when its parts do so one after the other. -/
inductive Fits : Regex → List Char → Prop
  /-- Nothing is asked of the text any more. -/
  | nil {cs : List Char} : Fits [] cs
  /-- A literal character stands for itself. -/
  | literal {c : Char} {ps : Regex} {cs : List Char} :
    Fits ps cs → Fits (.literal c :: ps) (c :: cs)
  /-- A gap may be empty. -/
  | skip {ps : Regex} {cs : List Char} : Fits ps cs → Fits (.gap :: ps) cs
  /-- A gap may take one more character, but no line break. -/
  | extend {c : Char} {ps : Regex} {cs : List Char} :
    c ≠ '\n' → Fits (.gap :: ps) cs → Fits (.gap :: ps) (c :: cs)
  /-- At the end of the text nothing is left of it. -/
  | textEnd {ps : Regex} : Fits ps [] → Fits (.textEnd :: ps) []

theorem fits_literal_cons {p c : Char} {ps : Regex} {cs : List Char} :
    Fits (.literal p :: ps) (c :: cs) ↔ c = p ∧ Fits ps cs := by
  constructor
  · intro h
    cases h with
    | literal h => exact ⟨rfl, h⟩
  · rintro ⟨rfl, h⟩
    exact .literal h

theorem not_fits_literal_nil {p : Char} {ps : Regex} : ¬ Fits (.literal p :: ps) [] := nofun

theorem fits_gap_cons {c : Char} {ps : Regex} {cs : List Char} :
    Fits (.gap :: ps) (c :: cs) ↔ Fits ps (c :: cs) ∨ (c ≠ '\n' ∧ Fits (.gap :: ps) cs) := by
  constructor
  · intro h
    cases h with
    | skip h => exact .inl h
    | extend hc h => exact .inr ⟨hc, h⟩
  · rintro (h | ⟨hc, h⟩)
    · exact .skip h
    · exact .extend hc h

theorem fits_gap_nil {ps : Regex} : Fits (.gap :: ps) [] ↔ Fits ps [] :=
  ⟨fun h => by cases h; assumption, .skip⟩

theorem fits_textEnd {ps : Regex} {cs : List Char} :
    Fits (.textEnd :: ps) cs ↔ cs = [] ∧ Fits ps [] := by
  constructor
  · intro h
    cases h with
    | textEnd h => exact ⟨rfl, h⟩
  · rintro ⟨rfl, h⟩
    exact .textEnd h

/-! ### The table -/

/-- The row of the empty expression, which fits everywhere. -/
def freeRow : List Char → List Bool
  | [] => [true]
  | _ :: cs => true :: freeRow cs

/-- The row of an expression that starts with the literal `p`, from the row of what follows. -/
def literalRow (p : Char) : List Char → List Bool → List Bool
  | c :: cs, _ :: row => (c == p && row.headD false) :: literalRow p cs row
  | _, _ => [false]

/-- The row of an expression that starts with a gap, from the row of what follows. -/
def gapRow : List Char → List Bool → List Bool
  | c :: cs, b :: row =>
    let next := gapRow cs row
    (b || (c != '\n' && next.headD false)) :: next
  | _, row => row

/-- The row of an expression that starts with the end of the text, from the row of what follows. -/
def endRow : List Char → List Bool → List Bool
  | _ :: cs, _ :: row => false :: endRow cs row
  | _, row => row

/-- The row of an expression that starts with a part, from the row of what follows. -/
def RegexPart.row (text : List Char) : RegexPart → List Bool → List Bool
  | .literal p => literalRow p text
  | .gap => gapRow text
  | .textEnd => endRow text

/-- The row of an expression: for each rest of the text, whether the expression fits there. -/
def matchRow (regex : Regex) (text : List Char) : List Bool :=
  regex.foldr (RegexPart.row text) (freeRow text)

/-- Whether an expression fits somewhere in a text. -/
def Regex.isMatch (regex : Regex) (text : String) : Bool := (matchRow regex text.toList).any id

/-! ### The table is right -/

/-- A row says of each rest of a text, from the whole of it to the empty one, whether it has a
property. -/
inductive IsRow (P : List Char → Prop) : List Char → List Bool → Prop
  /-- The empty text has one rest. -/
  | nil {b : Bool} : (b = true ↔ P []) → IsRow P [] [b]
  /-- A longer text is a rest of itself. -/
  | cons {b : Bool} {c : Char} {cs : List Char} {row : List Bool} :
    (b = true ↔ P (c :: cs)) → IsRow P cs row → IsRow P (c :: cs) (b :: row)

/-- The first entry of a row is about the whole text. -/
theorem IsRow.headD {P : List Char → Prop} {cs : List Char} {row : List Bool}
    (h : IsRow P cs row) : row.headD false = true ↔ P cs := by
  cases h <;> simpa

/-- Some entry of a row holds when some rest of the text has the property. -/
theorem IsRow.any_iff {P : List Char → Prop} {cs : List Char} {row : List Bool}
    (h : IsRow P cs row) : row.any id = true ↔ ∃ before rest, cs = before ++ rest ∧ P rest := by
  induction h with
  | nil hb => simp [hb, and_assoc]
  | @cons b c cs row hb _ ih =>
    rw [List.any_cons, Bool.or_eq_true, ih, id, hb]
    constructor
    · rintro (h | ⟨before, rest, rfl, h⟩)
      · exact ⟨[], _, rfl, h⟩
      · exact ⟨c :: before, rest, rfl, h⟩
    · rintro ⟨_ | ⟨d, before⟩, rest, he, h⟩
      · exact .inl (he ▸ h)
      · simp only [List.cons_append, List.cons.injEq] at he
        exact .inr ⟨before, rest, he.2, h⟩

theorem isRow_freeRow (cs : List Char) : IsRow (Fits []) cs (freeRow cs) := by
  induction cs with
  | nil => exact .nil (iff_of_true rfl .nil)
  | cons c cs ih => exact .cons (iff_of_true rfl .nil) ih

theorem isRow_literalRow {p : Char} {ps : Regex} {cs : List Char} {row : List Bool}
    (h : IsRow (Fits ps) cs row) : IsRow (Fits (.literal p :: ps)) cs (literalRow p cs row) := by
  induction h with
  | nil => exact .nil (iff_of_false nofun not_fits_literal_nil)
  | cons _ h ih =>
    refine .cons ?_ ih
    rw [Bool.and_eq_true, h.headD, beq_iff_eq, fits_literal_cons]

theorem isRow_gapRow {ps : Regex} {cs : List Char} {row : List Bool}
    (h : IsRow (Fits ps) cs row) : IsRow (Fits (.gap :: ps)) cs (gapRow cs row) := by
  induction h with
  | nil hb => exact .nil (hb.trans fits_gap_nil.symm)
  | cons hb _ ih =>
    refine .cons ?_ ih
    rw [Bool.or_eq_true, Bool.and_eq_true, hb, ih.headD, bne_iff_ne, fits_gap_cons]

theorem isRow_endRow {ps : Regex} {cs : List Char} {row : List Bool}
    (h : IsRow (Fits ps) cs row) : IsRow (Fits (.textEnd :: ps)) cs (endRow cs row) := by
  induction h with
  | nil hb => exact .nil (by rw [hb, fits_textEnd, eq_self, true_and])
  | cons _ _ ih => exact .cons (iff_of_false nofun nofun) ih

theorem isRow_row {ps : Regex} {cs : List Char} {row : List Bool} (part : RegexPart)
    (h : IsRow (Fits ps) cs row) : IsRow (Fits (part :: ps)) cs (part.row cs row) := by
  cases part with
  | literal p => exact isRow_literalRow h
  | gap => exact isRow_gapRow h
  | textEnd => exact isRow_endRow h

/-- The entries of the table are right: each says whether the expression fits at its place. -/
theorem isRow_matchRow (regex : Regex) (text : List Char) :
    IsRow (Fits regex) text (matchRow regex text) := by
  induction regex with
  | nil => exact isRow_freeRow text
  | cons part regex ih => exact isRow_row part ih

/-- The table decides whether an expression fits somewhere. -/
theorem Regex.isMatch_iff {regex : Regex} {text : String} :
    regex.isMatch text = true ↔
      ∃ before rest, text.toList = before ++ rest ∧ Fits regex rest :=
  (isRow_matchRow regex text.toList).any_iff

/-! ### What an engine refuses -/

/-- What the engine that matches expressions refuses to compile. -/
class PatternEngine where
  /-- The complaint about an expression, if the engine refuses it. -/
  complaint? : Regex → Option String

/-! ### An engine with a memory limit -/

/-- An estimate of the memory, in bytes, that the automaton of a part takes: a state for each byte of
a literal in UTF-8, and the classes of bytes that may stand in a gap. -/
def RegexPart.automatonSize : RegexPart → Nat
  | .literal c => c.utf8Size * 32
  | .gap => 1024
  | .textEnd => 0

/-- An estimate of the memory, in bytes, that the automaton of an expression takes. -/
def Regex.automatonSize (regex : Regex) : Nat :=
  regex.foldr (fun part size => part.automatonSize + size) 0

/-- The memory, in bytes, that the automaton of an expression may take. -/
def automatonSizeLimit : Nat := 10485760

/-- The complaint about an expression whose automaton would take too much memory. -/
def automatonSizeMessage : String :=
  "Compiled regex exceeds size limit of " ++ toString automatonSizeLimit ++ " bytes."

/-- The engine that refuses the expressions whose automaton would take too much memory.  How much an
automaton takes is only estimated, so close to the limit another engine may decide otherwise.  This
is no instance: the program chooses it, and so do statements about fixed texts; everything else
holds for any engine. -/
@[reducible] def PatternEngine.bySize : PatternEngine where
  complaint? regex :=
    if regex.automatonSize ≤ automatonSizeLimit then none else some automatonSizeMessage

end DoctestSelection
