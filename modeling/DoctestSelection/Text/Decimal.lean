import DoctestSelection.Text.Blank

/-!
# Example indices and their decimal text

An example is numbered by an unsigned 64-bit integer.  Its text is a run of decimal digits; when
one is read, zeros may stand in front, and a number beyond 64 bits is refused, never cut short.

## Main definitions

* `Index` — the number of an example.
* `Index.ofNat?` — a natural number as an index, if it is one.
* `Index.ofDigits?` — an index from its digits.
* `Index.digits` — the decimal digits of an index.

## Main results

* `Index.ofDigits?_digits` — reading what was written gives the index back.
* `Index.ofDigits?_eq_some_iff` — exactly the non-empty runs of digits below `2 ^ 64` are read.
-/

namespace DoctestSelection

/-- The number of an example within its test. -/
abbrev Index := UInt64

namespace Index

/-- The greatest index, which has no successor. -/
def greatest : Index := 18446744073709551615

/-- A natural number as an index, if it is small enough to be one. -/
def ofNat? (n : Nat) : Option Index :=
  if h : n < UInt64.size then some (UInt64.ofNatLT n h) else none

/-- The digits of an index, without zeros in front. -/
def digits (i : Index) : List Char := Nat.toDigits 10 i.toNat

/-- An index from a non-empty run of ASCII digits, zeros in front allowed. -/
def ofDigits? (cs : List Char) : Option Index :=
  if cs.isEmpty || !cs.all Char.isDigit then none else ofNat? (Nat.ofDigitChars 10 cs 0)

theorem ofNat?_eq_some_iff {n : Nat} {i : Index} : ofNat? n = some i ↔ i.toNat = n := by
  unfold ofNat?
  split
  · rename_i h
    rw [Option.some.injEq, ← UInt64.toNat_inj, UInt64.toNat_ofNatLT]
    exact eq_comm
  · rename_i h
    simp only [reduceCtorEq, false_iff]
    intro hi
    exact h (hi ▸ i.toNat_lt)

@[simp] theorem ofNat?_toNat (i : Index) : ofNat? i.toNat = some i :=
  ofNat?_eq_some_iff.2 rfl

theorem digits_ne_nil (i : Index) : i.digits ≠ [] := Nat.toDigits_ne_nil

theorem isDigit_of_mem_digits {i : Index} {c : Char} (h : c ∈ i.digits) : c.isDigit = true :=
  Nat.isDigit_of_mem_toDigits (by omega) (by omega) h

/-- Exactly the non-empty runs of digits that stay below `2 ^ 64` are read, each as its value. -/
theorem ofDigits?_eq_some_iff {cs : List Char} {i : Index} :
    ofDigits? cs = some i ↔
      cs ≠ [] ∧ (∀ c ∈ cs, c.isDigit = true) ∧ Nat.ofDigitChars 10 cs 0 = i.toNat := by
  unfold ofDigits?
  by_cases hne : cs = []
  · simp [hne]
  · by_cases hd : ∀ c ∈ cs, c.isDigit = true
    · rw [if_neg (by simpa [hne] using hd), ofNat?_eq_some_iff]
      exact ⟨fun h => ⟨hne, hd, h.symm⟩, fun h => h.2.2.symm⟩
    · simp [hne, hd]

/-- Reading the digits of an index gives the index back. -/
@[simp] theorem ofDigits?_digits (i : Index) : ofDigits? i.digits = some i :=
  ofDigits?_eq_some_iff.2
    ⟨i.digits_ne_nil, fun _ => isDigit_of_mem_digits, Nat.ofDigitChars_ten_toDigits⟩

end Index

end DoctestSelection
