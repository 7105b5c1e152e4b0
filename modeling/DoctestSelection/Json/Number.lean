import DoctestSelection.Text.Decimal

/-!
# Number literals

A JSON number is kept as it is spelled.  The literals that matter are the plain naturals; of the
others it is only asked whether they stand for a value at all, which they do unless they lie beyond
the range of double precision.  That range is decided in exact integers: the leading digits that
fit 64 bits and the power of ten that scales them are each rounded to 53 binary digits, and so is
their product.

## Main definitions

* `NumberLiteral` — the parts of a literal.
* `NumberLiteral.ofNat`, `NumberLiteral.natural?` — the plain naturals.
* `NumberLiteral.isReadable` — whether the literal is in the range of double precision.

## Main results

* `NumberLiteral.natural?_ofNat` — the literal of a natural number stands for it.
-/

namespace DoctestSelection

/-- The parts of a number literal. -/
structure NumberLiteral where
  isNegative : Bool
  /-- The digits before the point. -/
  whole : List Char
  /-- The digits after the point, if there is a point. -/
  fraction : List Char
  /-- The power of ten, if one is written. -/
  exponent : Option Int
  deriving DecidableEq, Repr, Inhabited

namespace NumberLiteral

/-! ### Plain naturals -/

/-- The literal of a natural number. -/
def ofNat (n : Nat) : NumberLiteral := ⟨false, Nat.toDigits 10 n, [], none⟩

/-- The natural number that a literal spells with plain digits, if it is of that kind. -/
def natural? (l : NumberLiteral) : Option Nat :=
  if !l.isNegative && l.fraction.isEmpty && l.exponent.isNone then
    some (Nat.ofDigitChars 10 l.whole 0)
  else none

/-- The literal of a natural number stands for it. -/
@[simp] theorem natural?_ofNat (n : Nat) : (ofNat n).natural? = some n :=
  congrArg some Nat.ofDigitChars_ten_toDigits

/-! ### The range of double precision -/

/-- A natural number rounded to 53 binary digits, a half to the even neighbour. -/
def roundToDouble (n : Nat) : Nat :=
  let scale := Nat.pow 2 (n.log2 - 52)
  let quotient := n / scale
  let twice := 2 * (n % scale)
  let up := twice > scale || (twice == scale && quotient % 2 == 1)
  (quotient + if up then 1 else 0) * scale

/-- The least number that rounds to infinity: half a step above the greatest double. -/
def doubleOverflow : Nat := Nat.pow 2 1024 - Nat.pow 2 970

/-- The number that the leading digits of a literal spell, as far as it fits 64 bits, and how many
digits those are. -/
def leadingDigits (n used : Nat) : List Char → Nat × Nat
  | [] => (n, used)
  | c :: cs =>
    let next := 10 * n + (c.toNat - '0'.toNat)
    if next < UInt64.size then leadingDigits next (used + 1) cs else (n, used)

/-- Whether the literal stands for a value: it is not beyond the range of double precision. -/
def isReadable (l : NumberLiteral) : Bool :=
  let (significand, used) := leadingDigits 0 0 (l.whole ++ l.fraction)
  let scale := l.exponent.getD 0 + l.whole.length - used
  significand == 0 || scale < 0 ||
    (scale ≤ 308 &&
      roundToDouble significand * roundToDouble (Nat.pow 10 scale.toNat) < doubleOverflow)

/-! ### The written form -/

/-- The characters of a literal. -/
def chars (l : NumberLiteral) : List Char :=
  (if l.isNegative then ['-'] else []) ++ l.whole ++
    (if l.fraction.isEmpty then [] else '.' :: l.fraction) ++
    l.exponent.elim [] fun e => 'e' :: (toString e).toList

@[simp] theorem chars_ofNat (n : Nat) : (ofNat n).chars = Nat.toDigits 10 n := by
  simp [chars, ofNat]

end NumberLiteral

end DoctestSelection
