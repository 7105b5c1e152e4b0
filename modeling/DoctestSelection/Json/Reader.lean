import DoctestSelection.Json.Value

/-!
# Reading JSON

A reader takes a value from the front of a text and returns it with the rest of the text, or
nothing if the text does not keep to the grammar.  Values nest, so the readers recurse on a budget;
the length of the text bounds how much of it they can use.

## Main definitions

* `readNumber`, `readText` — a number literal, and a string after its opening quote.
* `readValue`, `readItems`, `readMembers` — a value, and what stands between brackets.
* `Json.read` — a value at the front of a text.
-/

namespace DoctestSelection

/-! ### Blanks and numbers -/

/-- The blanks that may stand between the parts of a value. -/
def isJsonBlank (c : Char) : Bool := c == ' ' || c == '\t' || c == '\n' || c == '\r'

/-- What is left of a text after the blanks in front. -/
def skipBlanks (cs : List Char) : List Char := cs.dropWhile isJsonBlank

/-- A non-empty run of digits, and the rest of the text. -/
def readDigits (cs : List Char) : Option (List Char × List Char) :=
  match cs.takeWhile Char.isDigit with
  | [] => none
  | ds => some (ds, cs.dropWhile Char.isDigit)

/-- The digits before the point, which start with a zero only if that is all of them. -/
def readWhole (cs : List Char) : Option (List Char × List Char) :=
  match readDigits cs with
  | some ('0' :: _ :: _, _) => none
  | result => result

/-- The digits after a point, if there is one. -/
def readFraction : List Char → Option (List Char × List Char)
  | '.' :: cs => readDigits cs
  | cs => some ([], cs)

/-- The power of ten after its mark: a sign if there is one, and digits. -/
def readPower (cs : List Char) : Option (Int × List Char) :=
  match cs with
  | '-' :: cs => (readDigits cs).map fun (ds, rest) => (-(Nat.ofDigitChars 10 ds 0 : Int), rest)
  | '+' :: cs => (readDigits cs).map fun (ds, rest) => (Nat.ofDigitChars 10 ds 0, rest)
  | cs => (readDigits cs).map fun (ds, rest) => (Nat.ofDigitChars 10 ds 0, rest)

/-- The power of ten, if its mark is there. -/
def readExponent : List Char → Option (Option Int × List Char)
  | 'e' :: cs => (readPower cs).map fun (e, rest) => (some e, rest)
  | 'E' :: cs => (readPower cs).map fun (e, rest) => (some e, rest)
  | cs => some (none, cs)

/-- A number literal after its sign. -/
def readMagnitude (isNegative : Bool) (cs : List Char) : Option (NumberLiteral × List Char) := do
  let (whole, cs) ← readWhole cs
  let (fraction, cs) ← readFraction cs
  let (exponent, cs) ← readExponent cs
  return (⟨isNegative, whole, fraction, exponent⟩, cs)

/-- A number literal. -/
def readNumber : List Char → Option (NumberLiteral × List Char)
  | '-' :: cs => readMagnitude true cs
  | cs => readMagnitude false cs

/-! ### Strings -/

/-- A part of a string: a character, or a 16-bit unit that is written in hexadecimal digits. -/
inductive StringPart
  /-- A character that stands for itself or behind a backslash. -/
  | char (c : Char)
  /-- A unit of a character or of half a surrogate pair. -/
  | unit (n : Nat)
  deriving DecidableEq, Repr, Inhabited

/-- The value of a hexadecimal digit, in either case. -/
def hexValue? (c : Char) : Option Nat :=
  if '0' ≤ c ∧ c ≤ '9' then some (c.toNat - '0'.toNat)
  else if 'a' ≤ c ∧ c ≤ 'f' then some (c.toNat - 'a'.toNat + 10)
  else if 'A' ≤ c ∧ c ≤ 'F' then some (c.toNat - 'A'.toNat + 10)
  else none

/-- The 16-bit unit of four hexadecimal digits. -/
def unit? (a b c d : Char) : Option Nat := do
  return 4096 * (← hexValue? a) + 256 * (← hexValue? b) + 16 * (← hexValue? c) + (← hexValue? d)

/-- The character that stands behind a backslash and a letter. -/
def unescape? : Char → Option Char
  | '"' => some '"'
  | '\\' => some '\\'
  | '/' => some '/'
  | 'b' => some '\x08'
  | 'f' => some '\x0c'
  | 'n' => some '\n'
  | 'r' => some '\r'
  | 't' => some '\t'
  | _ => none

/-- The parts of a string up to its closing quote.  Control characters must be escaped. -/
def readParts : List Char → Option (List StringPart × List Char)
  | [] => none
  | '"' :: cs => some ([], cs)
  | '\\' :: 'u' :: a :: b :: c :: d :: cs =>
    match unit? a b c d, readParts cs with
    | some n, some (parts, rest) => some (.unit n :: parts, rest)
    | _, _ => none
  | '\\' :: c :: cs =>
    match unescape? c, readParts cs with
    | some c, some (parts, rest) => some (.char c :: parts, rest)
    | _, _ => none
  | c :: cs =>
    if c.toNat < 0x20 || c == '\\' then none
    else match readParts cs with
      | some (parts, rest) => some (.char c :: parts, rest)
      | none => none

/-- Whether a 16-bit unit is the first half of a surrogate pair. -/
def isHighSurrogate (n : Nat) : Bool := 0xD800 ≤ n && n ≤ 0xDBFF

/-- Whether a 16-bit unit is the second half of a surrogate pair. -/
def isLowSurrogate (n : Nat) : Bool := 0xDC00 ≤ n && n ≤ 0xDFFF

/-- The character of a surrogate pair. -/
def pairedChar (high low : Nat) : Char :=
  Char.ofNat (0x10000 + (high - 0xD800) * 0x400 + (low - 0xDC00))

/-- The characters that the parts of a string spell, unless half of a surrogate pair stands
alone. -/
def assemble : List StringPart → Option (List Char)
  | [] => some []
  | .char c :: parts => (assemble parts).map (c :: ·)
  | .unit n :: parts =>
    if isHighSurrogate n then
      match parts with
      | .unit m :: parts =>
        if isLowSurrogate m then (assemble parts).map (pairedChar n m :: ·) else none
      | _ => none
    else if isLowSurrogate n then none
    else (assemble parts).map (Char.ofNat n :: ·)

/-- A string after its opening quote.  The inner `none` says that it spells no text. -/
def readText (cs : List Char) : Option (Option String × List Char) :=
  (readParts cs).map fun (parts, rest) => ((assemble parts).map String.ofList, rest)

/-! ### Values -/

namespace Json

/-- The value of a string literal. -/
def ofText? (text? : Option String) : Json := text?.elim .unreadable .string

/-- The value of an object literal, which cannot be read if a member name spells no text. -/
def ofMembers? (members : List (Option String × Json)) : Json :=
  (members.mapM fun (m : Option String × Json) => m.1.map (·, m.2)).elim .unreadable .object

end Json

mutual

/-- A value at the front of a text, blanks before it skipped. -/
def readValue : Nat → List Char → Option (Json × List Char)
  | 0, _ => none
  | fuel + 1, cs =>
    match skipBlanks cs with
    | 'n' :: 'u' :: 'l' :: 'l' :: rest => some (.null, rest)
    | 't' :: 'r' :: 'u' :: 'e' :: rest => some (.bool true, rest)
    | 'f' :: 'a' :: 'l' :: 's' :: 'e' :: rest => some (.bool false, rest)
    | '"' :: rest => (readText rest).map fun (text?, rest) => (.ofText? text?, rest)
    | '[' :: rest =>
      match skipBlanks rest with
      | ']' :: rest => some (.array [], rest)
      | rest => (readItems fuel rest).map fun (items, rest) => (.array items, rest)
    | '\x7b' :: rest =>
      match skipBlanks rest with
      | '\x7d' :: rest => some (.object [], rest)
      | rest => (readMembers fuel rest).map fun (members, rest) => (.ofMembers? members, rest)
    | rest => (readNumber rest).map fun (literal, rest) => (.number literal, rest)

/-- The items of an array that is not empty, and its closing bracket. -/
def readItems : Nat → List Char → Option (List Json × List Char)
  | 0, _ => none
  | fuel + 1, cs =>
    match readValue fuel cs with
    | none => none
    | some (v, rest) =>
      match skipBlanks rest with
      | ']' :: rest => some ([v], rest)
      | ',' :: rest => (readItems fuel rest).map fun (vs, rest) => (v :: vs, rest)
      | _ => none

/-- The members of an object that is not empty, and its closing bracket. -/
def readMembers : Nat → List Char → Option (List (Option String × Json) × List Char)
  | 0, _ => none
  | fuel + 1, cs =>
    match skipBlanks cs with
    | '"' :: rest =>
      match readText rest with
      | none => none
      | some (name?, rest) =>
        match skipBlanks rest with
        | ':' :: rest =>
          match readValue fuel rest with
          | none => none
          | some (v, rest) =>
            match skipBlanks rest with
            | '\x7d' :: rest => some ([(name?, v)], rest)
            | ',' :: rest => (readMembers fuel rest).map fun (ms, rest) => ((name?, v) :: ms, rest)
            | _ => none
        | _ => none
    | _ => none

end

/-- A value at the front of a text, and the rest of the text.  Each step of the readers that takes
nothing from the text is followed by one that does, so twice the length is enough of a budget. -/
def Json.read (text : String) : Option (Json × List Char) :=
  readValue (2 * text.length + 2) text.toList

end DoctestSelection
