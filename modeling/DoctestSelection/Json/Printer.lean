import DoctestSelection.Json.Value

/-!
# Writing JSON

A value is written on one line without blanks, or over several lines with two spaces for each
level.  In strings only the quote, the backslash and the control characters are escaped.

## Main definitions

* `escapeChar c` — a character within a string.
* `JsonLayout` — what stands between the parts of a value.
* `Json.write` — a value in a layout.
* `Json.pretty` — a value as text over several lines.
-/

namespace DoctestSelection

/-! ### Strings -/

/-- A hexadecimal digit, in lower case. -/
def hexDigit (n : Nat) : Char := n.digitChar

/-- A character as it stands within a string. -/
def escapeChar (c : Char) : List Char :=
  if c = '"' then ['\\', '"']
  else if c = '\\' then ['\\', '\\']
  else if c = '\x08' then ['\\', 'b']
  else if c = '\x0c' then ['\\', 'f']
  else if c = '\n' then ['\\', 'n']
  else if c = '\r' then ['\\', 'r']
  else if c = '\t' then ['\\', 't']
  else if c.toNat < 0x20 then
    ['\\', 'u', '0', '0', hexDigit (c.toNat / 16), hexDigit (c.toNat % 16)]
  else [c]

/-- A text in quotes. -/
def quoted (cs : List Char) : List Char := '"' :: cs.flatMap escapeChar ++ ['"']

/-! ### Values -/

/-- What stands between the parts of a value. -/
structure JsonLayout where
  /-- What stands before an item or a member, or before a closing bracket, at a level. -/
  lineBreak : Nat → List Char
  /-- What stands between the name and the value of a member. -/
  afterName : List Char

namespace JsonLayout

/-- Everything on one line, without blanks. -/
def compact : JsonLayout := ⟨fun _ => [], [':']⟩

/-- Every item and member on a line of its own, two spaces in for each level. -/
def pretty : JsonLayout := ⟨fun level => '\n' :: List.replicate (2 * level) ' ', [':', ' ']⟩

end JsonLayout

namespace Json

mutual

/-- The characters of a value that stands at a level.  A value that cannot be read is written as
`null`. -/
def write (l : JsonLayout) (level : Nat) : Json → List Char
  | .null => ['n', 'u', 'l', 'l']
  | .bool true => ['t', 'r', 'u', 'e']
  | .bool false => ['f', 'a', 'l', 's', 'e']
  | .number literal => literal.chars
  | .string s => quoted s.toList
  | .array items =>
    '[' :: writeItems l (level + 1) items ++
      (if items.isEmpty then [] else l.lineBreak level) ++ [']']
  | .object members =>
    '\x7b' :: writeMembers l (level + 1) members ++
      (if members.isEmpty then [] else l.lineBreak level) ++ ['\x7d']
  | .unreadable => ['n', 'u', 'l', 'l']

/-- The characters of the items of an array, with commas between them. -/
def writeItems (l : JsonLayout) (level : Nat) : List Json → List Char
  | [] => []
  | v :: vs =>
    l.lineBreak level ++ v.write l level ++
      (if vs.isEmpty then [] else [',']) ++ writeItems l level vs

/-- The characters of the members of an object, with commas between them. -/
def writeMembers (l : JsonLayout) (level : Nat) : List (String × Json) → List Char
  | [] => []
  | (name, v) :: ms =>
    l.lineBreak level ++ quoted name.toList ++ l.afterName ++ v.write l level ++
      (if ms.isEmpty then [] else [',']) ++ writeMembers l level ms

end

/-- A value over several lines. -/
def pretty (v : Json) : String := String.ofList (v.write .pretty 0)

end Json

end DoctestSelection
