import DoctestSelection.Json.Number

/-!
# JSON values

A value keeps what a text spells: number literals as they stand, and the members of an object in
order, repetitions included.  Some literals keep to the grammar and yet name no value: a string
with half of a surrogate pair, or an object with such a member name.  They are kept as unreadable,
since whoever skips a value does not mind what is in it.

## Main definitions

* `Json` — the values.
* `Json.isReadable`, `Json.depth` — whether every part of a value can be read, and how deep it is.
* `Json.fields?` — the fields of a record, which may be spelled as an object or as an array.
* `Json.string?`, `Json.index?`, `Json.items?`, `Json.orNull?` — what one field holds.
-/

namespace DoctestSelection

/-- A JSON value. -/
inductive Json
  | null
  | bool (b : Bool)
  /-- A number, as it is spelled. -/
  | number (literal : NumberLiteral)
  | string (s : String)
  | array (items : List Json)
  /-- Values with names, in the order in which they stand. -/
  | object (members : List (String × Json))
  /-- A literal that keeps to the grammar but names no value. -/
  | unreadable
  deriving Repr, Inhabited

namespace Json

/-- A natural number as a value. -/
def natural (n : Nat) : Json := .number (.ofNat n)

/-- An index as a value. -/
def index (i : Index) : Json := natural i.toNat

/-! ### Properties of every part -/

mutual

/-- Whether every part of a value can be read. -/
def isReadable : Json → Bool
  | .null => true
  | .bool _ => true
  | .number literal => literal.isReadable
  | .string _ => true
  | .array items => areReadable items
  | .object members => areMembersReadable members
  | .unreadable => false

/-- Whether every part of each item can be read. -/
def areReadable : List Json → Bool
  | [] => true
  | v :: vs => v.isReadable && areReadable vs

/-- Whether every part of each member can be read. -/
def areMembersReadable : List (String × Json) → Bool
  | [] => true
  | (_, v) :: ms => v.isReadable && areMembersReadable ms

end

mutual

/-- How many arrays and objects are nested in a value. -/
def depth : Json → Nat
  | .array items => itemsDepth items + 1
  | .object members => membersDepth members + 1
  | _ => 0

/-- How many arrays and objects are nested in some item. -/
def itemsDepth : List Json → Nat
  | [] => 0
  | v :: vs => max v.depth (itemsDepth vs)

/-- How many arrays and objects are nested in some member. -/
def membersDepth : List (String × Json) → Nat
  | [] => 0
  | (_, v) :: ms => max v.depth (membersDepth ms)

end

/-! ### Records -/

/-- The values of the members that have a name, in order. -/
def valuesOf (name : String) (members : List (String × Json)) : List Json :=
  (members.filter (·.1 == name)).map (·.2)

/-- The value of the member that has a name, or `none` if there is no such member.  The outer
`none` refuses a repetition. -/
def member? (name : String) (members : List (String × Json)) : Option (Option Json) :=
  match valuesOf name members with
  | [] => some none
  | [v] => some (some v)
  | _ => none

/-- The fields of a record, in the order in which they are declared, each `none` if it is missing.
A record is an object whose other members do not matter, or an array of its first fields. -/
def fields? (names : List String) : Json → Option (List (Option Json))
  | .object members => names.mapM (member? · members)
  | .array items =>
    if items.length ≤ names.length then
      some (items.map some ++ List.replicate (names.length - items.length) none)
    else none
  | _ => none

/-! ### Fields -/

/-- The text of a string. -/
def string? : Json → Option String
  | .string s => some s
  | _ => none

/-- The index that a number spells with plain digits. -/
def index? : Json → Option Index
  | .number literal => literal.natural?.bind Index.ofNat?
  | _ => none

/-- The items of an array. -/
def items? : Json → Option (List Json)
  | .array items => some items
  | _ => none

/-- What a field holds that may be missing or null. -/
def orNull? {α : Type} (decode : Json → Option α) : Option Json → Option (Option α)
  | none => some none
  | some .null => some none
  | some v => (decode v).map some

/-- What a field holds that may be missing, in which case a default stands for it. -/
def orDefault? {α : Type} (default : α) (decode : Json → Option α) : Option Json → Option α
  | none => some default
  | some v => decode v

@[simp] theorem index?_index (i : Index) : (index i).index? = some i := by
  simp [index, natural, index?]

@[simp] theorem string?_string (s : String) : (string s).string? = some s := rfl

end Json

end DoctestSelection
