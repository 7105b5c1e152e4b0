import DoctestSelection.Json.Value
import Mathlib.Data.List.Forall2

/-!
# Records and their fields

A record is spelled as an object, in which each of its fields has at most one member and other
members do not matter, or as an array of its first fields.  Each field has a rule of its own for
what may stand in it and for what it means when it is left out.  The rules are stated here as
relations between values and what they spell, one constructor for each way to spell something, and
the decoders are shown to follow exactly these rules.

## Main definitions

* `Json.MemberIs name members field` — the one member of a name, or that there is none.
* `Json.RecordIs names v fields` — the fields of a record, in either spelling.
* `Json.StringIs`, `Json.IndexIs`, `Json.ArrayIs` — what a value spells.
* `Json.OptionalIs`, `Json.DefaultedIs` — what a field spells that may be left out.

## Main results

* `Json.fields?_eq_some_iff` — the fields of a record are found in exactly these spellings.
* `Json.string?_eq_some_iff`, `Json.index?_eq_some_iff`, `Json.items?_eq_some_iff` — values.
* `Json.orNull?_eq_some_iff`, `Json.orDefault?_eq_some_iff` — fields that may be left out.
-/

namespace DoctestSelection

namespace Json

/-- Decoding succeeds when every part is decoded, with one result for each. -/
theorem mapM_eq_some_iff {α β : Type} {f : α → Option β} {l : List α} {bs : List β} :
    l.mapM f = some bs ↔ List.Forall₂ (fun a b => f a = some b) l bs := by
  induction l generalizing bs with
  | nil =>
    rw [List.forall₂_nil_left_iff, List.mapM_nil]
    exact ⟨fun h => (Option.some.inj h).symm, fun h => h ▸ rfl⟩
  | cons a l ih =>
    rw [List.forall₂_cons_left_iff, List.mapM_cons]
    simp only [← ih, bind, Option.bind_eq_some_iff, pure, Option.some.injEq]
    constructor
    · intro h
      obtain ⟨b, hb, cs, hcs, rfl⟩ := h
      exact ⟨b, cs, hb, hcs, rfl⟩
    · intro h
      obtain ⟨b, cs, hb, hcs, rfl⟩ := h
      exact ⟨b, hb, cs, hcs, rfl⟩

/-! ### Members -/

variable {name : String} {members : List (String × Json)}

/-- The one member of a name, or that there is none.  A second member of the name is not allowed. -/
inductive MemberIs (name : String) (members : List (String × Json)) : Option Json → Prop
  | missing : (∀ m ∈ members, m.1 ≠ name) → MemberIs name members none
  | present {before after : List (String × Json)} {v : Json} :
    members = before ++ (name, v) :: after → (∀ m ∈ before, m.1 ≠ name) →
    (∀ m ∈ after, m.1 ≠ name) → MemberIs name members (some v)

theorem valuesOf_eq_nil_iff : valuesOf name members = [] ↔ ∀ m ∈ members, m.1 ≠ name := by
  rw [valuesOf, List.map_eq_nil_iff, List.filter_eq_nil_iff]
  simp

theorem valuesOf_eq_singleton_iff {v : Json} :
    valuesOf name members = [v] ↔
      ∃ before after, members = before ++ (name, v) :: after ∧ (∀ m ∈ before, m.1 ≠ name) ∧
        ∀ m ∈ after, m.1 ≠ name := by
  rw [valuesOf, List.map_eq_cons_iff]
  simp only [List.filter_eq_cons_iff, List.map_eq_nil_iff, beq_iff_eq]
  constructor
  · intro h
    obtain ⟨m, ms, ⟨before, after, hmembers, hbefore, rfl, hms⟩, rfl, rfl⟩ := h
    exact ⟨before, after, hmembers, hbefore, by simpa using hms⟩
  · intro h
    obtain ⟨before, after, hmembers, hbefore, hafter⟩ := h
    exact ⟨(name, v), [], ⟨before, after, hmembers, hbefore, rfl, by simpa using hafter⟩, rfl, rfl⟩

theorem member?_eq_some_iff {field : Option Json} :
    member? name members = some field ↔ MemberIs name members field := by
  unfold member?
  constructor
  · intro h
    split at h
    · rename_i hnil
      rw [← Option.some.inj h]
      exact .missing (valuesOf_eq_nil_iff.1 hnil)
    · rename_i v hone
      rw [← Option.some.inj h]
      obtain ⟨before, after, hmembers, hbefore, hafter⟩ := valuesOf_eq_singleton_iff.1 hone
      exact .present hmembers hbefore hafter
    · exact nomatch h
  · intro h
    cases h with
    | missing hnone => rw [valuesOf_eq_nil_iff.2 hnone]
    | present hmembers hbefore hafter =>
      rw [valuesOf_eq_singleton_iff.2 ⟨_, _, hmembers, hbefore, hafter⟩]

/-! ### Records -/

variable {names : List String} {v : Json}

/-- The fields of a record, in the order of their names, each `none` if it is left out. -/
inductive RecordIs (names : List String) : Json → List (Option Json) → Prop
  /-- By name: each field has at most one member. -/
  | object {members : List (String × Json)} {fields : List (Option Json)} :
    List.Forall₂ (fun name field => MemberIs name members field) names fields →
    RecordIs names (.object members) fields
  /-- By position: the first fields are there, and the others are left out. -/
  | array {items : List Json} {left : Nat} : items.length + left = names.length →
    RecordIs names (.array items) (items.map some ++ List.replicate left none)

/-- The fields of a record are found in exactly its two spellings. -/
theorem fields?_eq_some_iff {fields : List (Option Json)} :
    v.fields? names = some fields ↔ RecordIs names v fields := by
  constructor
  · intro h
    cases v with
    | object members =>
      have hfields : names.mapM (member? · members) = some fields := h
      rw [mapM_eq_some_iff] at hfields
      exact .object (hfields.imp fun _ _ => member?_eq_some_iff.1)
    | array items =>
      rw [fields?] at h
      split at h
      · rename_i hle
        rw [← Option.some.inj h]
        exact .array (by omega)
      · exact nomatch h
    | _ => exact nomatch h
  · intro h
    cases h with
    | @object members _ hfields =>
      show names.mapM (member? · members) = some fields
      rw [mapM_eq_some_iff]
      exact hfields.imp fun _ _ => member?_eq_some_iff.2
    | @array items left hlen =>
      have hle : items.length ≤ names.length := by omega
      have hleft : names.length - items.length = left := by omega
      rw [fields?, if_pos hle, hleft]

/-! ### Values -/

/-- A string spells its text. -/
inductive StringIs : Json → String → Prop
  | string (s : String) : StringIs (.string s) s

/-- A number spells an index when it has digits alone, no sign and no point and no power, and their
value has no more than 64 bits. -/
inductive IndexIs : Json → Index → Prop
  | digits {digits : List Char} {i : Index} : Nat.ofDigitChars 10 digits 0 = i.toNat →
    IndexIs (.number ⟨false, digits, [], none⟩) i

/-- An array spells a list when its items spell the members of the list, in order. -/
inductive ArrayIs {α : Type} (Spells : Json → α → Prop) : Json → List α → Prop
  | items {items : List Json} {as : List α} : List.Forall₂ Spells items as →
    ArrayIs Spells (.array items) as

theorem string?_eq_some_iff {s : String} : v.string? = some s ↔ StringIs v s := by
  constructor
  · intro h
    cases v with
    | string s' =>
      rw [← Option.some.inj h]
      exact .string s'
    | _ => exact nomatch h
  · intro h
    cases h with
    | string s => rfl

theorem index?_eq_some_iff {i : Index} : v.index? = some i ↔ IndexIs v i := by
  constructor
  · intro h
    cases v with
    | number literal =>
      obtain ⟨isNegative, whole, fraction, exponent⟩ := literal
      obtain ⟨n, hn, hi⟩ := Option.bind_eq_some_iff.1 h
      rw [NumberLiteral.natural?] at hn
      split at hn
      · rename_i hplain
        simp only [Bool.and_eq_true, Bool.not_eq_true', List.isEmpty_iff,
          Option.isNone_iff_eq_none] at hplain
        obtain ⟨⟨rfl, rfl⟩, rfl⟩ := hplain
        rw [← Option.some.inj hn, Index.ofNat?_eq_some_iff] at hi
        exact .digits hi.symm
      · exact nomatch hn
    | _ => exact nomatch h
  · intro h
    cases h with
    | @digits digits _ hvalue =>
      show Index.ofNat? (Nat.ofDigitChars 10 digits 0) = some i
      rw [hvalue, Index.ofNat?_toNat]

theorem items?_eq_some_iff {items : List Json} : v.items? = some items ↔ v = .array items := by
  cases v with
  | array items' =>
    show some items' = some items ↔ _
    rw [Option.some.injEq, Json.array.injEq]
  | _ => exact iff_of_false nofun nofun

/-- The items of an array are decoded one by one. -/
theorem items?_bind_mapM_eq_some_iff {α : Type} {decode : Json → Option α}
    {Spells : Json → α → Prop} (h : ∀ v a, decode v = some a ↔ Spells v a) {as : List α} :
    (v.items?.bind fun items => items.mapM decode) = some as ↔ ArrayIs Spells v as := by
  simp only [Option.bind_eq_some_iff, items?_eq_some_iff, mapM_eq_some_iff, h]
  constructor
  · intro hex
    obtain ⟨items, rfl, hitems⟩ := hex
    exact .items hitems
  · intro has
    cases has with
    | items hitems => exact ⟨_, rfl, hitems⟩

/-! ### Fields that may be left out -/

/-- A field spells nothing when it is missing or null. -/
inductive OptionalIs {α : Type} (Spells : Json → α → Prop) : Option Json → Option α → Prop
  | missing : OptionalIs Spells none none
  | null : OptionalIs Spells (some .null) none
  | value {v : Json} {a : α} : Spells v a → OptionalIs Spells (some v) (some a)

/-- A field spells a default when it is missing. -/
inductive DefaultedIs {α : Type} (default : α) (Spells : Json → α → Prop) :
    Option Json → α → Prop
  | missing : DefaultedIs default Spells none default
  | value {v : Json} {a : α} : Spells v a → DefaultedIs default Spells (some v) a

variable {α : Type} {decode : Json → Option α} {Spells : Json → α → Prop} {field : Option Json}

/-- A field that may be missing or null, if null does not spell anything else. -/
theorem orNull?_eq_some_iff (h : ∀ v a, decode v = some a ↔ Spells v a)
    (hnull : decode .null = none) {a? : Option α} :
    orNull? decode field = some a? ↔ OptionalIs Spells field a? := by
  constructor
  · intro hdecode
    unfold orNull? at hdecode
    split at hdecode
    · rw [← Option.some.inj hdecode]
      exact .missing
    · rw [← Option.some.inj hdecode]
      exact .null
    · obtain ⟨a, ha, rfl⟩ := Option.map_eq_some_iff.1 hdecode
      exact .value ((h _ _).1 ha)
  · intro hspells
    cases hspells with
    | missing => rfl
    | null => rfl
    | @value v a hv =>
      have hdecode : decode v = some a := (h v a).2 hv
      cases v with
      | null =>
        rw [hnull] at hdecode
        exact nomatch hdecode
      | _ =>
        show (decode _).map some = some (some a)
        rw [hdecode]
        rfl

theorem orDefault?_eq_some_iff {default : α} (h : ∀ v a, decode v = some a ↔ Spells v a) {a : α} :
    orDefault? default decode field = some a ↔ DefaultedIs default Spells field a := by
  constructor
  · intro hdecode
    cases field with
    | none =>
      rw [← Option.some.inj hdecode]
      exact .missing
    | some v => exact .value ((h v a).1 hdecode)
  · intro hspells
    cases hspells with
    | missing => rfl
    | @value v a hv => exact (h v a).2 hv

/-- A string field that may be missing or null. -/
theorem orNull?_string?_eq_some_iff {s? : Option String} :
    orNull? string? field = some s? ↔ OptionalIs StringIs field s? :=
  orNull?_eq_some_iff (fun _ _ => string?_eq_some_iff) rfl

/-- An index field that may be missing or null. -/
theorem orNull?_index?_eq_some_iff {i? : Option Index} :
    orNull? index? field = some i? ↔ OptionalIs IndexIs field i? :=
  orNull?_eq_some_iff (fun _ _ => index?_eq_some_iff) rfl

/-- A string field that may be missing. -/
theorem orDefault?_string?_eq_some_iff {default s : String} :
    orDefault? default string? field = some s ↔ DefaultedIs default StringIs field s :=
  orDefault?_eq_some_iff fun _ _ => string?_eq_some_iff

end Json

end DoctestSelection
