import DoctestSelection.Proofs.Json.Literals

/-!
# Written values read back

A value that is made of texts, indices, arrays and objects is written so that a reader finds its end
again, whatever follows, and finds the value itself.  That holds for every layout that puts nothing
but blanks between the parts of a value, at whatever level the value stands.  A text of a number of
characters needs no more than twice that number as the budget of the reader.

The proof is by induction on the value; lists of items and of members are read from the first one on,
where each stops because a comma, a blank or a closing bracket ends the value before it.

## Main definitions

* `Json.Plain n v` — the parts of `v` are texts, indices, truth values, null, and arrays and objects
  of such parts, nested at most to the depth `n`.
* `JsonLayout.Blank l` — nothing but blanks stands between the parts of a value.
* `Json.ReadsBack l v` — `v` is read from what is written in `l`, whatever follows.

## Main results

* `Json.readsBack_of_plain` — **a written plain value reads back.**
* `Json.read_write` — the same for a whole text.
-/

namespace DoctestSelection

/-! ### Layouts -/

/-- A layout that puts nothing but blanks between the parts of a value. -/
structure JsonLayout.Blank (l : JsonLayout) : Prop where
  lineBreak : ∀ level, ∀ c ∈ l.lineBreak level, isJsonBlank c = true
  afterName : ∃ bs, l.afterName = ':' :: bs ∧ ∀ c ∈ bs, isJsonBlank c = true

theorem JsonLayout.blank_compact : JsonLayout.compact.Blank where
  lineBreak := fun _ _ hc => absurd hc List.not_mem_nil
  afterName := ⟨[], rfl, fun _ hc => absurd hc List.not_mem_nil⟩

theorem JsonLayout.blank_pretty : JsonLayout.pretty.Blank where
  lineBreak := by
    intro level c hc
    rcases List.mem_cons.1 hc with rfl | hc
    · rfl
    · rw [(List.mem_replicate.1 hc).2]
      rfl
  afterName := ⟨[' '], rfl, by simp [isJsonBlank]⟩

/-! ### What follows a value -/

theorem isJsonBlank_iff {c : Char} :
    isJsonBlank c = true ↔ c = ' ' ∨ c = '\t' ∨ c = '\n' ∨ c = '\r' := by
  simp [isJsonBlank, or_assoc]

/-- Blanks before a character that ends a number end it as well. -/
theorem endsNumber_append {bs rest : List Char} (hb : ∀ c ∈ bs, isJsonBlank c = true)
    (h : EndsNumber rest) : EndsNumber (bs ++ rest) := by
  cases bs with
  | nil => exact h
  | cons b bs =>
    apply endsNumber_cons
    rcases isJsonBlank_iff.1 (hb b List.mem_cons_self) with rfl | rfl | rfl | rfl <;> decide

/-! ### Blanks before what is read -/

section Readers

variable {bs cs rest : List Char} {fuel : Nat} {v : Json}

theorem readValue_skipBlanks (fuel : Nat) (cs : List Char) :
    readValue fuel (skipBlanks cs) = readValue fuel cs := by
  cases fuel with
  | zero => rfl
  | succ fuel => rw [readValue, readValue, skipBlanks_skipBlanks]

theorem readItems_skipBlanks (fuel : Nat) (cs : List Char) :
    readItems fuel (skipBlanks cs) = readItems fuel cs := by
  cases fuel with
  | zero => rfl
  | succ fuel => rw [readItems, readItems, readValue_skipBlanks]

theorem readMembers_skipBlanks (fuel : Nat) (cs : List Char) :
    readMembers fuel (skipBlanks cs) = readMembers fuel cs := by
  cases fuel with
  | zero => rfl
  | succ fuel => rw [readMembers, readMembers, skipBlanks_skipBlanks]

theorem readValue_append (hb : ∀ c ∈ bs, isJsonBlank c = true) (fuel : Nat) (cs : List Char) :
    readValue fuel (bs ++ cs) = readValue fuel cs := by
  rw [← readValue_skipBlanks, skipBlanks_append hb, readValue_skipBlanks]

/-! ### One step of a reader -/

theorem readValue_of_isDigit {c : Char} (h : c.isDigit = true) (fuel : Nat) (cs : List Char) :
    readValue (fuel + 1) (c :: cs) =
      (readNumber (c :: cs)).map fun read => (.number read.1, read.2) := by
  have hblank : isJsonBlank c = false := by
    by_contra hc
    rw [Bool.not_eq_false, isJsonBlank_iff] at hc
    rcases hc with rfl | rfl | rfl | rfl <;> exact absurd h (by decide)
  rw [readValue, skipBlanks_cons hblank]
  -- no other value starts with a digit
  split <;> first | rfl | (rename_i heq; rw [(List.cons.inj heq).1] at h; exact absurd h (by decide))

/-- A written string behind blanks is read after its opening quote. -/
theorem exists_readText_quoted (hb : ∀ c ∈ bs, isJsonBlank c = true) (s : String)
    (rest : List Char) :
    ∃ text, skipBlanks (bs ++ (quoted s.toList ++ rest)) = '"' :: text ∧
      readText text = some (some s, rest) := by
  refine ⟨s.toList.flatMap escapeChar ++ '"' :: rest, ?_, readText_quoted s rest⟩
  have hquoted : quoted s.toList ++ rest = '"' :: (s.toList.flatMap escapeChar ++ '"' :: rest) := by
    simp [quoted]
  rw [skipBlanks_append hb, hquoted, skipBlanks_cons rfl]

theorem readValue_string (fuel : Nat) (s : String) (rest : List Char) :
    readValue (fuel + 1) (quoted s.toList ++ rest) = some (.string s, rest) := by
  obtain ⟨text, hquoted, hread⟩ := exists_readText_quoted (List.forall_mem_nil _) s rest
  rw [List.nil_append] at hquoted
  simp only [readValue, hquoted, hread]
  rfl

/-- No value starts with a closing bracket. -/
theorem readValue_eq_none (h : skipBlanks cs = ']' :: rest) (fuel : Nat) :
    readValue fuel cs = none := by
  cases fuel with
  | zero => rfl
  | succ fuel =>
    rw [readValue, h]
    rfl

theorem readValue_array (h : ∀ rest, skipBlanks cs ≠ ']' :: rest) (fuel : Nat) :
    readValue (fuel + 1) ('[' :: cs) =
      (readItems fuel cs).map fun read => (.array read.1, read.2) := by
  have hbracket : skipBlanks ('[' :: cs) = '[' :: cs := skipBlanks_cons rfl cs
  simp only [readValue, hbracket, readItems_skipBlanks]

theorem readValue_object (h : ∀ rest, skipBlanks cs ≠ '\x7d' :: rest) (fuel : Nat) :
    readValue (fuel + 1) ('\x7b' :: cs) =
      (readMembers fuel cs).map fun read => (.ofMembers? read.1, read.2) := by
  have hbracket : skipBlanks ('\x7b' :: cs) = '\x7b' :: cs := skipBlanks_cons rfl cs
  simp only [readValue, hbracket, readMembers_skipBlanks]

variable {after : List Char}

/-- The last item of an array. -/
theorem readItems_last (hread : readValue fuel cs = some (v, after))
    (hafter : skipBlanks after = ']' :: rest) : readItems (fuel + 1) cs = some ([v], rest) := by
  simp only [readItems, hread, hafter]

/-- An item of an array before another one. -/
theorem readItems_cons (hread : readValue fuel cs = some (v, after))
    (hafter : skipBlanks after = ',' :: rest) :
    readItems (fuel + 1) cs = (readItems fuel rest).map fun read => (v :: read.1, read.2) := by
  simp only [readItems, hread, hafter]

/-- The last member of an object. -/
theorem readMembers_last (hb : ∀ c ∈ bs, isJsonBlank c = true) (name : String)
    (hread : readValue fuel cs = some (v, after)) (hafter : skipBlanks after = '\x7d' :: rest) :
    readMembers (fuel + 1) (bs ++ (quoted name.toList ++ ':' :: cs)) =
      some ([(some name, v)], rest) := by
  obtain ⟨text, hquoted, htext⟩ := exists_readText_quoted hb name (':' :: cs)
  have hcolon : skipBlanks (':' :: cs) = ':' :: cs := skipBlanks_cons rfl cs
  simp only [readMembers, hquoted, htext, hcolon, hread, hafter]

/-- A member of an object before another one. -/
theorem readMembers_cons (hb : ∀ c ∈ bs, isJsonBlank c = true) (name : String)
    (hread : readValue fuel cs = some (v, after)) (hafter : skipBlanks after = ',' :: rest) :
    readMembers (fuel + 1) (bs ++ (quoted name.toList ++ ':' :: cs)) =
      (readMembers fuel rest).map fun read => ((some name, v) :: read.1, read.2) := by
  obtain ⟨text, hquoted, htext⟩ := exists_readText_quoted hb name (':' :: cs)
  have hcolon : skipBlanks (':' :: cs) = ':' :: cs := skipBlanks_cons rfl cs
  simp only [readMembers, hquoted, htext, hcolon, hread, hafter]

end Readers

/-! ### Lists of written values -/

namespace Json

/-- A value is read from what is written in a layout, with a budget of twice its length, whatever
follows it that ends a number. -/
def ReadsBack (l : JsonLayout) (v : Json) : Prop :=
  ∀ level fuel rest, 2 * (v.write l level).length ≤ fuel → EndsNumber rest →
    readValue fuel (v.write l level ++ rest) = some (v, rest)

section Lists

variable {l : JsonLayout} {level : Nat}

theorem writeItems_singleton (v : Json) :
    writeItems l level [v] = l.lineBreak level ++ v.write l level := by
  simp [writeItems]

theorem writeItems_cons_cons (v u : Json) (us : List Json) :
    writeItems l level (v :: u :: us) =
      l.lineBreak level ++ (v.write l level ++ ',' :: writeItems l level (u :: us)) := by
  rw [writeItems]
  simp

theorem writeMembers_singleton (name : String) (v : Json) :
    writeMembers l level [(name, v)] =
      l.lineBreak level ++ (quoted name.toList ++ (l.afterName ++ v.write l level)) := by
  simp [writeMembers]

theorem writeMembers_cons_cons (name : String) (v : Json) (m : String × Json)
    (ms : List (String × Json)) :
    writeMembers l level ((name, v) :: m :: ms) =
      l.lineBreak level ++ (quoted name.toList ++
        (l.afterName ++ (v.write l level ++ ',' :: writeMembers l level (m :: ms)))) := by
  rw [writeMembers]
  simp

theorem exists_writeMembers_concat (members : List (String × Json)) (name : String) :
    ∃ front, ∀ v, writeMembers l level (members ++ [(name, v)]) =
      front ++ (quoted name.toList ++ (l.afterName ++ v.write l level)) := by
  induction members with
  | nil => exact ⟨l.lineBreak level, writeMembers_singleton name⟩
  | cons m ms ih =>
    obtain ⟨front, hfront⟩ := ih
    refine ⟨l.lineBreak level ++ (quoted m.1.toList ++
      (l.afterName ++ (m.2.write l level ++ ',' :: front))), ?_⟩
    intro v
    rw [List.cons_append, writeMembers, hfront]
    simp

/-- The items of an array read back, up to its closing bracket. -/
theorem readItems_writeItems (hl : l.Blank) {items : List Json}
    (hitems : ∀ v ∈ items, v.ReadsBack l) (hne : items ≠ []) {fuel : Nat}
    (hfuel : 2 * (writeItems l level items).length < fuel)
    {bs : List Char} (hb : ∀ c ∈ bs, isJsonBlank c = true) (rest : List Char) :
    readItems fuel (writeItems l level items ++ (bs ++ ']' :: rest)) = some (items, rest) := by
  induction items generalizing fuel with
  | nil => exact absurd rfl hne
  | cons v vs ih =>
    obtain ⟨fuel, rfl⟩ : ∃ k, fuel = k + 1 := ⟨fuel - 1, by omega⟩
    have hv : ∀ after, EndsNumber after → 2 * (v.write l level).length ≤ fuel →
        readValue fuel (l.lineBreak level ++ (v.write l level ++ after)) = some (v, after) := by
      intro after hafter hle
      rw [readValue_append (hl.lineBreak level)]
      exact hitems v List.mem_cons_self level fuel after hle hafter
    cases vs with
    | nil =>
      rw [writeItems_singleton, List.length_append] at hfuel
      have hclose : skipBlanks (bs ++ ']' :: rest) = ']' :: rest := by
        rw [skipBlanks_append hb, skipBlanks_cons rfl]
      have hends : EndsNumber (bs ++ ']' :: rest) :=
        endsNumber_append hb (endsNumber_cons (by decide) rest)
      rw [writeItems_singleton, List.append_assoc]
      exact readItems_last (hv _ hends (by omega)) hclose
    | cons u us =>
      rw [writeItems_cons_cons, List.length_append, List.length_append, List.length_cons] at hfuel
      have hread : readItems fuel (writeItems l level (u :: us) ++ (bs ++ ']' :: rest)) =
          some (u :: us, rest) :=
        ih (fun u hu => hitems u (List.mem_cons_of_mem v hu)) (List.cons_ne_nil u us) (by omega)
      rw [writeItems_cons_cons, List.append_assoc, List.append_assoc, List.cons_append,
        readItems_cons (hv _ (endsNumber_cons (by decide) _) (by omega)) (skipBlanks_cons rfl _), hread]
      rfl

/-- The members of an object read back, up to its closing bracket. -/
theorem readMembers_writeMembers (hl : l.Blank) {members : List (String × Json)}
    (hmembers : ∀ m ∈ members, m.2.ReadsBack l) (hne : members ≠ []) {fuel : Nat}
    (hfuel : 2 * (writeMembers l level members).length < fuel)
    {bs : List Char} (hb : ∀ c ∈ bs, isJsonBlank c = true) (rest : List Char) :
    readMembers fuel (writeMembers l level members ++ (bs ++ '\x7d' :: rest)) =
      some (members.map fun m => (some m.1, m.2), rest) := by
  obtain ⟨blanks, hcolon, hblanks⟩ := hl.afterName
  induction members generalizing fuel with
  | nil => exact absurd rfl hne
  | cons m ms ih =>
    obtain ⟨name, v⟩ := m
    obtain ⟨fuel, rfl⟩ : ∃ k, fuel = k + 1 := ⟨fuel - 1, by omega⟩
    have hv : ∀ after, EndsNumber after → 2 * (v.write l level).length ≤ fuel →
        readValue fuel (blanks ++ (v.write l level ++ after)) = some (v, after) := by
      intro after hafter hle
      rw [readValue_append hblanks]
      exact hmembers (name, v) List.mem_cons_self level fuel after hle hafter
    cases ms with
    | nil =>
      rw [writeMembers_singleton] at hfuel ⊢
      simp only [hcolon, List.append_assoc, List.cons_append, List.length_append,
        List.length_cons] at hfuel ⊢
      have hclose : skipBlanks (bs ++ '\x7d' :: rest) = '\x7d' :: rest := by
        rw [skipBlanks_append hb, skipBlanks_cons rfl]
      have hends : EndsNumber (bs ++ '\x7d' :: rest) :=
        endsNumber_append hb (endsNumber_cons (by decide) rest)
      exact readMembers_last (hl.lineBreak level) name (hv _ hends (by omega)) hclose
    | cons m' ms' =>
      rw [writeMembers_cons_cons] at hfuel ⊢
      simp only [hcolon, List.append_assoc, List.cons_append, List.length_append,
        List.length_cons] at hfuel ⊢
      have hread : readMembers fuel (writeMembers l level (m' :: ms') ++ (bs ++ '\x7d' :: rest)) =
          some ((m' :: ms').map fun m => (some m.1, m.2), rest) :=
        ih (fun m hm => hmembers m (List.mem_cons_of_mem _ hm)) (List.cons_ne_nil m' ms') (by omega)
      rw [readMembers_cons (hl.lineBreak level) name
        (hv _ (endsNumber_cons (by decide) _) (by omega)) (skipBlanks_cons rfl _), hread]
      rfl

end Lists

/-! ### Written values -/

variable {l : JsonLayout}

/-- A value without parts is read in one step, for which any budget will do. -/
theorem readsBack_of_step {v : Json} (hne : ∀ level, v.write l level ≠ [])
    (h : ∀ level fuel rest, EndsNumber rest →
      readValue (fuel + 1) (v.write l level ++ rest) = some (v, rest)) : v.ReadsBack l := by
  intro level fuel rest hfuel hrest
  have hpos : 0 < (v.write l level).length := List.length_pos_iff.2 (hne level)
  obtain ⟨fuel, rfl⟩ : ∃ k, fuel = k + 1 := ⟨fuel - 1, by omega⟩
  exact h level fuel rest hrest

theorem readsBack_null (l : JsonLayout) : null.ReadsBack l := by
  refine readsBack_of_step (fun _ => by simp [write]) ?_
  intro level fuel rest _
  rw [write, List.cons_append, readValue, skipBlanks_cons rfl]
  rfl

theorem readsBack_bool (l : JsonLayout) (b : Bool) : (bool b).ReadsBack l := by
  cases b with
  | true =>
    refine readsBack_of_step (fun _ => by simp [write]) ?_
    intro level fuel rest _
    rw [write, List.cons_append, readValue, skipBlanks_cons rfl]
    rfl
  | false =>
    refine readsBack_of_step (fun _ => by simp [write]) ?_
    intro level fuel rest _
    rw [write, List.cons_append, readValue, skipBlanks_cons rfl]
    rfl

theorem readsBack_string (l : JsonLayout) (s : String) : (string s).ReadsBack l := by
  refine readsBack_of_step (fun _ => by simp [write, quoted]) ?_
  intro level fuel rest _
  rw [write]
  exact readValue_string fuel s rest

theorem readsBack_natural (l : JsonLayout) (n : Nat) : (natural n).ReadsBack l := by
  have hwrite : ∀ level, (natural n).write l level = Nat.toDigits 10 n := by
    intro level
    rw [natural, write, NumberLiteral.chars_ofNat]
  refine readsBack_of_step (fun level => by simp [hwrite, Nat.toDigits_ne_nil]) ?_
  intro level fuel rest hrest
  have hnumber : readNumber (Nat.toDigits 10 n ++ rest) = some (.ofNat n, rest) := by
    rw [← NumberLiteral.chars_ofNat]
    exact readNumber_ofNat n hrest
  rw [hwrite]
  cases hdigits : Nat.toDigits 10 n with
  | nil => exact absurd hdigits Nat.toDigits_ne_nil
  | cons d ds =>
    have hd : d.isDigit = true :=
      Nat.isDigit_of_mem_toDigits (b := 10) (n := n) (by omega) (by omega) (by simp [hdigits])
    rw [hdigits] at hnumber
    rw [List.cons_append, readValue_of_isDigit hd, ← List.cons_append, hnumber]
    rfl

theorem write_array_nil (l : JsonLayout) (level : Nat) : (array []).write l level = ['[', ']'] := by
  simp [write, writeItems]

theorem write_array_of_ne_nil {items : List Json} (hne : items ≠ []) (l : JsonLayout) (level : Nat) :
    (array items).write l level =
      '[' :: (writeItems l (level + 1) items ++ (l.lineBreak level ++ [']'])) := by
  simp [write, hne]

theorem write_object_nil (l : JsonLayout) (level : Nat) :
    (object []).write l level = ['\x7b', '\x7d'] := by
  simp [write, writeMembers]

theorem write_object_of_ne_nil {members : List (String × Json)} (hne : members ≠ [])
    (l : JsonLayout) (level : Nat) :
    (object members).write l level =
      '\x7b' :: (writeMembers l (level + 1) members ++ (l.lineBreak level ++ ['\x7d'])) := by
  simp [write, hne]

theorem readsBack_array (hl : l.Blank) {items : List Json} (hitems : ∀ v ∈ items, v.ReadsBack l) :
    (array items).ReadsBack l := by
  intro level fuel rest hfuel _
  by_cases hne : items = []
  · rw [hne, write_array_nil] at hfuel ⊢
    obtain ⟨fuel, rfl⟩ : ∃ k, fuel = k + 1 := ⟨fuel - 1, by simp at hfuel; omega⟩
    rw [List.cons_append, List.cons_append, readValue, skipBlanks_cons rfl]
    rfl
  · rw [write_array_of_ne_nil hne, List.length_cons, List.length_append] at hfuel
    obtain ⟨fuel, rfl⟩ : ∃ k, fuel = k + 1 := ⟨fuel - 1, by omega⟩
    have hread : ∀ k, 2 * (writeItems l (level + 1) items).length < k →
        readItems k (writeItems l (level + 1) items ++ (l.lineBreak level ++ ']' :: rest)) =
          some (items, rest) := fun k hk =>
      readItems_writeItems hl hitems hne hk (hl.lineBreak level) rest
    rw [write_array_of_ne_nil hne, List.cons_append, List.append_assoc, List.append_assoc,
      List.singleton_append, readValue_array _, hread fuel (by omega)]
    · rfl
    · -- a bracket in front would be no item
      intro after hafter
      have hitem := hread (2 * (writeItems l (level + 1) items).length + 1) (by omega)
      rw [readItems, readValue_eq_none hafter] at hitem
      exact nomatch hitem

/-- What is encoded one by one is decoded one by one. -/
theorem mapM_map_eq_some {α β : Type} {encode : α → β} {decode : β → Option α}
    (h : ∀ a, decode (encode a) = some a) (as : List α) : (as.map encode).mapM decode = some as := by
  induction as with
  | nil => rfl
  | cons a as ih =>
    rw [List.map_cons, List.mapM_cons, h, ih]
    rfl

theorem ofMembers?_map_some (members : List (String × Json)) :
    ofMembers? (members.map fun m => (some m.1, m.2)) = .object members := by
  have hnames : (members.map fun m => (some m.1, m.2)).mapM
      (fun m : Option String × Json => m.1.map (·, m.2)) = some members := by
    apply mapM_map_eq_some
    intro m
    rfl
  rw [ofMembers?, hnames]
  rfl

/-- What is written before the value of the last member does not depend on it. -/
theorem exists_write_object_concat (l : JsonLayout) (level : Nat) (members : List (String × Json))
    (name : String) :
    ∃ front, ∀ v, (object (members ++ [(name, v)])).write l level =
      front ++ (quoted name.toList ++ l.afterName ++ v.write l (level + 1) ++
        l.lineBreak level ++ ['\x7d']) := by
  obtain ⟨front, hfront⟩ := exists_writeMembers_concat members name
  refine ⟨'\x7b' :: front, ?_⟩
  intro v
  rw [write_object_of_ne_nil (by simp), hfront]
  simp

theorem readsBack_object (hl : l.Blank) {members : List (String × Json)}
    (hmembers : ∀ m ∈ members, m.2.ReadsBack l) : (object members).ReadsBack l := by
  intro level fuel rest hfuel _
  by_cases hne : members = []
  · rw [hne, write_object_nil] at hfuel ⊢
    obtain ⟨fuel, rfl⟩ : ∃ k, fuel = k + 1 := ⟨fuel - 1, by simp at hfuel; omega⟩
    rw [List.cons_append, List.cons_append, readValue, skipBlanks_cons rfl]
    rfl
  · rw [write_object_of_ne_nil hne, List.length_cons, List.length_append] at hfuel
    obtain ⟨fuel, rfl⟩ : ∃ k, fuel = k + 1 := ⟨fuel - 1, by omega⟩
    have hread : ∀ k, 2 * (writeMembers l (level + 1) members).length < k →
        readMembers k (writeMembers l (level + 1) members ++ (l.lineBreak level ++ '\x7d' :: rest)) =
          some (members.map fun m => (some m.1, m.2), rest) := fun k hk =>
      readMembers_writeMembers hl hmembers hne hk (hl.lineBreak level) rest
    rw [write_object_of_ne_nil hne, List.cons_append, List.append_assoc, List.append_assoc,
      List.singleton_append, readValue_object _, hread fuel (by omega), Option.map_some,
      ofMembers?_map_some]
    -- a bracket in front would be no member
    intro after hafter
    have hmember := hread (2 * (writeMembers l (level + 1) members).length + 1) (by omega)
    rw [readMembers, hafter] at hmember
    exact nomatch hmember

/-! ### Plain values -/

/-- A value all of whose parts are texts, indices, truth values, null, arrays and objects, the last
two nested at most to a depth. -/
inductive Plain : Nat → Json → Prop
  | null {n : Nat} : Plain n .null
  | bool {n : Nat} (b : Bool) : Plain n (.bool b)
  | index {n : Nat} (i : Index) : Plain n (.index i)
  | string {n : Nat} (s : String) : Plain n (.string s)
  | array {n : Nat} {items : List Json} : (∀ v ∈ items, Plain n v) → Plain (n + 1) (.array items)
  | object {n : Nat} {members : List (String × Json)} : (∀ m ∈ members, Plain n m.2) →
    Plain (n + 1) (.object members)

/-- **A written plain value reads back**, whatever follows it that ends a number. -/
theorem readsBack_of_plain (hl : l.Blank) {n : Nat} {v : Json} (h : v.Plain n) : v.ReadsBack l := by
  induction h with
  | null => exact readsBack_null l
  | bool b => exact readsBack_bool l b
  | index i => exact readsBack_natural l i.toNat
  | string s => exact readsBack_string l s
  | array _ ih => exact readsBack_array hl ih
  | object _ ih => exact readsBack_object hl ih

/-- The text of a plain value is read as this value, up to what follows it. -/
theorem read_write_append (hl : l.Blank) {n : Nat} {v : Json} (h : v.Plain n) (level : Nat)
    {rest : List Char} (hrest : EndsNumber rest) :
    Json.read (String.ofList (v.write l level ++ rest)) = some (v, rest) := by
  rw [Json.read, String.length_ofList, String.toList_ofList, List.length_append]
  exact readsBack_of_plain hl h level _ rest (by omega) hrest

/-- The text of a plain value is read as this value, to the end. -/
theorem read_write (hl : l.Blank) {n : Nat} {v : Json} (h : v.Plain n) (level : Nat) :
    Json.read (String.ofList (v.write l level)) = some (v, []) := by
  have hread := read_write_append hl h level endsNumber_nil
  rwa [List.append_nil] at hread

theorem areReadable_iff {items : List Json} :
    areReadable items = true ↔ ∀ v ∈ items, v.isReadable = true := by
  induction items with
  | nil => simp [areReadable]
  | cons v vs ih => simp [areReadable, ih]

theorem areMembersReadable_iff {members : List (String × Json)} :
    areMembersReadable members = true ↔ ∀ m ∈ members, m.2.isReadable = true := by
  induction members with
  | nil => simp [areMembersReadable]
  | cons m ms ih =>
    obtain ⟨name, v⟩ := m
    simp [areMembersReadable, ih]

/-- Every part of a plain value can be read. -/
theorem isReadable_of_plain {n : Nat} {v : Json} (h : v.Plain n) : v.isReadable = true := by
  induction h with
  | null => rw [isReadable]
  | bool b => rw [isReadable]
  | index i =>
    rw [index, natural, isReadable]
    exact NumberLiteral.isReadable_ofNat_toNat i
  | string s => rw [isReadable]
  | array _ ih =>
    rw [isReadable]
    exact areReadable_iff.2 ih
  | object _ ih =>
    rw [isReadable]
    exact areMembersReadable_iff.2 ih

theorem itemsDepth_le_iff {items : List Json} {n : Nat} :
    itemsDepth items ≤ n ↔ ∀ v ∈ items, v.depth ≤ n := by
  induction items with
  | nil => simp [itemsDepth]
  | cons v vs ih => rw [itemsDepth, Nat.max_le, ih, List.forall_mem_cons]

theorem membersDepth_le_iff {members : List (String × Json)} {n : Nat} :
    membersDepth members ≤ n ↔ ∀ m ∈ members, m.2.depth ≤ n := by
  induction members with
  | nil => simp [membersDepth]
  | cons m ms ih =>
    obtain ⟨name, v⟩ := m
    rw [membersDepth, Nat.max_le, ih, List.forall_mem_cons]

/-- A plain value is not nested more deeply than it is said to be. -/
theorem depth_le_of_plain {n : Nat} {v : Json} (h : v.Plain n) : v.depth ≤ n := by
  induction h with
  | array _ ih =>
    rw [depth]
    exact Nat.succ_le_succ (itemsDepth_le_iff.2 ih)
  | object _ ih =>
    rw [depth]
    exact Nat.succ_le_succ (membersDepth_le_iff.2 ih)
  | _ => exact Nat.zero_le _

end Json

end DoctestSelection
