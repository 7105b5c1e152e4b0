import DoctestSelection.Proofs.Text.Pieces
import DoctestSelection.Range.Parser

/-!
# The spelling of ranges

A range is spelled by nothing at all, by a number, or by two bounds around a dash with spaces and
tabs beside it.  A number is a run of digits whose value is an index, and a bound is a number or
nothing.  These rules do not say how a text is read.  The reader takes bounds off the front of a
text, and takes nothing where a number is not there or is too great; what it takes is a bound by
the rules, and from a text that follows the rules it takes all of it.  Text that is trimmed gives
the blanks at its ends no place to hide: they could only stand beside a missing bound.

## Main definitions

* `Index.Spells ds i` — the digits `ds` are a number, which is the index `i`.
* `IndexRange.BoundSpells cs bound` — a bound that may be missing.
* `IndexRange.Spells cs r` — the text `cs` is a range by the rules, which is `r`.

## Main results

* `Index.take?_eq_some_nil_iff` — a number is taken whole from the text that spells it.
* `IndexRange.exists_takeBound` — what is taken off a text is a bound.
* `IndexRange.takeBound_append` — a bound in front of a text is taken.
* `IndexRange.take_eq_iff_spells` — the reader follows the rules on trimmed text.
* `ranges_read_as_spelled` — **exactly the texts that spell a range are read as that range.**
-/

namespace DoctestSelection

open Text

/-! ### Digits -/

section Digits

variable {c : Char}

theorem isBlank_eq_false_of_isDigit (h : c.isDigit = true) : isBlank c = false := by
  -- the digits lie above the space and below every other blank
  have hval : 48 ≤ c.val ∧ c.val ≤ 57 := by simpa [Char.isDigit] using h
  simp only [isBlank, Bool.or_eq_false_iff, Bool.and_eq_false_iff, decide_eq_false_iff_not,
    beq_eq_false_iff_ne, ne_eq, ← UInt32.toNat_inj, UInt32.le_iff_toNat_le] at hval ⊢
  simp only [UInt32.reduceToNat] at hval ⊢
  omega

theorem ne_of_isDigit {d : Char} (h : c.isDigit = true) (hd : d.isDigit = false) : c ≠ d := by
  rintro rfl
  rw [h] at hd
  exact Bool.noConfusion hd

theorem isBlank_eq_false_of_isDigit_or_eq (h : c.isDigit = true ∨ c = '-') : isBlank c = false := by
  rcases h with h | rfl
  · exact isBlank_eq_false_of_isDigit h
  · rfl

end Digits

/-! ### The rules -/

/-- A number is a run of digits, zeros in front allowed, and its value is that of an index. -/
structure Index.Spells (ds : List Char) (i : Index) : Prop where
  ne_nil : ds ≠ []
  isDigit : ∀ c ∈ ds, c.isDigit = true
  value : Nat.ofDigitChars 10 ds 0 = i.toNat

/-- Text of spaces and tabs alone. -/
def BoundBlanks (bs : List Char) : Prop := ∀ c ∈ bs, c = ' ' ∨ c = '\t'

namespace IndexRange

/-- A bound is a number or is missing. -/
inductive BoundSpells : List Char → Option Index → Prop
  | missing : BoundSpells [] none
  | number {ds : List Char} {i : Index} : Index.Spells ds i → BoundSpells ds (some i)

/-- The rules by which trimmed text spells a range. -/
inductive Spells : List Char → IndexRange → Prop
  /-- Nothing is the range of every index. -/
  | nothing : Spells [] all
  /-- A number is the range of that index. -/
  | number {ds : List Char} {i : Index} : Index.Spells ds i → Spells ds (single i)
  /-- Bounds around a dash, where a missing start is zero and a missing end is none. -/
  | bounds {first bs bs' last : List Char} {start stop : Option Index} : BoundSpells first start →
    BoundBlanks bs → BoundBlanks bs' → BoundSpells last stop →
    Spells (first ++ bs ++ '-' :: (bs' ++ last)) ⟨start.getD 0, stop⟩

/-- No blank needs to stand beside the dash. -/
theorem spells_of_bounds {first last : List Char} {start stop : Option Index}
    (hfirst : BoundSpells first start) (hlast : BoundSpells last stop) :
    Spells (first ++ '-' :: last) ⟨start.getD 0, stop⟩ := by
  have hbounds : Spells (first ++ [] ++ '-' :: ([] ++ last)) ⟨start.getD 0, stop⟩ :=
    .bounds hfirst nofun nofun hlast
  rwa [List.append_nil, List.nil_append] at hbounds

end IndexRange

/-! ### Numbers -/

namespace Index

variable {ds : List Char} {i : Index}

theorem ofDigits?_eq_some_iff_spells : ofDigits? ds = some i ↔ Spells ds i := by
  rw [ofDigits?_eq_some_iff]
  exact ⟨fun ⟨hne, hdigit, hvalue⟩ => ⟨hne, hdigit, hvalue⟩,
    fun h => ⟨h.ne_nil, h.isDigit, h.value⟩⟩

theorem ofDigits?_eq_none_iff_not_spells : ofDigits? ds = none ↔ ∀ i, ¬Spells ds i := by
  simp only [Option.eq_none_iff_forall_ne_some, ne_eq, ofDigits?_eq_some_iff_spells]

/-- The digits of an index spell it. -/
theorem spells_digits (i : Index) : Spells i.digits i :=
  ofDigits?_eq_some_iff_spells.1 (ofDigits?_digits i)

/-- A run of digits is a number when its value fits. -/
theorem exists_spells_iff :
    (∃ i, Spells ds i) ↔ ds ≠ [] ∧ (∀ c ∈ ds, c.isDigit = true) ∧
      Nat.ofDigitChars 10 ds 0 ≤ greatest.toNat := by
  constructor
  · rintro ⟨i, h⟩
    have hi : i.toNat < UInt64.size := i.toNat_lt
    have hgreatest : greatest.toNat = UInt64.size - 1 := rfl
    have hvalue := h.value
    exact ⟨h.ne_nil, h.isDigit, by omega⟩
  · rintro ⟨hne, hdigit, hle⟩
    have hgreatest : greatest.toNat = UInt64.size - 1 := rfl
    have hsize : 0 < UInt64.size := by decide
    refine ⟨UInt64.ofNat (Nat.ofDigitChars 10 ds 0), hne, hdigit, ?_⟩
    rw [UInt64.toNat_ofNat_of_lt' (by omega)]

theorem Spells.not_mem {c : Char} (h : Spells ds i) (hc : c.isDigit = false) : c ∉ ds :=
  fun hmem => ne_of_isDigit (h.isDigit c hmem) hc rfl

end Index

/-! ### Blanks beside a bound -/

section Blanks

open IndexRange (isBoundBlank)

theorem isBoundBlank_iff {c : Char} : isBoundBlank c = true ↔ c = ' ' ∨ c = '\t' := by
  simp [isBoundBlank]

theorem isBoundBlank_eq_false_of_isDigit {c : Char} (h : c.isDigit = true) :
    isBoundBlank c = false := by
  have hspace : c ≠ ' ' := ne_of_isDigit h rfl
  have htab : c ≠ '\t' := ne_of_isDigit h rfl
  simp [isBoundBlank, hspace, htab]

variable {bs : List Char}

theorem BoundBlanks.isBoundBlank (h : BoundBlanks bs) : ∀ c ∈ bs, isBoundBlank c = true :=
  fun c hc => isBoundBlank_iff.2 (h c hc)

theorem BoundBlanks.isBlank (h : BoundBlanks bs) : ∀ c ∈ bs, isBlank c = true := by
  intro c hc
  rcases h c hc with rfl | rfl
  · rfl
  · rfl

theorem boundBlanks_takeWhile (cs : List Char) : BoundBlanks (cs.takeWhile isBoundBlank) :=
  fun c hc => isBoundBlank_iff.1 (List.all_eq_true.1 List.all_takeWhile c hc)

end Blanks

/-! ### Taking a number -/

/-- Nothing at the front of the text belongs to a number before it. -/
def EndsBound (rest : List Char) : Prop :=
  ∀ c, rest.head? = some c → c.isDigit = false ∧ IndexRange.isBoundBlank c = false

theorem endsBound_nil : EndsBound [] := nofun

theorem endsBound_dash (cs : List Char) : EndsBound ('-' :: cs) := by
  intro c hc
  obtain rfl : '-' = c := Option.some.inj hc
  exact ⟨rfl, rfl⟩

namespace Index

open IndexRange (isBoundBlank)

variable {cs rest : List Char} {i : Index}

/-- What is taken is a number with blanks around it. -/
theorem exists_of_take?_eq_some (h : take? cs = some (i, rest)) :
    ∃ bs ds bs', cs = bs ++ (ds ++ (bs' ++ rest)) ∧ BoundBlanks bs ∧ Spells ds i ∧
      BoundBlanks bs' := by
  unfold take? at h
  obtain ⟨j, hj, he⟩ := Option.map_eq_some_iff.1 h
  obtain ⟨rfl, rfl⟩ := Prod.mk.inj he
  refine ⟨cs.takeWhile isBoundBlank, (cs.dropWhile isBoundBlank).takeWhile Char.isDigit,
    ((cs.dropWhile isBoundBlank).dropWhile Char.isDigit).takeWhile isBoundBlank, ?_,
    boundBlanks_takeWhile cs, ofDigits?_eq_some_iff_spells.1 hj, boundBlanks_takeWhile _⟩
  rw [List.takeWhile_append_dropWhile, List.takeWhile_append_dropWhile,
    List.takeWhile_append_dropWhile]

/-- A number in front of a text is taken, together with the blanks around it. -/
theorem take?_append {bs ds bs' : List Char} (hbs : BoundBlanks bs) (hds : Spells ds i)
    (hbs' : BoundBlanks bs') (hrest : EndsBound rest) :
    take? (bs ++ (ds ++ (bs' ++ rest))) = some (i, rest) := by
  have hunread : (bs ++ (ds ++ (bs' ++ rest))).dropWhile isBoundBlank = ds ++ (bs' ++ rest) := by
    rw [List.dropWhile_append_of_pos hbs.isBoundBlank, dropWhile_eq_self_iff]
    intro c hc
    rw [List.head?_append_of_ne_nil _ hds.ne_nil] at hc
    exact isBoundBlank_eq_false_of_isDigit (hds.isDigit c (List.mem_of_mem_head? hc))
  have hnext : ∀ c, (bs' ++ rest).head? = some c → c.isDigit = false := by
    intro c hc
    cases bs' with
    | nil => exact (hrest c hc).1
    | cons b bs' =>
      obtain rfl : b = c := Option.some.inj hc
      rcases hbs' b List.mem_cons_self with rfl | rfl
      · rfl
      · rfl
  have htake : (ds ++ (bs' ++ rest)).takeWhile Char.isDigit = ds := by
    rw [List.takeWhile_append_of_pos hds.isDigit, takeWhile_eq_nil_of_head? hnext, List.append_nil]
  have hdrop : (ds ++ (bs' ++ rest)).dropWhile Char.isDigit = bs' ++ rest := by
    rw [List.dropWhile_append_of_pos hds.isDigit, dropWhile_eq_self_iff.2 hnext]
  have hblank : (bs' ++ rest).dropWhile isBoundBlank = rest := by
    rw [List.dropWhile_append_of_pos hbs'.isBoundBlank,
      dropWhile_eq_self_iff.2 fun c hc => (hrest c hc).2]
  unfold take?
  dsimp only
  rw [hunread, htake, hdrop, hblank, ofDigits?_eq_some_iff_spells.2 hds]
  rfl

/-- No number is taken where there is no digit. -/
theorem take?_eq_none (h : EndsBound rest) : take? rest = none := by
  unfold take?
  dsimp only
  rw [dropWhile_eq_self_iff.2 fun c hc => (h c hc).2,
    takeWhile_eq_nil_of_head? fun c hc => (h c hc).1]
  rfl

end Index

/-! ### Reading a number -/

theorem trimList_toList_trim (text : String) :
    trimList (trim text).toList = (trim text).toList := by
  rw [toList_trim, trimList_trimList]

namespace Index

variable {text : String} {i : Index}

/-- From trimmed text a number is taken whole exactly if the text is that number: blanks around it
would be a part of the text. -/
theorem take?_eq_some_nil_iff {cs : List Char} (htrim : trimList cs = cs) :
    take? cs = some (i, []) ↔ Spells cs i := by
  constructor
  · intro h
    obtain ⟨bs, ds, bs', hcs, hbs, hds, hbs'⟩ := exists_of_take?_eq_some h
    rw [List.append_nil] at hcs
    obtain rfl : bs = [] := eq_nil_of_trimList_append (hcs ▸ htrim) hbs.isBlank
    rw [List.nil_append] at hcs
    obtain rfl : bs' = [] := eq_nil_of_trimList_append_right (hcs ▸ htrim) hbs'.isBlank
    rwa [hcs, List.append_nil]
  · intro h
    have htake : take? ([] ++ (cs ++ ([] ++ []))) = some (i, []) :=
      take?_append nofun h nofun endsBound_nil
    rwa [List.nil_append, List.append_nil, List.append_nil] at htake

theorem parse_of_spells (h : Spells (trim text).toList i) : parse text = .ok i := by
  rw [parse, ← toList_trim, (take?_eq_some_nil_iff (trimList_toList_trim text)).2 h]

theorem parse_of_not_spells (h : ∀ i, ¬Spells (trim text).toList i) :
    parse text = .error (.invalidNumber (trim text)) := by
  rw [parse, ← toList_trim]
  rcases htake : take? (trim text).toList with _ | ⟨i, _ | ⟨c, rest⟩⟩
  · rfl
  · exact absurd ((take?_eq_some_nil_iff (trimList_toList_trim text)).1 htake) (h i)
  · rfl

end Index

/-! ### Taking a bound -/

namespace IndexRange

variable {cs rest : List Char}

/-- What is taken off a text is a bound, with blanks around it only if it is not missing. -/
theorem exists_takeBound (cs : List Char) :
    ∃ bs part bs', cs = bs ++ (part ++ (bs' ++ (takeBound cs).2)) ∧ BoundBlanks bs ∧
      BoundSpells part (takeBound cs).1 ∧ BoundBlanks bs' ∧ (part = [] → bs = [] ∧ bs' = []) := by
  unfold takeBound
  cases h : Index.take? cs with
  | none => exact ⟨[], [], [], rfl, nofun, .missing, nofun, fun _ => ⟨rfl, rfl⟩⟩
  | some taken =>
    obtain ⟨i, rest⟩ := taken
    obtain ⟨bs, ds, bs', hcs, hbs, hds, hbs'⟩ := Index.exists_of_take?_eq_some h
    exact ⟨bs, ds, bs', hcs, hbs, .number hds, hbs', fun hnil => absurd hnil hds.ne_nil⟩

/-- A bound in front of a text is taken, blanks and all, if blanks stand around it only where it is
not missing. -/
theorem takeBound_append {bs part bs' : List Char} {bound : Option Index} (hbs : BoundBlanks bs)
    (hpart : BoundSpells part bound) (hbs' : BoundBlanks bs')
    (hmissing : part = [] → bs = [] ∧ bs' = []) (hrest : EndsBound rest) :
    takeBound (bs ++ (part ++ (bs' ++ rest))) = (bound, rest) := by
  unfold takeBound
  cases hpart with
  | missing =>
    obtain ⟨rfl, rfl⟩ := hmissing rfl
    rw [List.nil_append, List.nil_append, List.nil_append, Index.take?_eq_none hrest]
  | number hds => rw [Index.take?_append hbs hds hbs' hrest]

end IndexRange

/-! ### Taking a range -/

namespace IndexRange

variable {cs rest : List Char} {r : IndexRange}

theorem take_of_dash {start : Option Index} (h : takeBound cs = (start, '-' :: rest)) :
    take cs = (⟨start.getD 0, (takeBound rest).1⟩, (takeBound rest).2) := by
  unfold take takeBounds?
  rw [h]
  rfl

theorem take_of_not_dash {bound : Option Index} (h : takeBound cs = (bound, rest))
    (hdash : rest.head? ≠ some '-') : take cs = (bound.elim all single, rest) := by
  unfold take takeBounds?
  rw [h]
  cases rest with
  | nil => rfl
  | cons c rest =>
    have hc : c ≠ '-' := fun he => hdash (congrArg some he)
    simp [hc]

/-- From trimmed text that spells a range the reader takes all of it. -/
theorem Spells.take_eq (h : Spells cs r) (htrim : trimList cs = cs) : take cs = (r, []) := by
  cases h with
  | nothing => rfl
  | number hds =>
    have htake : takeBound ([] ++ (cs ++ ([] ++ []))) = (some _, []) :=
      takeBound_append nofun (.number hds) nofun (fun _ => ⟨rfl, rfl⟩) endsBound_nil
    rw [List.nil_append, List.nil_append, List.append_nil] at htake
    rw [take_of_not_dash htake nofun]
    rfl
  | @bounds first bs bs' last start stop hfirst hbs hbs' hlast =>
    -- beside a missing bound the blanks would be at an end of the text
    have hleft : first = [] → bs = [] := by
      rintro rfl
      rw [List.nil_append] at htrim
      exact eq_nil_of_trimList_append htrim hbs.isBlank
    have hright : last = [] → bs' = [] := by
      rintro rfl
      rw [List.append_nil, List.append_cons] at htrim
      exact eq_nil_of_trimList_append_right htrim hbs'.isBlank
    have hstart :
        takeBound (first ++ bs ++ '-' :: (bs' ++ last)) = (start, '-' :: (bs' ++ last)) := by
      rw [List.append_assoc, ← List.nil_append (first ++ _)]
      exact takeBound_append nofun hfirst hbs (fun hnil => ⟨rfl, hleft hnil⟩)
        (endsBound_dash (bs' ++ last))
    have hstop : takeBound (bs' ++ last) = (stop, []) := by
      have htake : takeBound (bs' ++ (last ++ ([] ++ []))) = (stop, []) :=
        takeBound_append hbs' hlast nofun (fun hnil => ⟨hright hnil, rfl⟩) endsBound_nil
      rwa [List.append_nil, List.append_nil] at htake
    rw [take_of_dash hstart, hstop]

/-- Trimmed text of which the reader leaves nothing spells what is taken. -/
theorem spells_of_take_eq (h : take cs = (r, [])) (htrim : trimList cs = cs) : Spells cs r := by
  obtain ⟨bs, part, bs', hcs, hbs, hpart, hbs', -⟩ := exists_takeBound cs
  rcases hbound : takeBound cs with ⟨bound, left⟩
  rw [hbound] at hcs hpart
  obtain rfl : bs = [] := eq_nil_of_trimList_append (hcs ▸ htrim) hbs.isBlank
  rw [List.nil_append] at hcs
  by_cases hdash : left.head? = some '-'
  · -- what is left behind the dash is another bound, and then nothing
    obtain ⟨rest, rfl⟩ := List.head?_eq_some_iff.1 hdash
    obtain ⟨front, last, back, hrest, hfront, hlast, hback, -⟩ := exists_takeBound rest
    rw [take_of_dash hbound] at h
    obtain ⟨rfl, hleft⟩ := Prod.mk.inj h
    rw [hleft, List.append_nil] at hrest
    have hwhole : cs = part ++ bs' ++ '-' :: (front ++ last) ++ back := by
      rw [hcs, hrest]
      simp only [List.append_assoc, List.cons_append]
    obtain rfl : back = [] := eq_nil_of_trimList_append_right (hwhole ▸ htrim) hback.isBlank
    rw [hwhole, List.append_nil]
    exact .bounds hpart hbs' hfront hlast
  · rw [take_of_not_dash hbound hdash] at h
    obtain ⟨rfl, rfl⟩ := Prod.mk.inj h
    rw [List.append_nil] at hcs
    obtain rfl : bs' = [] := eq_nil_of_trimList_append_right (hcs ▸ htrim) hbs'.isBlank
    rw [hcs, List.append_nil]
    cases hpart with
    | missing => exact .nothing
    | number hds => exact .number hds

/-- On trimmed text the reader follows the rules. -/
theorem take_eq_iff_spells (htrim : trimList cs = cs) : take cs = (r, []) ↔ Spells cs r :=
  ⟨fun h => spells_of_take_eq h htrim, fun h => h.take_eq htrim⟩

/-! ### Reading a range -/

theorem BoundSpells.dash_not_mem {part : List Char} {bound : Option Index}
    (h : BoundSpells part bound) : '-' ∉ part := by
  cases h with
  | missing => exact List.not_mem_nil
  | number hds => exact hds.not_mem rfl

theorem Spells.count_dash_lt (h : Spells cs r) : cs.count '-' < 2 := by
  have hblank : ∀ {bs : List Char}, BoundBlanks bs → '-' ∉ bs := by
    intro bs hbs hmem
    rcases hbs '-' hmem with he | he
    · exact absurd he (by decide)
    · exact absurd he (by decide)
  cases h with
  | nothing => exact Nat.zero_lt_two
  | number hds =>
    rw [List.count_eq_zero.2 (hds.not_mem rfl)]
    exact Nat.zero_lt_two
  | bounds hfirst hbs hbs' hlast =>
    rw [List.count_append, List.count_append, List.count_cons_self, List.count_append,
      List.count_eq_zero.2 hfirst.dash_not_mem, List.count_eq_zero.2 (hblank hbs),
      List.count_eq_zero.2 (hblank hbs'), List.count_eq_zero.2 hlast.dash_not_mem]
    exact Nat.one_lt_two

/-- The number of dashes in a range. -/
def dashes (text : String) : Nat := (trim text).toList.count '-'

theorem parse_eq_parseTrimmed (text : String) : parse text = parseTrimmed (trim text).toList := by
  rw [toList_trim]
  rfl

variable {text : String}

theorem parse_of_two_le_dashes (h : 2 ≤ dashes text) :
    parse text = .error (.tooManyDashes (trim text)) := by
  unfold dashes at h
  rw [parse_eq_parseTrimmed, parseTrimmed, if_pos h, String.ofList_toList]

theorem parse_of_spells (h : Spells (trim text).toList r) : parse text = .ok r := by
  rw [parse_eq_parseTrimmed, parseTrimmed, if_neg (Nat.not_le.2 h.count_dash_lt),
    (take_eq_iff_spells (trimList_toList_trim text)).2 h]

/-- What is left of a text that does not spell a range is an error, however much was taken. -/
theorem parse_of_not_spells (hdashes : dashes text < 2)
    (h : ∀ r, ¬Spells (trim text).toList r) :
    parse text = .error (.invalidNumber (String.ofList (blamed (trim text).toList))) := by
  unfold dashes at hdashes
  rw [parse_eq_parseTrimmed, parseTrimmed, if_neg (Nat.not_le.2 hdashes)]
  rcases htake : take (trim text).toList with ⟨r, _ | ⟨c, rest⟩⟩
  · exact absurd ((take_eq_iff_spells (trimList_toList_trim text)).1 htake) (h r)
  · rfl

/-- Every text is read in one of three ways. -/
theorem parse_cases (text : String) :
    (2 ≤ dashes text ∧ parse text = .error (.tooManyDashes (trim text))) ∨
      (∃ r, Spells (trim text).toList r ∧ parse text = .ok r) ∨
      (dashes text < 2 ∧ (∀ r, ¬Spells (trim text).toList r) ∧
        parse text = .error (.invalidNumber (String.ofList (blamed (trim text).toList)))) := by
  rcases Nat.lt_or_ge (dashes text) 2 with hdashes | hdashes
  · by_cases h : ∃ r, Spells (trim text).toList r
    · obtain ⟨r, hr⟩ := h
      exact .inr (.inl ⟨r, hr, parse_of_spells hr⟩)
    · have hnot : ∀ r, ¬Spells (trim text).toList r := not_exists.1 h
      exact .inr (.inr ⟨hdashes, hnot, parse_of_not_spells hdashes hnot⟩)
  · exact .inl ⟨hdashes, parse_of_two_le_dashes hdashes⟩

theorem parse_eq_ok_iff_spells : parse text = .ok r ↔ Spells (trim text).toList r := by
  refine ⟨fun h => ?_, parse_of_spells⟩
  rcases parse_cases text with ⟨-, herror⟩ | ⟨s, hs, hok⟩ | ⟨-, -, herror⟩
  · exact nomatch h.symm.trans herror
  · obtain rfl : r = s := Except.ok.inj (h.symm.trans hok)
    exact hs
  · exact nomatch h.symm.trans herror

/-- Text without blanks is read as what it spells. -/
theorem parse_ofList_of_spells (h : Spells cs r) (hblank : ∀ c ∈ cs, isBlank c = false) :
    parse (String.ofList cs) = .ok r := by
  have htrim : trimList cs = cs := strip_eq_self_of_forall hblank
  apply parse_of_spells
  rwa [toList_trim, String.toList_ofList, htrim]

theorem parse_eq_tooManyDashes_iff :
    parse text = .error (.tooManyDashes (trim text)) ↔ 2 ≤ dashes text := by
  refine ⟨fun h => ?_, parse_of_two_le_dashes⟩
  rcases parse_cases text with ⟨hdashes, -⟩ | ⟨r, -, hok⟩ | ⟨-, -, herror⟩
  · exact hdashes
  · exact nomatch h.symm.trans hok
  · exact nomatch h.symm.trans herror

theorem parse_eq_invalidNumber_iff {b : String} :
    parse text = .error (.invalidNumber b) ↔
      dashes text < 2 ∧ (∀ r, ¬Spells (trim text).toList r) ∧
        b = String.ofList (blamed (trim text).toList) := by
  constructor
  · intro h
    rcases parse_cases text with ⟨-, herror⟩ | ⟨r, -, hok⟩ | ⟨hdashes, hnot, herror⟩
    · exact nomatch h.symm.trans herror
    · exact nomatch h.symm.trans hok
    · exact ⟨hdashes, hnot, FilterError.invalidNumber.inj (Except.error.inj (h.symm.trans herror))⟩
  · rintro ⟨hdashes, hnot, rfl⟩
    exact parse_of_not_spells hdashes hnot

end IndexRange

/-- **Exactly the texts that spell a range are read as that range.**  A second dash is an error of
its own, whatever else is wrong; every other text that does not spell a range has a bad number.  The
numbers are the runs of digits whose value is at most that of the greatest index, so no value is
wrapped, capped or cut short. -/
theorem ranges_read_as_spelled :
    (∀ text : String,
      (IndexRange.parse text = .error (.tooManyDashes (trim text)) ↔
        2 ≤ (trim text).toList.count '-') ∧
      (∀ r, IndexRange.parse text = .ok r ↔ IndexRange.Spells (trim text).toList r) ∧
      ((∃ blamed, IndexRange.parse text = .error (.invalidNumber blamed)) ↔
        (trim text).toList.count '-' < 2 ∧ ∀ r, ¬IndexRange.Spells (trim text).toList r)) ∧
    ∀ ds : List Char, (∃ i, Index.Spells ds i) ↔
      ds ≠ [] ∧ (∀ c ∈ ds, '0' ≤ c ∧ c ≤ '9') ∧
        Nat.ofDigitChars 10 ds 0 ≤ 18446744073709551615 := by
  refine ⟨fun text => ⟨IndexRange.parse_eq_tooManyDashes_iff,
    fun r => IndexRange.parse_eq_ok_iff_spells, ?_⟩, fun ds => ?_⟩
  · constructor
    · rintro ⟨b, h⟩
      obtain ⟨hdashes, hnot, -⟩ := IndexRange.parse_eq_invalidNumber_iff.1 h
      exact ⟨hdashes, hnot⟩
    · rintro ⟨hdashes, hnot⟩
      exact ⟨_, IndexRange.parse_of_not_spells hdashes hnot⟩
  · rw [Index.exists_spells_iff]
    simp only [Char.isDigit, Bool.and_eq_true, decide_eq_true_eq]
    rfl

/-- Zeros in front do not count, and a range may be reversed. -/
example : IndexRange.parse "\u00a0007 -\t5\n" = .ok ⟨7, some 5⟩ := by decide

/-- A start that is too great counts as missing, and is then what is left. -/
example : IndexRange.parse "18446744073709551616-5" =
    .error (.invalidNumber "18446744073709551616") := by decide

end DoctestSelection
