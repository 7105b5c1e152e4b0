import DoctestSelection.Text.Blank
import Mathlib.Data.List.Forall2

/-!
# Pieces of a text, read in order

Every level of an expression is read in the same way: a text is cut into pieces at a separator, and
the pieces are read from left to right until one of them is refused.  The number of pieces is that
of the separators and one more, and what comes of reading them is either a value for each piece or
the error of the first piece that has one.

## Main results

* `length_splitOn` — how many pieces there are.
* `getLast?_splitOn_eq_some_nil_iff` — when the last piece is empty.
* `splitOn_of_count_eq_one` — the two pieces around a single separator.
* `isInfix_of_mem_splitOn` — a piece stands in the text in one run.
* `mapM_eq_ok_iff`, `mapM_eq_error_iff` — what comes of reading the pieces.
* `mapM_flatMap` — pieces of pieces are read one whole after the other.
-/

namespace DoctestSelection.Text

/-! ### Cutting at a separator -/

section Cutting

variable {α : Type} [BEq α] {a : α} {l : List α}

theorem length_splitOn (a : α) (l : List α) : (l.splitOn a).length = l.count a + 1 := by
  induction l with
  | nil => rfl
  | cons b l ih =>
    rw [List.splitOn_cons_eq_if_modifyHead, List.count_cons]
    split
    · rw [List.length_cons, ih]
    · rw [List.length_modifyHead, ih, Nat.add_zero]

variable [LawfulBEq α]

theorem splitOn_of_count_eq_zero (h : l.count a = 0) : l.splitOn a = [l] :=
  List.splitOn_eq_singleton (List.count_eq_zero.1 h)

/-- The last piece is empty when nothing stands behind the last separator. -/
theorem getLast?_splitOn_eq_some_nil_iff :
    (l.splitOn a).getLast? = some [] ↔ l = [] ∨ l.getLast? = some a := by
  induction l with
  | nil => simp
  | cons b l ih =>
    rw [List.splitOn_cons_eq_if_modifyHead]
    split
    · rename_i hb
      rw [List.getLast?_cons_of_ne_nil (List.splitOn_ne_nil a l), ih]
      cases l <;> simp [beq_iff_eq.1 hb]
    · rename_i hb
      cases l with
      | nil => simpa using hb
      | cons c l =>
        have hlast : (b :: c :: l).getLast? = (c :: l).getLast? := List.getLast?_cons_cons
        rw [or_iff_right (List.cons_ne_nil c l)] at ih
        rw [or_iff_right (List.cons_ne_nil b _), hlast, ← ih]
        cases hsplit : (c :: l).splitOn a with
        | nil => exact absurd hsplit (List.splitOn_ne_nil a _)
        | cons piece pieces =>
          cases pieces with
          | nil =>
            -- without a separator the only piece is the whole text
            have hlen := length_splitOn a (c :: l)
            rw [hsplit, List.length_singleton] at hlen
            have hwhole := splitOn_of_count_eq_zero (a := a) (l := c :: l) (by omega)
            obtain rfl : piece = c :: l := by simpa [hsplit] using hwhole
            simp
          | cons piece' pieces => simp

/-- What stands before the first separator, and what stands behind it. -/
theorem exists_eq_append_cons (h : a ∈ l) :
    l = l.takeWhile (· != a) ++ a :: (l.dropWhile (· != a)).tail := by
  induction l with
  | nil => simp at h
  | cons b l ih =>
    by_cases hb : b = a
    · simp [hb]
    · have hmem : a ∈ l := by simpa [Ne.symm hb] using h
      have hne : (b != a) = true := bne_iff_ne.2 hb
      rw [List.takeWhile_cons, List.dropWhile_cons, if_pos hne, if_pos hne, List.cons_append,
        ← ih hmem]

theorem splitOn_of_count_eq_one (h : l.count a = 1) :
    l.splitOn a = [l.takeWhile (· != a), (l.dropWhile (· != a)).tail] := by
  have hmem : a ∈ l := List.count_pos_iff.1 (by omega)
  have hl := exists_eq_append_cons hmem
  have hfront : a ∉ l.takeWhile (· != a) := by
    intro hmem
    have := List.all_takeWhile (p := (· != a)) (l := l)
    simpa using List.all_eq_true.1 this a hmem
  have hback : a ∉ (l.dropWhile (· != a)).tail := by
    rw [hl, List.count_append, List.count_cons_self, List.count_eq_zero.2 hfront] at h
    exact List.count_eq_zero.1 (by omega)
  conv_lhs => rw [hl]
  rw [List.splitOn_append_cons_self_of_not_mem hfront, List.splitOn_eq_singleton hback]

omit [BEq α] [LawfulBEq α] in
/-- An element of joined pieces is a separator or an element of one of them. -/
theorem mem_intercalate {ls : List (List α)} {b : α} (h : b ∈ [a].intercalate ls) :
    b = a ∨ ∃ l ∈ ls, b ∈ l := by
  induction ls with
  | nil => exact absurd h List.not_mem_nil
  | cons l ls ih =>
    cases ls with
    | nil =>
      rw [List.intercalate_singleton] at h
      exact .inr ⟨l, List.mem_singleton_self l, h⟩
    | cons l' ls =>
      rw [List.intercalate_cons_cons, List.mem_append, List.mem_append, List.mem_singleton] at h
      rcases h with (h | h) | h
      · exact .inr ⟨l, List.mem_cons_self, h⟩
      · exact .inl h
      · obtain hb | ⟨m, hm, hb⟩ := ih h
        · exact .inl hb
        · exact .inr ⟨m, List.mem_cons_of_mem l hm, hb⟩

omit [BEq α] [LawfulBEq α] in
/-- A piece stands in one run in what the pieces are joined to. -/
theorem isInfix_intercalate {ls : List (List α)} {l : List α} (h : l ∈ ls) :
    l <:+: [a].intercalate ls := by
  induction ls with
  | nil => exact absurd h List.not_mem_nil
  | cons m ls ih =>
    cases ls with
    | nil =>
      refine ⟨[], [], ?_⟩
      rw [List.nil_append, List.append_nil, List.intercalate_singleton, List.mem_singleton.1 h]
    | cons m' ls =>
      rw [List.intercalate_cons_cons, List.append_assoc]
      rcases List.mem_cons.1 h with rfl | h
      · exact (List.prefix_append l _).isInfix
      · have hrest : l <:+: [a].intercalate (m' :: ls) := ih h
        exact hrest.trans ((List.suffix_append [a] _).trans (List.suffix_append m _)).isInfix

/-- A piece of a text stands in the text in one run. -/
theorem isInfix_of_mem_splitOn {piece : List α} (h : piece ∈ l.splitOn a) : piece <:+: l := by
  have hinfix : piece <:+: [a].intercalate (l.splitOn a) := isInfix_intercalate h
  rwa [List.intercalate_splitOn] at hinfix

end Cutting

/-! ### Reading piece by piece -/

section Reading

variable {α β ε : Type} {f : α → Except ε β}

theorem ok_bind (a : α) (g : α → Except ε β) : (Except.ok a >>= g) = g a := rfl

theorem error_bind (e : ε) (g : α → Except ε β) : (Except.error e >>= g) = .error e := rfl

theorem mapError_ok {δ : Type} (a : α) (g : ε → δ) :
    (Except.ok a).mapError g = .ok a := rfl

theorem mapError_error {δ : Type} (e : ε) (g : ε → δ) :
    (Except.error e : Except ε α).mapError g = .error (g e) := rfl

/-- Two stages succeed when the first gives what the second succeeds with. -/
theorem bind_eq_ok_iff {x : Except ε α} {g : α → Except ε β} {b : β} :
    x >>= g = .ok b ↔ ∃ a, x = .ok a ∧ g a = .ok b := by
  cases x with
  | error e => exact iff_of_false nofun fun h => nomatch h.choose_spec.1
  | ok a =>
    rw [ok_bind]
    constructor
    · intro h
      exact ⟨a, rfl, h⟩
    · intro h
      obtain ⟨a', ha, hg⟩ := h
      rw [Except.ok.inj ha, hg]

theorem mapError_eq_ok_iff {δ : Type} {x : Except ε α} {g : ε → δ} {a : α} :
    x.mapError g = .ok a ↔ x = .ok a := by
  cases x with
  | error e => exact iff_of_false nofun nofun
  | ok b => rw [mapError_ok, Except.ok.injEq, Except.ok.injEq]

/-- Two stages fail with the error of the first, or with that of the second on what the first
gives. -/
theorem bind_eq_error_iff {x : Except ε α} {g : α → Except ε β} {e : ε} :
    x >>= g = .error e ↔ x = .error e ∨ ∃ a, x = .ok a ∧ g a = .error e := by
  cases x with
  | error e' =>
    rw [error_bind, Except.error.injEq, Except.error.injEq]
    exact ⟨.inl, fun h => h.resolve_right fun hok => nomatch hok.choose_spec.1⟩
  | ok a =>
    rw [ok_bind]
    constructor
    · intro h
      exact .inr ⟨a, rfl, h⟩
    · intro h
      obtain h | ⟨a', ha, hg⟩ := h
      · exact nomatch h
      · rw [Except.ok.inj ha, hg]

theorem mapError_eq_error_iff {δ : Type} {x : Except ε α} {g : ε → δ} {d : δ} :
    x.mapError g = .error d ↔ ∃ e, x = .error e ∧ d = g e := by
  cases x with
  | error e =>
    rw [mapError_error, Except.error.injEq]
    constructor
    · intro h
      exact ⟨e, rfl, h.symm⟩
    · intro h
      obtain ⟨e', he, hd⟩ := h
      rw [hd, Except.error.inj he]
  | ok a => exact iff_of_false nofun fun h => nomatch h.choose_spec.1

theorem mapM_cons_of_ok {a : α} {b : β} (h : f a = .ok b) (l : List α) :
    (a :: l).mapM f = (l.mapM f).map (b :: ·) := by
  rw [List.mapM_cons, h, ok_bind]
  rfl

theorem mapM_cons_of_error {a : α} {e : ε} (h : f a = .error e) (l : List α) :
    (a :: l).mapM f = .error e := by
  rw [List.mapM_cons, h, error_bind]

/-- Reading succeeds when every piece is read, with one value for each. -/
theorem mapM_eq_ok_iff {l : List α} {bs : List β} :
    l.mapM f = .ok bs ↔ List.Forall₂ (fun a b => f a = .ok b) l bs := by
  induction l generalizing bs with
  | nil =>
    rw [List.forall₂_nil_left_iff, List.mapM_nil]
    exact ⟨fun h => (Except.ok.inj h).symm, fun h => h ▸ rfl⟩
  | cons a l ih =>
    rw [List.forall₂_cons_left_iff]
    cases ha : f a with
    | error e =>
      rw [mapM_cons_of_error ha]
      exact iff_of_false nofun fun ⟨b, _, hb, _⟩ => nomatch hb
    | ok b =>
      rw [mapM_cons_of_ok ha]
      simp only [Except.ok.injEq, ← ih]
      cases hl : l.mapM f with
      | error e => exact iff_of_false nofun fun ⟨_, _, _, h, _⟩ => nomatch h
      | ok cs =>
        simp only [Except.map, Except.ok.injEq]
        constructor
        · rintro rfl
          exact ⟨b, cs, rfl, rfl, rfl⟩
        · rintro ⟨_, _, rfl, rfl, rfl⟩
          rfl

/-- There is a value for each piece when each of them is read. -/
theorem exists_forall₂_iff {l : List α} :
    (∃ bs, List.Forall₂ (fun a b => f a = .ok b) l bs) ↔ ∀ a ∈ l, ∃ b, f a = .ok b := by
  induction l with
  | nil => simp
  | cons a l ih =>
    rw [List.forall_mem_cons, ← ih]
    constructor
    · rintro ⟨_, h⟩
      obtain ⟨b, bs, hb, hbs, -⟩ := List.forall₂_cons_left_iff.1 h
      exact ⟨⟨b, hb⟩, bs, hbs⟩
    · rintro ⟨⟨b, hb⟩, bs, hbs⟩
      exact ⟨b :: bs, .cons hb hbs⟩

/-- A value is among those that are read when it is read from some piece. -/
theorem mem_iff_exists_of_forall₂ {l : List α} {bs : List β}
    (h : List.Forall₂ (fun a b => f a = .ok b) l bs) (b : β) :
    b ∈ bs ↔ ∃ a ∈ l, f a = .ok b := by
  induction h with
  | nil => simp
  | @cons a c l bs hac _ ih =>
    have hself : f a = .ok b ↔ b = c := by
      rw [hac, Except.ok.injEq]
      exact eq_comm
    simp only [List.mem_cons, exists_eq_or_imp, hself, ih]

/-- Reading fails with the error of the first piece that has one. -/
theorem mapM_eq_error_iff {l : List α} {e : ε} :
    l.mapM f = .error e ↔
      ∃ before a after, l = before ++ a :: after ∧ (∀ x ∈ before, ∃ b, f x = .ok b) ∧
        f a = .error e := by
  induction l with
  | nil =>
    refine iff_of_false nofun ?_
    rintro ⟨before, a, after, h, -⟩
    exact List.append_ne_nil_of_right_ne_nil before (List.cons_ne_nil a after) h.symm
  | cons a l ih =>
    cases ha : f a with
    | error e' =>
      rw [mapM_cons_of_error ha]
      constructor
      · intro h
        exact ⟨[], a, l, rfl, by simp, ha.trans (congrArg _ (Except.error.inj h))⟩
      · rintro ⟨_ | ⟨x, before⟩, c, after, hl, hbefore, hc⟩
        · obtain ⟨rfl, -⟩ := List.cons.inj hl
          exact congrArg _ (Except.error.inj (ha.symm.trans hc))
        · obtain ⟨rfl, -⟩ := List.cons.inj hl
          obtain ⟨b, hb⟩ := hbefore a (by simp)
          exact nomatch ha.symm.trans hb
    | ok b =>
      rw [mapM_cons_of_ok ha]
      have hmap : (l.mapM f).map (b :: ·) = .error e ↔ l.mapM f = .error e := by
        cases l.mapM f <;> simp [Except.map]
      rw [hmap, ih]
      constructor
      · rintro ⟨before, c, after, rfl, hbefore, hc⟩
        exact ⟨a :: before, c, after, rfl, by simpa [ha] using hbefore, hc⟩
      · rintro ⟨_ | ⟨x, before⟩, c, after, hl, hbefore, hc⟩
        · obtain ⟨rfl, -⟩ := List.cons.inj hl
          exact nomatch ha.symm.trans hc
        · obtain ⟨rfl, rfl⟩ := List.cons.inj hl
          exact ⟨before, c, after, rfl, fun y hy => hbefore y (by simp [hy]), hc⟩

/-- Texts that are cut into pieces can be read one whole text after the other. -/
theorem mapM_flatMap {γ : Type} (g : γ → List α) (l : List γ) :
    (l.flatMap g).mapM f = (l.mapM fun c => (g c).mapM f).map List.flatten := by
  induction l with
  | nil => rfl
  | cons c l ih =>
    rw [List.flatMap_cons, List.mapM_append, ih, List.mapM_cons]
    cases (g c).mapM f with
    | error e => rfl
    | ok bs =>
      rw [ok_bind, ok_bind]
      cases l.mapM fun c => (g c).mapM f <;> rfl

end Reading

end DoctestSelection.Text
