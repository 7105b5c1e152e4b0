import DoctestSelection.Settings
import Mathlib.Logic.Basic

/-!
# Merging values of several layers

Of two values the one of the higher layer is kept, and of two values of one layer the later one.  So
a list of values is merged into the last one of those that come from the highest layer in it.  Which
value that is can be told without merging any: nothing before it comes from a higher layer, and
everything after it comes from a lower one.  Such a value prevails at its place.

When two lists are put together, the values that they are merged into are merged.  Every way of
merging is made of this one step, whether the values are merged from left to right or are put in
brackets otherwise, so the brackets do not matter.  The order matters within a layer only.  A value
that does not prevail at its place can be left out; of two neighbours of different layers the one of
the lower layer can, on either side of the other, so these may change places.

## Main definitions

* `Layered.Prevails before v after`, `Layered.LastOfHighest values winner` — the last value of the
  highest layer.
* `Layered.mergeAll?` — the values of a list merged from left to right.
* `Bracketing`, `Bracketing.values`, `Bracketing.merged` — the ways to put a list in brackets.

## Main results

* `Layered.LastOfHighest.append` — what two lists together are merged into.
* `Layered.mergeAll?_eq_some_iff` — **a list is merged into the last value of its highest layer.**
* `Layered.mergeAll?_swap_ne_iff` — when it makes a difference to swap two neighbours.
* `merging_picks_last_of_highest_layer` — these together, **and the same value for all brackets.**
-/

namespace DoctestSelection

theorem Layer.eq_of_rank_eq {l l' : Layer} (h : l.rank = l'.rank) : l = l' := by
  cases l <;> cases l' <;> simp_all [rank]

/-- An element of two lists put together stands in the second one or in the first one. -/
theorem append_eq_append_cons_cases {β : Type} {first second before after : List β} {x : β}
    (h : first ++ second = before ++ x :: after) :
    (∃ between, before = first ++ between ∧ second = between ++ x :: after) ∨
      ∃ between, first = before ++ x :: between ∧ after = between ++ second := by
  rcases List.append_eq_append_iff.1 h with ⟨between, hbefore, hsecond⟩ | ⟨between, hfirst, hrest⟩
  · exact .inl ⟨between, hbefore, hsecond⟩
  · cases between with
    | nil =>
      rw [List.append_nil] at hfirst
      exact .inl ⟨[], by rw [hfirst, List.append_nil], hrest.symm⟩
    | cons y between =>
      obtain ⟨rfl, rfl⟩ := List.cons.inj hrest
      exact .inr ⟨between, hfirst, rfl⟩

namespace Layered

variable {α : Type} {a b v winner winner' : Layered α}
  {values values' before after : List (Layered α)}

/-! ### Two values -/

theorem ne_iff_value_ne (h : a.layer = b.layer) : a ≠ b ↔ a.value ≠ b.value := by
  obtain ⟨x, l⟩ := a
  obtain ⟨y, m⟩ := b
  rw [ne_eq, mk.injEq, and_iff_left h]

theorem merge_of_le (h : a.layer.rank ≤ b.layer.rank) : a.merge b = b := if_pos h

theorem merge_of_lt (h : b.layer.rank < a.layer.rank) : a.merge b = a :=
  if_neg (Nat.not_le.2 h)

theorem merge_self (a : Layered α) : a.merge a = a := merge_of_le (Nat.le_refl _)

/-! ### The last value of the highest layer -/

/-- A value prevails at its place between other values: those before it come from no higher layer,
and those after it from lower ones. -/
structure Prevails (before : List (Layered α)) (v : Layered α) (after : List (Layered α)) :
    Prop where
  le_of_before : ∀ u ∈ before, u.layer.rank ≤ v.layer.rank
  lt_of_after : ∀ u ∈ after, u.layer.rank < v.layer.rank

theorem prevails_alone (v : Layered α) : Prevails [] v [] := ⟨nofun, nofun⟩

theorem prevails_iff :
    Prevails before v after ↔
      (∀ u ∈ before, u.layer.rank ≤ v.layer.rank) ∧ ∀ u ∈ after, u.layer.rank < v.layer.rank :=
  ⟨fun h => ⟨h.le_of_before, h.lt_of_after⟩, fun h => ⟨h.1, h.2⟩⟩

theorem not_prevails_iff :
    ¬ Prevails before v after ↔
      (∃ u ∈ before, v.layer.rank < u.layer.rank) ∨ ∃ u ∈ after, v.layer.rank ≤ u.layer.rank := by
  rw [prevails_iff, not_and_or]
  simp only [not_forall, exists_prop, Nat.not_le, Nat.not_lt]

/-- Whether a value prevails depends on its layer alone. -/
theorem Prevails.congr (h : Prevails before a after) (hlayer : a.layer = b.layer) :
    Prevails before b after :=
  ⟨hlayer ▸ h.le_of_before, hlayer ▸ h.lt_of_after⟩

/-- Where one value prevails, no later one does: it would be of a lower layer than the first. -/
theorem Prevails.not_prevails_later {between : List (Layered α)}
    (h : Prevails before a (between ++ b :: after)) :
    ¬ Prevails (before ++ a :: between) b after := by
  have hlt : b.layer.rank < a.layer.rank :=
    h.lt_of_after b (List.mem_append_right _ List.mem_cons_self)
  exact not_prevails_iff.2 (.inl ⟨a, List.mem_append_right _ List.mem_cons_self, hlt⟩)

/-- The last value of a list among those of the highest layer in it. -/
def LastOfHighest (values : List (Layered α)) (winner : Layered α) : Prop :=
  ∃ before after, values = before ++ winner :: after ∧ Prevails before winner after

namespace LastOfHighest

theorem singleton (v : Layered α) : LastOfHighest [v] v := ⟨[], [], rfl, prevails_alone v⟩

theorem rank_le (h : LastOfHighest values winner) :
    ∀ u ∈ values, u.layer.rank ≤ winner.layer.rank := by
  obtain ⟨before, after, rfl, hprevails⟩ := h
  refine List.forall_mem_append.2 ⟨hprevails.le_of_before, List.forall_mem_cons.2 ⟨?_, ?_⟩⟩
  · exact Nat.le_refl _
  · exact fun u hu => Nat.le_of_lt (hprevails.lt_of_after u hu)

/-- The step that all merging is made of: the last values of the highest layer of two lists are
merged into that of both lists together. -/
theorem append (h : LastOfHighest values winner) (h' : LastOfHighest values' winner') :
    LastOfHighest (values ++ values') (winner.merge winner') := by
  rcases Nat.lt_or_ge winner'.layer.rank winner.layer.rank with hlt | hle
  · rw [merge_of_lt hlt]
    have hlower : ∀ u ∈ values', u.layer.rank < winner.layer.rank :=
      fun u hu => Nat.lt_of_le_of_lt (h'.rank_le u hu) hlt
    obtain ⟨before, after, rfl, hbefore, hafter⟩ := h
    exact ⟨before, after ++ values', by simp, hbefore, List.forall_mem_append.2 ⟨hafter, hlower⟩⟩
  · rw [merge_of_le hle]
    have hnohigher : ∀ u ∈ values, u.layer.rank ≤ winner'.layer.rank :=
      fun u hu => Nat.le_trans (h.rank_le u hu) hle
    obtain ⟨before, after, rfl, hbefore, hafter⟩ := h'
    exact ⟨values ++ before, after, by simp, List.forall_mem_append.2 ⟨hnohigher, hbefore⟩, hafter⟩

theorem unique (h : LastOfHighest values winner) (h' : LastOfHighest values winner') :
    winner = winner' := by
  obtain ⟨before, after, rfl, hprevails⟩ := h
  obtain ⟨before', after', hplace, hprevails'⟩ := h'
  rcases append_eq_append_cons_cases hplace with ⟨between, rfl, hrest⟩ | ⟨between, rfl, rfl⟩
  · cases between with
    | nil => exact (List.cons.inj hrest).1
    | cons u between =>
      obtain ⟨rfl, rfl⟩ := List.cons.inj hrest
      exact absurd hprevails' hprevails.not_prevails_later
  · exact absurd hprevails hprevails'.not_prevails_later

/-- A value that does not prevail at its place changes nothing. -/
theorem insert (h : LastOfHighest (before ++ after) winner) (hnot : ¬ Prevails before v after) :
    LastOfHighest (before ++ v :: after) winner := by
  obtain ⟨hfirst, hsecond⟩ := List.forall_mem_append.1 h.rank_le
  obtain ⟨earlier, later, hplace, hearlier, hlater⟩ := h
  -- the winner may be of the layer of the new value if it stands behind it, but not before it
  rcases append_eq_append_cons_cases hplace with ⟨between, rfl, rfl⟩ | ⟨between, rfl, rfl⟩
  · have hle : v.layer.rank ≤ winner.layer.rank := by
      rcases not_prevails_iff.1 hnot with ⟨u, hu, hlt⟩ | ⟨u, hu, hle⟩
      · exact Nat.le_trans (Nat.le_of_lt hlt) (hfirst u hu)
      · exact Nat.le_trans hle (hsecond u hu)
    obtain ⟨hbefore, hbetween⟩ := List.forall_mem_append.1 hearlier
    exact ⟨before ++ v :: between, later, by simp,
      List.forall_mem_append.2 ⟨hbefore, List.forall_mem_cons.2 ⟨hle, hbetween⟩⟩, hlater⟩
  · obtain ⟨hbetween, hafter⟩ := List.forall_mem_append.1 hlater
    have hlt : v.layer.rank < winner.layer.rank := by
      rcases not_prevails_iff.1 hnot with ⟨u, hu, hlt⟩ | ⟨u, hu, hle⟩
      · exact Nat.lt_of_lt_of_le hlt (hfirst u hu)
      · exact Nat.lt_of_le_of_lt hle (hafter u hu)
    exact ⟨earlier, between ++ v :: after, by simp, hearlier,
      List.forall_mem_append.2 ⟨hbetween, List.forall_mem_cons.2 ⟨hlt, hafter⟩⟩⟩

end LastOfHighest

/-- With either brackets, three values are merged into the last one of their highest layer. -/
theorem merge_assoc (a b c : Layered α) : (a.merge b).merge c = a.merge (b.merge c) := by
  have hleft : LastOfHighest [a, b, c] ((a.merge b).merge c) :=
    ((LastOfHighest.singleton a).append (.singleton b)).append (.singleton c)
  have hright : LastOfHighest [a, b, c] (a.merge (b.merge c)) :=
    (LastOfHighest.singleton a).append ((LastOfHighest.singleton b).append (.singleton c))
  exact hleft.unique hright

/-! ### Whole lists -/

/-- The values of a list merged from left to right, if there are any. -/
def mergeAll? : List (Layered α) → Option (Layered α)
  | [] => none
  | first :: rest => some (rest.foldl merge first)

theorem mergeAll?_eq_none_iff : mergeAll? values = none ↔ values = [] := by
  cases values with
  | nil => exact iff_of_true rfl rfl
  | cons first rest => exact iff_of_false nofun nofun

/-- What has been merged so far is the last value of the highest layer so far. -/
theorem lastOfHighest_foldl (h : LastOfHighest values winner) (rest : List (Layered α)) :
    LastOfHighest (values ++ rest) (rest.foldl merge winner) := by
  induction rest generalizing values winner with
  | nil => rwa [List.append_nil]
  | cons v rest ih =>
    rw [List.append_cons]
    exact ih (h.append (.singleton v))

/-- **A list is merged into the last value of its highest layer.** -/
theorem mergeAll?_eq_some_iff : mergeAll? values = some winner ↔ LastOfHighest values winner := by
  cases values with
  | nil =>
    refine iff_of_false nofun ?_
    rintro ⟨before, after, hnil, -⟩
    exact absurd hnil.symm (List.append_ne_nil_of_right_ne_nil before (List.cons_ne_nil _ after))
  | cons first rest =>
    have hfold : LastOfHighest (first :: rest) (rest.foldl merge first) :=
      lastOfHighest_foldl (.singleton first) rest
    show some (rest.foldl merge first) = some winner ↔ _
    rw [Option.some.injEq]
    constructor
    · rintro rfl
      exact hfold
    · exact hfold.unique

/-- Of two flags the later one counts, and not what comes from below after it. -/
example :
    mergeAll? [⟨1, .environment⟩, ⟨2, .flag⟩, ⟨3, .default⟩, ⟨4, .flag⟩, ⟨5, .environment⟩] =
      some ⟨4, .flag⟩ := by
  rfl

theorem mergeAll?_of_prevails (h : Prevails before v after) :
    mergeAll? (before ++ v :: after) = some v :=
  mergeAll?_eq_some_iff.2 ⟨before, after, rfl, h⟩

theorem mergeAll?_of_not_prevails (h : ¬ Prevails before v after) :
    mergeAll? (before ++ v :: after) = mergeAll? (before ++ after) := by
  cases hrest : mergeAll? (before ++ after) with
  | none =>
    obtain ⟨rfl, rfl⟩ := List.append_eq_nil_iff.1 (mergeAll?_eq_none_iff.1 hrest)
    exact absurd (prevails_alone v) h
  | some winner => exact mergeAll?_eq_some_iff.2 ((mergeAll?_eq_some_iff.1 hrest).insert h)

/-! ### Neighbours -/

/-- A value of no higher layer than the next one can be left out. -/
theorem mergeAll?_of_le_next (h : a.layer.rank ≤ b.layer.rank) :
    mergeAll? (before ++ a :: b :: after) = mergeAll? (before ++ b :: after) :=
  mergeAll?_of_not_prevails (not_prevails_iff.2 (.inr ⟨b, List.mem_cons_self, h⟩))

/-- A value of a lower layer than the one before it can be left out. -/
theorem mergeAll?_of_lt_previous (h : b.layer.rank < a.layer.rank) :
    mergeAll? (before ++ a :: b :: after) = mergeAll? (before ++ a :: after) := by
  have hnot : ¬ Prevails (before ++ [a]) b after :=
    not_prevails_iff.2 (.inl ⟨a, List.mem_append_right _ List.mem_cons_self, h⟩)
  rw [List.append_cons, mergeAll?_of_not_prevails hnot, ← List.append_cons]

/-- Neighbours of different layers can change places. -/
theorem mergeAll?_swap_of_ne (h : a.layer ≠ b.layer) :
    mergeAll? (before ++ a :: b :: after) = mergeAll? (before ++ b :: a :: after) := by
  rcases Nat.lt_or_gt_of_ne (mt Layer.eq_of_rank_eq h) with hlt | hlt
  · rw [mergeAll?_of_le_next (Nat.le_of_lt hlt), mergeAll?_of_lt_previous hlt]
  · rw [mergeAll?_of_lt_previous hlt, mergeAll?_of_le_next (Nat.le_of_lt hlt)]

/-- It makes a difference to swap two neighbours exactly if they are different values of one layer
that would prevail in their place. -/
theorem mergeAll?_swap_ne_iff (before : List (Layered α)) (a b : Layered α)
    (after : List (Layered α)) :
    mergeAll? (before ++ a :: b :: after) ≠ mergeAll? (before ++ b :: a :: after) ↔
      a.layer = b.layer ∧ a.value ≠ b.value ∧ Prevails before a after := by
  by_cases hlayer : a.layer = b.layer
  · -- only the later one of the two counts, if any of them does
    have hle : a.layer.rank ≤ b.layer.rank := hlayer ▸ Nat.le_refl _
    have hge : b.layer.rank ≤ a.layer.rank := hlayer ▸ Nat.le_refl _
    rw [mergeAll?_of_le_next hle, mergeAll?_of_le_next hge, ← ne_iff_value_ne hlayer]
    by_cases hprevails : Prevails before a after
    · rw [mergeAll?_of_prevails hprevails, mergeAll?_of_prevails (hprevails.congr hlayer)]
      constructor
      · exact fun hne => ⟨hlayer, fun hsame => hne (congrArg some hsame.symm), hprevails⟩
      · exact fun h hsame => h.2.1 (Option.some.inj hsame).symm
    · have hnot : ¬ Prevails before b after := fun h => hprevails (h.congr hlayer.symm)
      rw [mergeAll?_of_not_prevails hprevails, mergeAll?_of_not_prevails hnot]
      exact iff_of_false (fun hne => hne rfl) fun h => hprevails h.2.2
  · exact iff_of_false (not_not.2 (mergeAll?_swap_of_ne hlayer)) fun h => hlayer h.1

/-- The order of two values matters if they are different values of one layer. -/
theorem merge_ne_merge_iff : a.merge b ≠ b.merge a ↔ a.layer = b.layer ∧ a.value ≠ b.value := by
  have hswap : some (a.merge b) ≠ some (b.merge a) ↔
      a.layer = b.layer ∧ a.value ≠ b.value ∧ Prevails [] a [] := mergeAll?_swap_ne_iff [] a b []
  rwa [ne_eq, Option.some.injEq, and_iff_left (prevails_alone a)] at hswap

theorem exists_merge_ne_merge_iff :
    (∃ a b : Layered α, a.merge b ≠ b.merge a) ↔ ∃ x y : α, x ≠ y := by
  simp only [merge_ne_merge_iff]
  constructor
  · rintro ⟨a, b, -, hne⟩
    exact ⟨a.value, b.value, hne⟩
  · rintro ⟨x, y, hne⟩
    exact ⟨⟨x, .default⟩, ⟨y, .default⟩, rfl, hne⟩

end Layered

/-! ### Brackets -/

/-- A list of values in brackets, which tell what is merged with what. -/
inductive Bracketing (α : Type)
  | one (value : Layered α)
  | pair (left right : Bracketing α)

namespace Bracketing

variable {α : Type}

/-- The values without the brackets. -/
def values : Bracketing α → List (Layered α)
  | one value => [value]
  | pair left right => left.values ++ right.values

/-- What the values are merged into. -/
def merged : Bracketing α → Layered α
  | one value => value
  | pair left right => left.merged.merge right.merged

theorem lastOfHighest_merged (brackets : Bracketing α) :
    Layered.LastOfHighest brackets.values brackets.merged := by
  induction brackets with
  | one value => exact .singleton value
  | pair left right hleft hright => exact hleft.append hright

end Bracketing

/-- **Merging picks the last value of the highest layer, however it is grouped.**  A list that is
not empty is merged from left to right into the last one of those values that come from the highest
layer in it.  Merging is associative, and any other brackets lead to the same value.  A value merged
with itself stays as it is.  Merging is not commutative as soon as there are two values to choose
from, but it makes no difference to swap two neighbours unless they are different values of one
layer, and then only where they would prevail. -/
theorem merging_picks_last_of_highest_layer {α : Type} :
    (∀ (values : List (Layered α)) (winner : Layered α),
      Layered.mergeAll? values = some winner ↔ Layered.LastOfHighest values winner) ∧
    (∀ values : List (Layered α), Layered.mergeAll? values = none ↔ values = []) ∧
    (∀ a b c : Layered α, (a.merge b).merge c = a.merge (b.merge c)) ∧
    (∀ brackets : Bracketing α, Layered.mergeAll? brackets.values = some brackets.merged) ∧
    (∀ a : Layered α, a.merge a = a) ∧
    ((∃ a b : Layered α, a.merge b ≠ b.merge a) ↔ ∃ x y : α, x ≠ y) ∧
    ∀ (before : List (Layered α)) (a b : Layered α) (after : List (Layered α)),
      Layered.mergeAll? (before ++ a :: b :: after) ≠
          Layered.mergeAll? (before ++ b :: a :: after) ↔
        a.layer = b.layer ∧ a.value ≠ b.value ∧ Layered.Prevails before a after := by
  refine ⟨fun values winner => Layered.mergeAll?_eq_some_iff,
    fun values => Layered.mergeAll?_eq_none_iff, Layered.merge_assoc, fun brackets => ?_,
    Layered.merge_self, Layered.exists_merge_ne_merge_iff, Layered.mergeAll?_swap_ne_iff⟩
  exact Layered.mergeAll?_eq_some_iff.2 brackets.lastOfHighest_merged

end DoctestSelection
