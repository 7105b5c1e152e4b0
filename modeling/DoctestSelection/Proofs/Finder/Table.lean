import DoctestSelection.Finder.ModuleTable
import Mathlib.Data.List.Induction

/-!
# Tables of listed modules

A table is made from a list of modules by registering one after the other, so what it holds for a
name is what stands last for the name in the list.  If no name is repeated, it holds the list.

## Main definitions

* `ModuleTable.Holds table modules` — the modules of a table and their tests, and no others.

## Main results

* `ModuleTable.tests?_ofList` — what a table of listed modules holds.
* `ModuleTable.mem_names_ofList` — its modules are the listed ones.
* `ModuleTable.holds_ofList` — a table of modules with different names holds the modules.
-/

namespace DoctestSelection

namespace ModuleTable

variable {modules : List (String × List Test)} {name : String}

/-- The finder of a table finds what the table holds. -/
theorem find_finder_eq_ok_iff {table : ModuleTable} {tests : List Test} :
    table.finder.find name = .ok tests ↔ table.tests? name = some tests := by
  unfold finder
  dsimp only
  cases table.tests? name with
  | none => exact iff_of_false nofun nofun
  | some ts => rw [Except.ok.injEq, Option.some.injEq]

theorem ofList_append_singleton (modules : List (String × List Test)) (name : String)
    (tests : List Test) : ofList (modules ++ [(name, tests)]) = (ofList modules).insert name tests := by
  rw [ofList, List.foldl_append]
  rfl

theorem tests?_ofList_eq_lookup (modules : List (String × List Test)) (name : String) :
    (ofList modules).tests? name = modules.reverse.lookup name := by
  induction modules using List.reverseRecOn with
  | nil => exact tests?_empty name
  | append_singleton modules m ih =>
    obtain ⟨other, tests⟩ := m
    rw [ofList_append_singleton, tests?_insert, ih, List.reverse_append, List.reverse_singleton,
      List.singleton_append, List.lookup_cons]
    by_cases h : other = name
    · rw [if_pos h, beq_iff_eq.2 h.symm]
    · rw [if_neg h, beq_eq_false_iff_ne.2 (Ne.symm h)]

/-- **What a table of listed modules holds** for a name is what stands last for it in the list. -/
theorem tests?_ofList {tests : List Test} :
    (ofList modules).tests? name = some tests ↔
      ∃ before after, modules = before ++ (name, tests) :: after ∧ ∀ m ∈ after, m.1 ≠ name := by
  rw [tests?_ofList_eq_lookup, List.lookup_eq_some_iff]
  constructor
  · intro h
    obtain ⟨front, back, hreverse, hfront⟩ := h
    refine ⟨back.reverse, front.reverse, ?_, ?_⟩
    · rw [← List.reverse_reverse modules, hreverse]
      simp
    · intro m hm
      exact Ne.symm (bne_iff_ne.1 (hfront m (List.mem_reverse.1 hm)))
  · intro h
    obtain ⟨before, after, rfl, hafter⟩ := h
    refine ⟨after.reverse, before.reverse, by simp, ?_⟩
    intro m hm
    exact bne_iff_ne.2 (Ne.symm (hafter m (List.mem_reverse.1 hm)))

/-- The modules of a table of listed modules are the listed ones. -/
theorem mem_names_ofList : name ∈ (ofList modules).names ↔ name ∈ modules.map (·.1) := by
  rw [mem_names, tests?_ofList_eq_lookup, List.mem_map]
  constructor
  · intro h
    obtain ⟨tests, htests⟩ := Option.isSome_iff_exists.1 h
    obtain ⟨front, back, hreverse, -⟩ := List.lookup_eq_some_iff.1 htests
    have hmem : (name, tests) ∈ modules.reverse := by simp [hreverse]
    exact ⟨(name, tests), List.mem_reverse.1 hmem, rfl⟩
  · intro h
    obtain ⟨m, hm, rfl⟩ := h
    rw [Option.isSome_iff_ne_none, ne_eq, List.lookup_eq_none_iff]
    intro hnone
    simpa using hnone m (List.mem_reverse.2 hm)

/-- A table holds these modules with their tests, and no others. -/
structure Holds (table : ModuleTable) (modules : List (String × List Test)) : Prop where
  mem_names : ∀ name, name ∈ table.names ↔ name ∈ modules.map (·.1)
  find : ∀ name tests, table.finder.find name = .ok tests ↔ (name, tests) ∈ modules

/-- **A table of modules with different names holds the modules.** -/
theorem holds_ofList (h : (modules.map (·.1)).Nodup) : (ofList modules).Holds modules where
  mem_names _ := mem_names_ofList
  find name tests := by
    rw [find_finder_eq_ok_iff, tests?_ofList]
    constructor
    · intro hlast
      obtain ⟨before, after, rfl, -⟩ := hlast
      simp
    · intro hmem
      obtain ⟨before, after, rfl⟩ := List.append_of_mem hmem
      refine ⟨before, after, rfl, ?_⟩
      intro m hm hname
      rw [List.map_append, List.map_cons] at h
      have hnone : name ∉ after.map (·.1) := (List.nodup_cons.1 (List.nodup_append.1 h).2.1).1
      exact hnone (List.mem_map.2 ⟨m, hm, hname⟩)

theorem names_ofList_singleton (name : String) (tests : List Test) :
    (ofList [(name, tests)]).names = [name] := by
  have hlength : (ofList [(name, tests)]).names.length = 1 := by
    show ((∅ : Std.ExtTreeMap String (List Test)).insert name tests).keys.length = 1
    rw [Std.ExtTreeMap.length_keys, Std.ExtTreeMap.size_insert]
    simp
  obtain ⟨only, honly⟩ := List.length_eq_one_iff.1 hlength
  have hmem : name ∈ (ofList [(name, tests)]).names := mem_names_ofList.2 (by simp)
  rw [honly, List.mem_singleton] at hmem
  rw [honly, hmem]

end ModuleTable

end DoctestSelection
