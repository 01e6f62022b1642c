import AutomatonGrammar.Sorted.Map

/-!
# Keys looked up one after another

Looking up the elements of a set in ascending order finds the entries of a map that have their key in the
set, in the order in which they are in the map. What is in the set only, or in the map only, is passed over.

    (s.toList.filterMap fun k => (m.get? k).map (k, ·)) = m.toList.filter fun e => e.1 ∈ s
                                                                    (SortedMap.filterMap_get?)
-/

namespace AutomatonGrammar.SortedMap

variable {κ β : Type} [LE κ] [LT κ] [Std.LawfulOrderLT κ] [Std.IsLinearOrder κ] [DecidableEq κ]

/-- Two ascending lists of the same entries are equal. -/
theorem eq_of_mem_iff {l₁ l₂ : List (κ × β)} (h₁ : l₁.Pairwise (·.1 < ·.1))
    (h₂ : l₂.Pairwise (·.1 < ·.1)) (h : ∀ e, e ∈ l₁ ↔ e ∈ l₂) : l₁ = l₂ := by
  refine eq_of_lookupList_eq h₁ h₂ fun k => Option.ext fun v => ?_
  constructor
  · intro hv
    exact lookupList_of_mem h₂ ((h _).1 (mem_of_lookupList hv))
  · intro hv
    exact lookupList_of_mem h₁ ((h _).2 (mem_of_lookupList hv))

theorem filterMap_get? (s : SortedSet κ) (m : SortedMap κ β) :
    (s.toList.filterMap fun k => (m.get? k).map (k, ·)) = m.toList.filter fun e => e.1 ∈ s := by
  refine eq_of_mem_iff ?_ (m.ascending.filter _) fun (k, v) => ?_
  · -- each key looked up is the key of what is found
    refine List.pairwise_filterMap.2 (s.ascending.imp fun hlt => ?_)
    intro e he f hf
    obtain ⟨_, -, rfl⟩ := Option.map_eq_some_iff.1 he
    obtain ⟨_, -, rfl⟩ := Option.map_eq_some_iff.1 hf
    exact hlt
  · rw [List.mem_filterMap, List.mem_filter, mem_toList_iff, decide_eq_true_iff]
    constructor
    · rintro ⟨j, hj, hv⟩
      obtain ⟨w, hw, heq⟩ := Option.map_eq_some_iff.1 hv
      cases heq
      exact ⟨hw, hj⟩
    · rintro ⟨hv, hk⟩
      exact ⟨k, hk, by rw [hv]; rfl⟩

end AutomatonGrammar.SortedMap
