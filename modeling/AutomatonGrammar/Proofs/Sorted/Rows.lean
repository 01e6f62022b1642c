import AutomatonGrammar.Sorted.Map

/-!
# Maps of maps, entry by entry

A map whose values are maps is gone through row by row. What is listed that way comes in ascending order
of the outer key, then of the inner one.
-/

namespace AutomatonGrammar.SortedMap

variable {κ ι β γ : Type} [LT κ] [LT ι]

theorem pairwise_rows {m : SortedMap κ (SortedMap ι β)} {f : κ → ι → β → γ} {R : γ → γ → Prop}
    (hrow : ∀ k j v j' v', j < j' → R (f k j v) (f k j' v'))
    (hrows : ∀ k j v k' j' v', k < k' → R (f k j v) (f k' j' v')) :
    (m.toList.flatMap fun (k, row) => row.toList.map fun (j, v) => f k j v).Pairwise R := by
  rw [List.pairwise_flatMap]
  constructor
  · rintro ⟨k, row⟩ -
    exact List.pairwise_map.2 (row.ascending.imp fun h => hrow _ _ _ _ _ h)
  · refine m.ascending.imp fun {r r'} hlt => ?_
    intro x hx y hy
    obtain ⟨_, -, rfl⟩ := List.mem_map.1 hx
    obtain ⟨_, -, rfl⟩ := List.mem_map.1 hy
    exact hrows _ _ _ _ _ _ hlt

end AutomatonGrammar.SortedMap
