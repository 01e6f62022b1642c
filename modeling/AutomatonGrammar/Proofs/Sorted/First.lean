import AutomatonGrammar.Sorted.Map

/-!
# The first of what an ordered collection gives

What comes first when a sorted set or map is gone through in ascending order: it belongs to the least
element, or to the least key, that gives anything.

    (s.toList.filter p).head? = some x ↔ x ∈ s ∧ p x = true ∧ ∀ y ∈ s, y < x → p y = false
                                                                     (SortedSet.head?_filter_iff)
-/

namespace AutomatonGrammar

section Ascending

variable {α : Type} {R : α → α → Prop}

/-- In an ascending list the elements in front of `x` are those that are less. -/
theorem mem_front_iff_of_pairwise (hasymm : ∀ y z, R y z → ¬R z y) {front back : List α} {x y : α}
    (h : (front ++ x :: back).Pairwise R) : y ∈ front ↔ y ∈ front ++ x :: back ∧ R y x := by
  obtain ⟨-, hback, hfront⟩ := List.pairwise_append.1 h
  constructor
  · intro hy
    exact ⟨List.mem_append_left _ hy, hfront y hy x (.head _)⟩
  · rintro ⟨hy, hlt⟩
    rcases List.mem_append.1 hy with hy | hy
    · exact hy
    · rcases List.mem_cons.1 hy with rfl | hy
      · exact absurd hlt (hasymm _ _ hlt)
      · exact absurd hlt (hasymm _ _ ((List.pairwise_cons.1 hback).1 y hy))

end Ascending

variable {κ : Type} [LE κ] [LT κ] [Std.LawfulOrderLT κ]

theorem SortedSet.head?_filter_iff {s : SortedSet κ} {p : κ → Bool} {x : κ} :
    (s.toList.filter p).head? = some x ↔ x ∈ s ∧ p x = true ∧ ∀ y ∈ s, y < x → p y = false := by
  have hasymm : ∀ y z : κ, y < z → ¬z < y := fun _ _ => Std.not_gt_of_lt
  rw [List.head?_filter, List.find?_eq_some_iff_append]
  constructor
  · rintro ⟨hx, front, back, heq, hfront⟩
    have hsorted := heq ▸ s.ascending
    refine ⟨mem_toList.1 (heq ▸ by simp), hx, fun y hy hlt => ?_⟩
    have hy' : y ∈ front ++ x :: back := heq ▸ mem_toList.2 hy
    simpa using hfront y ((mem_front_iff_of_pairwise hasymm hsorted).2 ⟨hy', hlt⟩)
  · rintro ⟨hx, hp, hleast⟩
    obtain ⟨front, back, heq⟩ := List.append_of_mem (mem_toList.2 hx)
    have hsorted := heq ▸ s.ascending
    refine ⟨hp, front, back, heq, fun y hy => ?_⟩
    obtain ⟨hy', hlt⟩ := (mem_front_iff_of_pairwise hasymm hsorted).1 hy
    simp [hleast y (mem_toList.1 (heq ▸ hy')) hlt]

theorem SortedMap.head?_flatMap_iff [DecidableEq κ] {β γ : Type} {m : SortedMap κ β}
    {f : κ × β → List γ} {c : γ} : (m.toList.flatMap f).head? = some c ↔
      ∃ k v, m.get? k = some v ∧ (∀ j w, m.get? j = some w → j < k → f (j, w) = []) ∧
        (f (k, v)).head? = some c := by
  have hasymm : ∀ e d : κ × β, e.1 < d.1 → ¬d.1 < e.1 := fun _ _ => Std.not_gt_of_lt
  rw [List.head?_flatMap, List.findSome?_eq_some_iff]
  constructor
  · rintro ⟨front, ⟨k, v⟩, back, heq, hc, hfront⟩
    have hsorted := heq ▸ m.ascending
    refine ⟨k, v, mem_toList_iff.1 (heq ▸ by simp), fun j w hj hlt => ?_, hc⟩
    have hj' : (j, w) ∈ front ++ (k, v) :: back := heq ▸ mem_toList_iff.2 hj
    exact List.head?_eq_none_iff.1
      (hfront _ ((mem_front_iff_of_pairwise hasymm hsorted).2 ⟨hj', hlt⟩))
  · rintro ⟨k, v, hk, hleast, hc⟩
    obtain ⟨front, back, heq⟩ := List.append_of_mem (mem_toList_iff.2 hk)
    have hsorted := heq ▸ m.ascending
    refine ⟨front, (k, v), back, heq, hc, fun ⟨j, w⟩ hj => ?_⟩
    obtain ⟨hj', hlt⟩ := (mem_front_iff_of_pairwise hasymm hsorted).1 hj
    rw [hleast j w (mem_toList_iff.1 (heq ▸ hj')) hlt]
    rfl

end AutomatonGrammar
