import AutomatonGrammar.Sorted.Set

/-!
# Places in ascending order

In an array that ascends strictly an element is looked for by halving: it is at the middle of the places
that are left, or in one of the halves, which its order tells. An array without repetition has an element
at one place at most, so it does not matter which places are looked at:

    position? s.toArray x = some n ↔ s.toArray[n] = x                (SortedSet.position?_eq_some_iff)
    position? s.toArray x = none ↔ x ∉ s                             (SortedSet.position?_eq_none_iff)
-/

namespace AutomatonGrammar.SortedSet

section Basic

variable {α : Type} [LT α]

/-- The elements, each at its place. -/
def toArray (s : SortedSet α) : Array α := s.toList.toArray

theorem size_toArray (s : SortedSet α) : s.toArray.size = s.size := List.size_toArray

theorem getElem_toArray_mem {s : SortedSet α} (n : Fin s.toArray.size) : s.toArray[n] ∈ s :=
  List.getElem_mem n.isLt

theorem exists_getElem_toArray {s : SortedSet α} {x : α} (hx : x ∈ s) :
    ∃ n : Fin s.toArray.size, s.toArray[n] = x := by
  obtain ⟨n, hn, rfl⟩ := List.getElem_of_mem hx
  exact ⟨⟨n, hn⟩, rfl⟩

theorem getElem_toArray_lt {s : SortedSet α} {i j : Fin s.toArray.size} (h : i < j) :
    s.toArray[i] < s.toArray[j] :=
  List.pairwise_iff_getElem.1 s.ascending i j i.isLt j.isLt h

variable [DecidableLT α] [DecidableEq α]

/-- Looks for `x` at the places from `low` to below `high`. -/
def positionBetween (xs : Array α) (x : α) (low high : Nat) (h : high ≤ xs.size) : Option (Fin xs.size) :=
  if hlt : low < high then
    let middle := low + (high - low) / 2
    have hmiddle : middle < high := by omega
    if xs[middle] = x then some ⟨middle, by omega⟩
    else if xs[middle] < x then positionBetween xs x (middle + 1) high h
    else positionBetween xs x low middle (by omega)
  else none
termination_by high - low

/-- The place of `x` in an ascending array. -/
def position? (xs : Array α) (x : α) : Option (Fin xs.size) :=
  positionBetween xs x 0 xs.size (Nat.le_refl _)

end Basic

/-! ## What is found -/

variable {α : Type} [LE α] [LT α] [Std.LawfulOrderLT α] {s : SortedSet α} {i j : Fin s.toArray.size}

theorem getElem_toArray_inj : s.toArray[i] = s.toArray[j] ↔ i = j := by
  refine ⟨fun h => ?_, fun h => h ▸ rfl⟩
  rcases Nat.lt_trichotomy i j with hlt | heq | hlt
  · exact absurd h (Std.ne_of_lt (getElem_toArray_lt hlt))
  · exact Fin.ext heq
  · exact absurd h.symm (Std.ne_of_lt (getElem_toArray_lt hlt))

variable [Std.IsLinearOrder α]

theorem lt_of_getElem_toArray_lt (h : s.toArray[i] < s.toArray[j]) : i < j := by
  rcases Nat.lt_trichotomy i j with hlt | heq | hlt
  · exact hlt
  · exact absurd (Fin.ext heq ▸ h) Std.lt_irrefl
  · exact absurd (Std.lt_trans h (getElem_toArray_lt hlt)) Std.lt_irrefl

variable [DecidableLT α] [DecidableEq α]

/-- An element is found just if it is at one of the places that are searched. The induction is on the
stretch of places, which is halved. -/
theorem positionBetween_eq_some_iff {x : α} {low high : Nat} {h : high ≤ s.toArray.size}
    {n : Fin s.toArray.size} :
    positionBetween s.toArray x low high h = some n ↔ low ≤ n ∧ n < high ∧ s.toArray[n] = x := by
  fun_induction positionBetween s.toArray x low high h with
  | case1 low high h hlt middle hmiddle heq =>
    rw [Option.some.injEq]
    constructor
    · rintro rfl
      exact ⟨Nat.le_add_right _ _, hmiddle, heq⟩
    · rintro ⟨-, -, hn⟩
      exact getElem_toArray_inj.1 (heq.trans hn.symm)
  | case2 low high h hlt middle hmiddle hne hless ih =>
    -- what is at the middle is less than `x`, so `x` is behind it
    rw [ih]
    constructor
    · rintro ⟨hlow, hn⟩
      exact ⟨by omega, hn⟩
    · rintro ⟨-, hhigh, rfl⟩
      have hlt : (⟨middle, by omega⟩ : Fin s.toArray.size) < n := lt_of_getElem_toArray_lt hless
      exact ⟨hlt, hhigh, rfl⟩
  | case3 low high h hlt middle hmiddle hne hless ih =>
    rw [ih]
    constructor
    · rintro ⟨hlow, hn, rfl⟩
      exact ⟨hlow, by omega, rfl⟩
    · rintro ⟨hlow, -, rfl⟩
      have hgreater : s.toArray[n] < s.toArray[middle] :=
        (Std.lt_trichotomy _ _).resolve_right fun h => h.elim (hne ·.symm) hless
      have hlt : n < (⟨middle, by omega⟩ : Fin s.toArray.size) := lt_of_getElem_toArray_lt hgreater
      exact ⟨hlow, hlt, rfl⟩
  | case4 low high h hlt =>
    refine iff_of_false (by simp) ?_
    rintro ⟨hlow, hhigh, -⟩
    omega

/-- The place that is found is the place of the element. -/
theorem position?_eq_some_iff {x : α} {n : Fin s.toArray.size} :
    position? s.toArray x = some n ↔ s.toArray[n] = x := by
  rw [position?, positionBetween_eq_some_iff]
  simp

/-- Only what is not in the set is not found. -/
theorem position?_eq_none_iff {x : α} : position? s.toArray x = none ↔ x ∉ s := by
  constructor
  · intro hnone hx
    obtain ⟨n, hn⟩ := exists_getElem_toArray hx
    cases hnone.symm.trans (position?_eq_some_iff.2 hn)
  · intro hx
    cases hn : position? s.toArray x with
    | none => rfl
    | some n => exact absurd (position?_eq_some_iff.1 hn ▸ getElem_toArray_mem n) hx

end AutomatonGrammar.SortedSet
