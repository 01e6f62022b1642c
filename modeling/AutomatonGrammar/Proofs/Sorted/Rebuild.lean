import AutomatonGrammar.Sorted.Map

/-!
# Maps rebuilt from lists of entries

In a list of entries given one after another the last one with a key counts, so the map made of the
list is read from its far end. The entries of a map make that map again.

    (ofList l).get? k = lookupList k l.reverse                          (SortedMap.get?_ofList)
    ofList m.toList = m                                                 (SortedMap.ofList_toList)
-/

namespace AutomatonGrammar.SortedMap

variable {κ β : Type} [DecidableEq κ]

theorem lookupList_append (k : κ) (l₁ l₂ : List (κ × β)) :
    lookupList k (l₁ ++ l₂) = (lookupList k l₁).or (lookupList k l₂) := by
  induction l₁ with
  | nil => rfl
  | cons e es ih =>
    by_cases h : k = e.1
    · simp [lookupList, h]
    · simpa [lookupList, h] using ih

variable [LE κ] [LT κ] [Std.LawfulOrderLT κ]

/-- In an ascending list of entries no key comes twice, so it can be searched from either end. -/
theorem lookupList_reverse {l : List (κ × β)} (h : l.Pairwise (·.1 < ·.1)) (k : κ) :
    lookupList k l.reverse = lookupList k l := by
  apply Option.ext
  intro v
  constructor
  · intro hv
    exact lookupList_of_mem h (List.mem_reverse.1 (mem_of_lookupList hv))
  · intro hv
    cases hr : lookupList k l.reverse with
    | none => exact absurd (List.mem_reverse.2 (mem_of_lookupList hv)) (lookupList_eq_none_iff.1 hr v)
    | some w =>
      have hw := lookupList_of_mem h (List.mem_reverse.1 (mem_of_lookupList hr))
      rw [← hw, hv]

variable [Std.IsLinearOrder κ] [DecidableLT κ]

theorem get?_foldl_insert (l : List (κ × β)) (m : SortedMap κ β) (k : κ) :
    (l.foldl (fun m e => m.insert e.1 e.2) m).get? k = (lookupList k l.reverse).or (m.get? k) := by
  induction l generalizing m with
  | nil => rfl
  | cons e es ih =>
    rw [List.foldl_cons, ih, List.reverse_cons, lookupList_append, get?_insert, Option.or_assoc]
    by_cases h : k = e.1 <;> simp [lookupList, h]

/-- Of two entries with one key the later counts. -/
theorem get?_ofList (l : List (κ × β)) (k : κ) : (ofList l).get? k = lookupList k l.reverse := by
  rw [ofList, get?_foldl_insert, get?_empty, Option.or_none]

theorem ofList_toList (m : SortedMap κ β) : ofList m.toList = m := by
  apply ext_iff_get?.2
  intro k
  rw [get?_ofList, lookupList_reverse m.ascending]
  rfl

end AutomatonGrammar.SortedMap
