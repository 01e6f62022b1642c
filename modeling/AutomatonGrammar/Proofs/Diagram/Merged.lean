import AutomatonGrammar.Diagram.Basic
import AutomatonGrammar.Proofs.Sorted.Rows
import Mathlib.Data.List.Induction

/-!
# Merged arrows

Arrows are merged by groups: a group holds the labels of all arrows between the same nodes, in their
order. There is one group for two nodes if there are any arrows between them, the groups come in ascending
order of source, then target, and one arrow is drawn for each.

    g ∈ groups xs ↔ labelsBetween xs g.source g.target ≠ [] ∧
      g.labels = labelsBetween xs g.source g.target                                  (mem_groups)
    mergeArrows xs = (groups xs).map Group.arrow                                   (mergeArrows_eq_map)
    x ∈ mergeArrows xs ↔ labelsBetween xs x.source x.target ≠ [] ∧
      x.label = ", ".intercalate (labelsBetween xs x.source x.target)           (mem_mergeArrows)
-/

namespace AutomatonGrammar.Diagram

/-- Ascending order of source, then target. -/
def Arrow.Before (x y : Arrow) : Prop :=
  x.source < y.source ∨ x.source = y.source ∧ x.target < y.target

/-- Arrows between the same nodes, by their labels. -/
structure Group where
  source : Nat
  target : Nat
  labels : List String
deriving DecidableEq

/-- The arrow that is drawn for a group. -/
def Group.arrow (g : Group) : Arrow := ⟨g.source, g.target, ", ".intercalate g.labels⟩

/-- Ascending order of source, then target. -/
def Group.Before (g h : Group) : Prop := g.arrow.Before h.arrow

/-- The labels of the arrows from `s` to `t`. -/
def labelsBetween (xs : List Arrow) (s t : Nat) : List String :=
  (xs.filter fun x => x.source = s ∧ x.target = t).map Arrow.label

theorem labelsBetween_concat (xs : List Arrow) (x : Arrow) (s t : Nat) :
    labelsBetween (xs ++ [x]) s t =
      labelsBetween xs s t ++ if s = x.source ∧ t = x.target then [x.label] else [] := by
  rw [labelsBetween, List.filter_append, List.map_append]
  by_cases h : s = x.source ∧ t = x.target
  · obtain ⟨rfl, rfl⟩ := h
    simp [labelsBetween]
  · have hx : ¬(x.source = s ∧ x.target = t) := fun ⟨hs, ht⟩ => h ⟨hs.symm, ht.symm⟩
    simp [labelsBetween, h, hx]

namespace Groups

theorem get?_row_add (g : Groups) (x : Arrow) (s t : Nat) : ((g.add x).row s).get? t =
    if s = x.source ∧ t = x.target then some (g.labels s t ++ [x.label]) else (g.row s).get? t := by
  simp only [add, row, SortedMap.get?_insert]
  by_cases hs : s = x.source
  · subst hs
    simp only [↓reduceIte, Option.getD_some, SortedMap.get?_insert, true_and]
    by_cases ht : t = x.target
    · subst ht
      rfl
    · rw [if_neg ht, if_neg ht]
  · simp [hs]

/-- There is a group for two nodes if there is an arrow, and it holds the labels of all of them. -/
theorem get?_row_foldl_add (xs : List Arrow) (s t : Nat) : ((xs.foldl add ∅).row s).get? t =
    if labelsBetween xs s t = [] then none else some (labelsBetween xs s t) := by
  induction xs using List.reverseRecOn with
  | nil => rfl
  | append_singleton xs x ih =>
    -- the last arrow joins the group of those before it, or starts one if that holds no label
    have hlabels : labels (xs.foldl add ∅) s t = labelsBetween xs s t := by
      rw [labels, ih]
      split
      · next h => exact h.symm
      · rfl
    rw [List.foldl_append, List.foldl_cons, List.foldl_nil, get?_row_add, ih, hlabels, labelsBetween_concat]
    by_cases h : s = x.source ∧ t = x.target
    · simp [h]
    · simp [h]

/-- The groups in ascending order of source, then target. -/
def list (gs : Groups) : List Group :=
  gs.toList.flatMap fun (source, row) => row.toList.map fun (target, labels) =>
    { source, target, labels }

theorem mem_list {gs : Groups} {g : Group} :
    g ∈ gs.list ↔ (gs.row g.source).get? g.target = some g.labels := by
  obtain ⟨s, t, labels⟩ := g
  simp only [list, List.mem_flatMap, List.mem_map, Prod.exists, SortedMap.mem_toList_iff, row,
    Group.mk.injEq]
  constructor
  · rintro ⟨_, r, hr, _, _, ht, rfl, rfl, rfl⟩
    rw [hr]
    exact ht
  · intro ht
    cases hr : SortedMap.get? gs s with
    | none =>
      rw [hr] at ht
      cases ht
    | some r =>
      rw [hr] at ht
      exact ⟨s, r, hr, t, labels, ht, rfl, rfl, rfl⟩

theorem arrows_eq_map (gs : Groups) : gs.arrows = gs.list.map Group.arrow := by
  simp only [arrows, list, List.map_flatMap, List.map_map]
  rfl

theorem pairwise_list (gs : Groups) : gs.list.Pairwise Group.Before := by
  refine SortedMap.pairwise_rows (f := Group.mk) (fun _ _ _ _ _ h => ?_) (fun _ _ _ _ _ _ h => ?_)
  · exact .inr ⟨rfl, h⟩
  · exact .inl h

end Groups

/-- The groups of some arrows. -/
def groups (xs : List Arrow) : List Group := (xs.foldl Groups.add ∅).list

/-- There is one group for each two nodes with arrows from one to the other, with all their labels. -/
theorem mem_groups {xs : List Arrow} {g : Group} : g ∈ groups xs ↔
    labelsBetween xs g.source g.target ≠ [] ∧ g.labels = labelsBetween xs g.source g.target := by
  rw [groups, Groups.mem_list, Groups.get?_row_foldl_add]
  split
  · next h => simp [h]
  · next h => simp [h, eq_comm]

/-- The groups ascend by source, then by target. -/
theorem pairwise_groups (xs : List Arrow) : (groups xs).Pairwise Group.Before :=
  Groups.pairwise_list _

/-- A merged arrow is drawn for each group. -/
theorem mergeArrows_eq_map (xs : List Arrow) : mergeArrows xs = (groups xs).map Group.arrow :=
  Groups.arrows_eq_map _

theorem mem_mergeArrows {xs : List Arrow} {x : Arrow} : x ∈ mergeArrows xs ↔
    labelsBetween xs x.source x.target ≠ [] ∧
      x.label = ", ".intercalate (labelsBetween xs x.source x.target) := by
  simp only [mergeArrows_eq_map, List.mem_map, mem_groups]
  constructor
  · rintro ⟨g, ⟨hne, hlabels⟩, rfl⟩
    exact ⟨hne, congrArg (", ".intercalate ·) hlabels⟩
  · rintro ⟨hne, hlabel⟩
    exact ⟨⟨x.source, x.target, _⟩, ⟨hne, rfl⟩, by rw [Group.arrow, ← hlabel]⟩

theorem pairwise_mergeArrows (xs : List Arrow) : (mergeArrows xs).Pairwise Arrow.Before := by
  rw [mergeArrows_eq_map]
  exact List.pairwise_map.2 (pairwise_groups xs)

end AutomatonGrammar.Diagram
