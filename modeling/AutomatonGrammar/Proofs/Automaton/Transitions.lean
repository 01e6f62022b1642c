import AutomatonGrammar.Automaton.Basic
import AutomatonGrammar.Proofs.Sorted.Rebuild
import AutomatonGrammar.Proofs.Sorted.Rows

/-!
# Transitions and their edges

The edges of a transition function come in ascending order of source, then symbol, so no two of them
leave one state on one symbol. Put together again they answer every look-up as before. An empty row has
no edges: it is the only thing that the edges do not give back.

    (ofEdges es).get? s x = (es.reverse.find? (Edge.leaves s x)).map Edge.target   (get?_ofEdges)
    (ofEdges t.edges).get? s x = t.get? s x                                        (get?_ofEdges_edges)
    t.NoEmptyRow → ofEdges t.edges = t                                             (ofEdges_edges)
    t.withoutEmptyRows.get? s x = t.get? s x                                (get?_withoutEmptyRows)
-/

namespace AutomatonGrammar

namespace Edge

/-- Ascending order of source, then symbol. -/
def Before (e f : Edge) : Prop :=
  e.source < f.source ∨ e.source = f.source ∧ e.symbol < f.symbol

/-- Whether an edge leaves `s` on `x`. -/
def leaves (s : State) (x : Symbol) (e : Edge) : Bool := e.source = s ∧ e.symbol = x

theorem leaves_iff {s : State} {x : Symbol} {e : Edge} :
    leaves s x e = true ↔ e.source = s ∧ e.symbol = x := by
  simp [leaves]

theorem Before.not_leaves {e f : Edge} (h : e.Before f) :
    ¬(f.source = e.source ∧ f.symbol = e.symbol) := by
  rintro ⟨hs, hx⟩
  rcases h with h | ⟨-, h⟩
  · exact Std.lt_irrefl (hs ▸ h)
  · exact Std.lt_irrefl (hx ▸ h)

theorem Before.not_before {e f : Edge} (h : e.Before f) : ¬f.Before e := by
  rintro (hf | ⟨hs, hf⟩)
  · rcases h with h | ⟨hs, -⟩
    · exact Std.lt_irrefl (Std.lt_trans h hf)
    · exact Std.lt_irrefl (hs ▸ hf)
  · rcases h with h | ⟨-, h⟩
    · exact Std.lt_irrefl (hs ▸ h)
    · exact Std.lt_irrefl (Std.lt_trans h hf)

theorem nodup_of_pairwise_before {es : List Edge} (h : es.Pairwise Before) : es.Nodup := by
  refine h.imp fun {e f} hlt heq => ?_
  subst heq
  exact hlt.not_before hlt

/-- Two ascending lists of the same edges are equal. -/
theorem eq_of_pairwise_before {es fs : List Edge} (he : es.Pairwise Before) (hf : fs.Pairwise Before)
    (h : ∀ e, e ∈ es ↔ e ∈ fs) : es = fs := by
  refine List.Perm.eq_of_pairwise (fun _ _ _ _ hlt hgt => absurd hgt hlt.not_before) he hf ?_
  exact (List.perm_ext_iff_of_nodup (nodup_of_pairwise_before he) (nodup_of_pairwise_before hf)).2 h

end Edge

namespace Transitions

variable {t u : Transitions}

theorem edges_pairwise (t : Transitions) : t.edges.Pairwise Edge.Before := by
  refine SortedMap.pairwise_rows (f := Edge.mk) (fun _ _ _ _ _ h => ?_) (fun _ _ _ _ _ _ h => ?_)
  · exact .inr ⟨rfl, h⟩
  · exact .inl h

theorem length_edges (t : Transitions) :
    t.edges.length = t.toList.foldr (fun (_, row) n => row.size + n) 0 := by
  unfold edges
  induction t.toList with
  | nil => rfl
  | cons r rest ih => simp [ih, SortedMap.size]

/-! ## Look-ups -/

theorem get?_foldl_put (es : List Edge) (t : Transitions) (s : State) (x : Symbol) :
    (es.foldl put t).get? s x =
      ((es.reverse.find? (Edge.leaves s x)).map Edge.target).or (t.get? s x) := by
  induction es generalizing t with
  | nil => rfl
  | cons e es ih =>
    rw [List.foldl_cons, ih, List.reverse_cons, List.find?_append, get?_put]
    cases es.reverse.find? (Edge.leaves s x) with
    | some f => simp
    | none =>
      by_cases h : s = e.source ∧ x = e.symbol
      · obtain ⟨rfl, rfl⟩ := h
        have he : Edge.leaves e.source e.symbol e = true := Edge.leaves_iff.2 ⟨rfl, rfl⟩
        simp [he]
      · have he : Edge.leaves s x e = false := by
          rw [Bool.eq_false_iff, ne_eq, Edge.leaves_iff]
          exact fun ⟨hs, hx⟩ => h ⟨hs.symm, hx.symm⟩
        simp [h, he]

/-- Of two edges that leave one state on one symbol the later counts. -/
theorem get?_ofEdges (es : List Edge) (s : State) (x : Symbol) :
    (ofEdges es).get? s x = (es.reverse.find? (Edge.leaves s x)).map Edge.target := by
  rw [ofEdges, get?_foldl_put]
  exact Option.or_none

/-- Some of the edges of `t`, put together again, answer for themselves and for no other. -/
theorem get?_ofEdges_of_subset {es : List Edge} (hes : ∀ e ∈ es, e ∈ t.edges) {e : Edge} :
    (ofEdges es).get? e.source e.symbol = some e.target ↔ e ∈ es := by
  rw [get?_ofEdges]
  constructor
  · intro h
    obtain ⟨f, hf, htarget⟩ := Option.map_eq_some_iff.1 h
    obtain ⟨hs, hx⟩ := Edge.leaves_iff.1 (List.find?_some hf)
    obtain rfl : f = e := by
      obtain ⟨s, x, q⟩ := f
      subst hs hx htarget
      rfl
    exact List.mem_reverse.1 (List.mem_of_find?_eq_some hf)
  · intro he
    cases hf : es.reverse.find? (Edge.leaves e.source e.symbol) with
    | none =>
      exact absurd (Edge.leaves_iff.2 ⟨rfl, rfl⟩)
        (List.find?_eq_none.1 hf e (List.mem_reverse.2 he))
    | some f =>
      obtain ⟨hs, hx⟩ := Edge.leaves_iff.1 (List.find?_some hf)
      have hft := mem_edges.1 (hes f (List.mem_reverse.1 (List.mem_of_find?_eq_some hf)))
      rw [hs, hx, mem_edges.1 (hes e he)] at hft
      exact hft.symm

theorem get?_ofEdges_edges (t : Transitions) (s : State) (x : Symbol) :
    (ofEdges t.edges).get? s x = t.get? s x := by
  apply Option.ext
  intro q
  exact (get?_ofEdges_of_subset (fun _ h => h) (e := ⟨s, x, q⟩)).trans mem_edges

/-! ## Empty rows -/

/-- Every source has a transition. -/
def NoEmptyRow (t : Transitions) : Prop := ∀ s row, SortedMap.get? t s = some row → row ≠ ∅

theorem noEmptyRow_empty : NoEmptyRow ∅ := by
  intro s row h
  cases h

theorem insert_ne_empty (row : Row) (x : Symbol) (q : State) : row.insert x q ≠ ∅ := by
  intro e
  have h : (row.insert x q).get? x = some q := by simp [SortedMap.get?_insert]
  rw [e] at h
  cases h

theorem NoEmptyRow.put (h : t.NoEmptyRow) (e : Edge) : (t.put e).NoEmptyRow := by
  intro s row hr
  rw [Transitions.put, SortedMap.get?_insert] at hr
  split at hr
  · cases hr
    exact insert_ne_empty _ _ _
  · exact h s row hr

theorem NoEmptyRow.foldl_put (h : t.NoEmptyRow) (es : List Edge) : (es.foldl .put t).NoEmptyRow := by
  induction es generalizing t with
  | nil => exact h
  | cons e es ih => exact ih (h.put e)

/-- Without empty rows the rows say which sources there are. -/
theorem NoEmptyRow.get?_eq (h : t.NoEmptyRow) (s : State) :
    SortedMap.get? t s = if t.row s = ∅ then none else some (t.row s) := by
  unfold row
  cases hr : SortedMap.get? t s with
  | none => rfl
  | some row => exact (if_neg (h s row hr)).symm

theorem ext_of_noEmptyRow (ht : t.NoEmptyRow) (hu : u.NoEmptyRow)
    (h : ∀ s x, t.get? s x = u.get? s x) : t = u := by
  have hrow : ∀ s, t.row s = u.row s := fun s => SortedMap.ext_iff_get?.2 (h s)
  apply SortedMap.ext_iff_get?.2
  intro s
  rw [ht.get?_eq, hu.get?_eq, hrow]

theorem noEmptyRow_ofEdges (es : List Edge) : (ofEdges es).NoEmptyRow :=
  noEmptyRow_empty.foldl_put es

theorem ofEdges_edges (h : t.NoEmptyRow) : ofEdges t.edges = t :=
  ext_of_noEmptyRow (noEmptyRow_ofEdges _) h (get?_ofEdges_edges t)

/-- The same transitions without the rows that are empty. -/
def withoutEmptyRows (t : Transitions) : Transitions :=
  ⟨t.toList.filter fun (_, row) => row ≠ ∅, t.ascending.filter _⟩

theorem get?_withoutEmptyRows_eq_some_iff {s : State} {row : Row} :
    SortedMap.get? t.withoutEmptyRows s = some row ↔ SortedMap.get? t s = some row ∧ row ≠ ∅ := by
  rw [← SortedMap.mem_toList_iff, ← SortedMap.mem_toList_iff, withoutEmptyRows, List.mem_filter,
    decide_eq_true_iff]

theorem noEmptyRow_withoutEmptyRows (t : Transitions) : t.withoutEmptyRows.NoEmptyRow :=
  fun _ _ h => (get?_withoutEmptyRows_eq_some_iff.1 h).2

theorem get?_withoutEmptyRows (t : Transitions) (s : State) (x : Symbol) :
    t.withoutEmptyRows.get? s x = t.get? s x := by
  unfold get? row
  cases ht : SortedMap.get? t s with
  | none =>
    cases hw : SortedMap.get? t.withoutEmptyRows s with
    | none => rfl
    | some row => cases ht.symm.trans (get?_withoutEmptyRows_eq_some_iff.1 hw).1
  | some row =>
    by_cases hrow : row = ∅
    · subst hrow
      cases hw : SortedMap.get? t.withoutEmptyRows s with
      | none => rfl
      | some row =>
        obtain ⟨hrow, hne⟩ := get?_withoutEmptyRows_eq_some_iff.1 hw
        exact absurd (Option.some.inj (hrow.symm.trans ht)) hne
    · rw [get?_withoutEmptyRows_eq_some_iff.2 ⟨ht, hrow⟩]

end Transitions

end AutomatonGrammar
