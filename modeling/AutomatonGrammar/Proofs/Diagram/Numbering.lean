import AutomatonGrammar.Diagram.Numbering
import AutomatonGrammar.Proofs.Automaton.Declared
import Mathlib.Data.List.Basic

/-!
# The nodes of a diagram and their numbers

The nodes are the declared states in ascending order, and behind them every name that the start state or a
transition uses without declaring it, each where it is used first. Numbering name after name comes to that
list (`nodes_numbering`), so a node's number is its place in it. No name is numbered twice, and every name
that a diagram of the automaton has to point at is numbered: the start state, and both ends of every
transition.

    a.numbering.nodes = a.nodes                                               (nodes_numbering)
    s ∈ a.nodes ↔ s ∈ a.states ∨ s ∈ a.mentions                                     (mem_nodes)
    a.nodes[n]? = some s ↔ s ∈ a.nodes ∧ a.nodes.idxOf s = n                        (getElem?_nodes)
    a.Declared → a.nodes = a.states.toList                                      (Declared.nodes_eq)
-/

namespace AutomatonGrammar

/-- Keeps of every name only its first mention. -/
def firstMentions : List State → List State
  | [] => []
  | s :: rest => s :: (firstMentions rest).filter (· ≠ s)

theorem mem_firstMentions {s : State} {l : List State} : s ∈ firstMentions l ↔ s ∈ l := by
  induction l with
  | nil => rfl
  | cons r rest ih =>
    rw [firstMentions, List.mem_cons, List.mem_cons, List.mem_filter, ih]
    constructor
    · rintro (h | ⟨h, -⟩)
      · exact .inl h
      · exact .inr h
    · rintro (h | h)
      · exact .inl h
      · by_cases hs : s = r
        · exact .inl hs
        · exact .inr ⟨h, by simpa using hs⟩

theorem nodup_firstMentions (l : List State) : (firstMentions l).Nodup := by
  induction l with
  | nil => exact .nil
  | cons r rest ih =>
    rw [firstMentions, List.nodup_cons]
    refine ⟨fun h => ?_, ih.filter _⟩
    simpa using (List.mem_filter.1 h).2

theorem firstMentions_of_nodup {l : List State} (h : l.Nodup) : firstMentions l = l := by
  induction l with
  | nil => rfl
  | cons s rest ih =>
    obtain ⟨hs, hrest⟩ := List.nodup_cons.1 h
    rw [firstMentions, ih hrest, List.filter_eq_self.2]
    rintro r hr
    simpa using fun h : r = s => hs (h ▸ hr)

theorem firstMentions_filter (p : State → Bool) (l : List State) :
    firstMentions (l.filter p) = (firstMentions l).filter p := by
  induction l with
  | nil => rfl
  | cons s rest ih =>
    rw [List.filter_cons, firstMentions, List.filter_cons]
    split
    · rw [firstMentions, ih, List.filter_comm]
    · next hs =>
      -- what is left out for being `s` is left out anyway
      rw [ih, List.filter_filter]
      refine List.filter_congr fun r _ => ?_
      by_cases hr : r = s
      · subst hr
        simpa using hs
      · simp [hr]

/-- Names that are numbered one after another stand behind those that had a number before. -/
theorem Numbering.Sound.nodes_foldl_add {accepts : State → Bool} {n : Numbering} (h : n.Sound accepts)
    (names : List State) : (names.foldl (.add accepts) n).nodes =
      n.nodes ++ firstMentions (names.filter (· ∉ n.nodes)) := by
  induction names generalizing n with
  | nil => exact (List.append_nil _).symm
  | cons s names ih =>
    rw [List.foldl_cons, ih (h.add s)]
    by_cases hs : s ∈ n.nodes
    · rw [h.add_of_mem hs, List.filter_cons_of_neg (by simpa using hs)]
    · have hmore : names.filter (· ∉ n.nodes ++ [s]) = (names.filter (· ∉ n.nodes)).filter (· ≠ s) := by
        simp [List.filter_filter, not_or, and_comm]
      rw [h.add_of_not_mem hs, hmore, firstMentions_filter, List.filter_cons_of_pos (by simpa using hs),
        firstMentions, List.append_assoc, List.singleton_append]

namespace Automaton

variable {a : Automaton}

/-- The names that are used but not declared, in the order of their first use. -/
def undeclared (a : Automaton) : List State := firstMentions (a.mentions.filter (· ∉ a.states))

/-- The nodes of the diagram; the place in this list is the number. -/
def nodes (a : Automaton) : List State := a.states.toList ++ a.undeclared

theorem mem_undeclared {s : State} : s ∈ a.undeclared ↔ s ∈ a.mentions ∧ s ∉ a.states := by
  rw [undeclared, mem_firstMentions, List.mem_filter, decide_eq_true_iff]

theorem mem_nodes {s : State} : s ∈ a.nodes ↔ s ∈ a.states ∨ s ∈ a.mentions := by
  rw [nodes, List.mem_append, mem_undeclared, SortedSet.mem_toList]
  by_cases hs : s ∈ a.states <;> simp [hs]

theorem nodup_nodes (a : Automaton) : a.nodes.Nodup := by
  rw [nodes, List.nodup_append]
  refine ⟨a.states.ascending.imp Std.ne_of_lt, nodup_firstMentions _, ?_⟩
  rintro s hs _ ht rfl
  exact (mem_undeclared.1 ht).2 hs

theorem nodes_declaredNumbering (a : Automaton) : a.declaredNumbering.nodes = a.states.toList := by
  have hall : a.states.toList.filter (· ∉ Numbering.empty.nodes) = a.states.toList :=
    List.filter_eq_self.2 (by simp [Numbering.empty])
  rw [declaredNumbering, (Numbering.sound_empty _).nodes_foldl_add, hall,
    firstMentions_of_nodup (a.states.ascending.imp Std.ne_of_lt)]
  rfl

theorem nodes_numbering (a : Automaton) : a.numbering.nodes = a.nodes := by
  rw [numbering_eq, a.sound_declaredNumbering.nodes_foldl_add, nodes_declaredNumbering]
  rfl

/-! ## Names that are used -/

theorem start_mem_nodes (h : a.start ≠ "") : a.start ∈ a.nodes :=
  mem_nodes.2 (.inr (start_mem_mentions h))

theorem ends_mem_nodes {e : Edge} (h : e ∈ a.edges) : e.source ∈ a.nodes ∧ e.target ∈ a.nodes := by
  obtain ⟨hs, ht⟩ := ends_mem_mentions h
  exact ⟨mem_nodes.2 (.inr hs), mem_nodes.2 (.inr ht)⟩

/-- A name is at the place that its number says, and at no other. -/
theorem getElem?_nodes {n : Nat} {s : State} :
    a.nodes[n]? = some s ↔ s ∈ a.nodes ∧ a.nodes.idxOf s = n := by
  constructor
  · intro h
    obtain ⟨hn, rfl⟩ := List.getElem?_eq_some_iff.1 h
    exact ⟨List.getElem_mem hn, (nodup_nodes a).idxOf_getElem n hn⟩
  · rintro ⟨hs, rfl⟩
    exact List.getElem?_idxOf hs

theorem Declared.mentions_subset (h : a.Declared) {s : State} (hs : s ∈ a.mentions) :
    s ∈ a.states := by
  rcases List.mem_append.1 hs with hs | hs
  · split at hs
    · cases hs
    · rw [List.mem_singleton.1 hs]
      exact h.start_mem
  · obtain ⟨e, he, hs⟩ := List.mem_flatMap.1 hs
    obtain ⟨hsource, -, htarget⟩ := h.mem_of_edge he
    rcases List.mem_pair.1 hs with rfl | rfl
    · exact hsource
    · exact htarget

theorem Declared.undeclared_eq_nil (h : a.Declared) : a.undeclared = [] := by
  refine List.eq_nil_iff_forall_not_mem.2 fun s hs => ?_
  obtain ⟨hs, hnot⟩ := mem_undeclared.1 hs
  exact hnot (h.mentions_subset hs)

theorem Declared.nodes_eq (h : a.Declared) : a.nodes = a.states.toList := by
  rw [nodes, h.undeclared_eq_nil, List.append_nil]

end Automaton

end AutomatonGrammar
