import AutomatonGrammar.Automaton.Malformation

/-!
# Automata that declare what they use

`Declared a` lists what `Automaton.validate` looks at: there is a state, and the start state, the
accepting states, the sources of rows, the symbols and the destinations are all declared. The source of
a row counts even if the row is empty.

    a.validate = .ok () ↔ a.Declared                               (Automaton.validate_ok_iff)
-/

namespace AutomatonGrammar

namespace Automaton

/-- Every name that `a` uses is declared, and there is a state. -/
structure Declared (a : Automaton) : Prop where
  nonempty : a.states.isEmpty = false
  start_mem : a.start ∈ a.states
  accepting_mem : ∀ s ∈ a.accepting, s ∈ a.states
  source_mem : ∀ s row, (s, row) ∈ a.transitions.toList → s ∈ a.states
  symbol_mem : ∀ s x t, a.step? s x = some t → x ∈ a.alphabet
  target_mem : ∀ s x t, a.step? s x = some t → t ∈ a.states

variable {a : Automaton}

/-- A transition is an entry of a row. -/
theorem step?_eq_some_iff {s t : State} {x : Symbol} :
    a.step? s x = some t ↔ ∃ row, (s, row) ∈ a.transitions.toList ∧ (x, t) ∈ row.toList := by
  show Transitions.get? a.transitions s x = some t ↔ _
  simp only [Transitions.get?, Transitions.row, SortedMap.mem_toList_iff]
  cases SortedMap.get? a.transitions s with
  | none => simp
  | some row => simp

theorem rowMalformations_eq_nil_iff {s : State} {row : Row} :
    a.rowMalformations s row = [] ↔
      s ∈ a.states ∧ ∀ x t, (x, t) ∈ row.toList → x ∈ a.alphabet ∧ t ∈ a.states := by
  simp only [rowMalformations, entryMalformations, List.append_eq_nil_iff, List.flatMap_eq_nil_iff,
    Prod.forall, ite_eq_left_iff, List.cons_ne_nil, imp_false, Decidable.not_not]

theorem malformations_eq_nil_iff :
    a.malformations = [] ↔ a.states.isEmpty = false ∧ a.start ∈ a.states ∧
      (∀ s ∈ a.accepting, s ∈ a.states) ∧
      ∀ s row, (s, row) ∈ a.transitions.toList → a.rowMalformations s row = [] := by
  simp only [malformations, List.append_eq_nil_iff, List.flatMap_eq_nil_iff, Prod.forall,
    List.map_eq_nil_iff, List.filter_eq_nil_iff, ite_eq_left_iff, ite_eq_right_iff,
    List.cons_ne_nil, imp_false, Decidable.not_not, Bool.not_eq_true, decide_eq_true_eq,
    SortedSet.mem_toList, and_assoc]

theorem validate_ok_iff : a.validate = .ok () ↔ a.Declared := by
  rw [validate_eq_ok_iff, malformations_eq_nil_iff]
  simp only [rowMalformations_eq_nil_iff]
  constructor
  · rintro ⟨hne, hstart, hacc, hrow⟩
    refine ⟨hne, hstart, hacc, fun s row hm => (hrow s row hm).1, ?_, ?_⟩
    · intro s x t h
      obtain ⟨row, hm, hx⟩ := step?_eq_some_iff.1 h
      exact ((hrow s row hm).2 x t hx).1
    · intro s x t h
      obtain ⟨row, hm, hx⟩ := step?_eq_some_iff.1 h
      exact ((hrow s row hm).2 x t hx).2
  · intro h
    refine ⟨h.nonempty, h.start_mem, h.accepting_mem, fun s row hm => ⟨h.source_mem s row hm, ?_⟩⟩
    intro x t hx
    have hstep : a.step? s x = some t := step?_eq_some_iff.2 ⟨row, hm, hx⟩
    exact ⟨h.symbol_mem s x t hstep, h.target_mem s x t hstep⟩

theorem Declared.mem_of_edge (h : a.Declared) {e : Edge} (he : e ∈ a.edges) :
    e.source ∈ a.states ∧ e.symbol ∈ a.alphabet ∧ e.target ∈ a.states := by
  have hstep : a.step? e.source e.symbol = some e.target := Transitions.mem_edges.1 he
  obtain ⟨row, hrow, -⟩ := step?_eq_some_iff.1 hstep
  exact ⟨h.source_mem _ _ hrow, h.symbol_mem _ _ _ hstep, h.target_mem _ _ _ hstep⟩

end Automaton

end AutomatonGrammar
