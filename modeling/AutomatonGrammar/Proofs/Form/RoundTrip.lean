import AutomatonGrammar.Proofs.Form.Names
import Mathlib.Tactic.TFAE

/-!
# Which automata a form can describe

The fields of a form escape nothing. `Expressible a` lists what the names of `a` must not contain for
its fields to be read back, and the same holds of every automaton that is read from any form. So the
fields of an automaton describe it exactly if some form does (`read_ofAutomaton_tfae`).
-/

namespace AutomatonGrammar.Form

open Text

/-- An automaton that the fields of a form can describe. -/
structure Expressible (a : Automaton) : Prop where
  states : ∀ s ∈ a.states, IsListName s
  alphabet : ∀ x ∈ a.alphabet, IsListName x
  accepting : ∀ s ∈ a.accepting, IsListName s
  start : trim a.start.toList = a.start.toList
  noEmptyRow : a.transitions.NoEmptyRow
  isEdge : ∀ e ∈ a.edges, IsEdge e

theorem expressible_of_read {f : Form} {a : Automaton} (h : f.read = .ok a) : Expressible a := by
  unfold read at h
  cases ht : readTransitions f.transitions with
  | error refused =>
    rw [ht] at h
    cases h
  | ok t =>
    rw [ht] at h
    cases h
    have hw := Written.of_readTransitions ht
    refine ⟨?_, ?_, ?_, ?_, hw.noEmptyRow, hw.isEdge⟩
    · exact fun s hs => isListName_of_mem_readNames (SortedSet.mem_ofList.1 hs)
    · exact fun x hx => isListName_of_mem_readNames (SortedSet.mem_ofList.1 hx)
    · exact fun s hs => isListName_of_mem_readNames (SortedSet.mem_ofList.1 hs)
    · simp [trim_trim]

theorem read_ofAutomaton {a : Automaton} (h : Expressible a) : (ofAutomaton a).read = .ok a := by
  have ht : readTransitions (ofAutomaton a).transitions = .ok a.transitions :=
    readTransitions_written ⟨h.noEmptyRow, h.isEdge⟩
  rw [read, ht]
  simp only [ofAutomaton, ofList_readNames_names h.states, ofList_readNames_names h.alphabet,
    ofList_readNames_names h.accepting, h.start, String.ofList_toList]

/-- **The fields of an automaton are read back exactly if a form can describe it at all**, which is a
matter of its names and of its rows. -/
theorem read_ofAutomaton_tfae (a : Automaton) :
    [(ofAutomaton a).read = .ok a, ∃ f : Form, f.read = .ok a, Expressible a].TFAE := by
  tfae_have 1 → 2 := fun h => ⟨_, h⟩
  tfae_have 2 → 3 := fun ⟨_, h⟩ => expressible_of_read h
  tfae_have 3 → 1 := read_ofAutomaton
  tfae_finish

/-- Dashes and arrows next to the arrow that counts. -/
example : let a : Automaton := .ofParts ["q-"] ["a-"] [⟨"q-", "a-", "->,q"⟩] "q-" []
    (ofAutomaton a).read = .ok a := by
  decide

end AutomatonGrammar.Form
