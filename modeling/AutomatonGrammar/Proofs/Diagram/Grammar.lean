import AutomatonGrammar.Proofs.Diagram.Faithful
import AutomatonGrammar.Proofs.Grammar.Listing

/-!
# Diagrams and grammars of one automaton

The diagram is drawn from the rows of transitions and numbers its nodes itself, the grammar is made by
looking up the symbols of the alphabet. Where all names are declared the nodes are the states and no
others (`Automaton.Declared.nodes_eq`), and the transitions are the productions with a target in their
order (`Automaton.Declared.steps_grammar`). So what is read from the text of the diagram shows the grammar
(`Dot.read_text_shows_grammar`).
-/

namespace AutomatonGrammar

namespace Diagram

/-- A diagram that shows a grammar, one arrow for each production with a target. The numbers of the nodes
are the places of the non-terminals. -/
structure ShowsGrammar (d : Diagram) (g : Grammar) : Prop where
  nodes : d.nodes = g.nonTerminals.toList.map fun s => ⟨s, .epsilon ∈ g.rules s⟩
  noEntry : d.entry = none ↔ g.start = ""
  entry : ∀ n ∈ d.entry, g.nonTerminals.toList[n]? = some g.start
  arrows : List.Forall₂ (Arrow.Draws g.nonTerminals.toList) d.arrows g.steps

theorem Shows.showsGrammar {d : Diagram} {a : Automaton} {o : Options} (hd : d.Shows a o)
    (ha : a.Declared) (ho : o.merged = false) : d.ShowsGrammar a.grammar where
  nodes := by
    rw [hd.nodes, ha.nodes_eq]
    refine List.map_congr_left fun s hs => congrArg (Node.mk s) ?_
    rw [Bool.eq_iff_iff, decide_eq_true_iff, Automaton.epsilon_mem_rules]
    exact (and_iff_right hs).symm
  noEntry := hd.noEntry
  entry := by
    intro n hn
    have hstart := hd.entry n hn
    rw [ha.nodes_eq] at hstart
    exact hstart
  arrows := by
    have harrows := hd.separate ho
    rw [ha.nodes_eq, ← ha.steps_grammar] at harrows
    exact harrows

end Diagram

namespace Dot

/-- **The diagram and the grammar of a validated automaton say the same.**  The nodes in the text of the
diagram are the non-terminals in their order, drawn as accepting where there is an `ε` production, the
entry arrow points at the start symbol unless that is empty, and the arrows are the productions with a
target, non-terminal by non-terminal. -/
theorem read_text_shows_grammar {a : Automaton} (hv : a.validate = .ok ()) {o : Diagram.Options}
    (ho : o.merged = false) :
    ∃ d, read (a.diagram o).text = some d ∧ d.horizontal = o.horizontal ∧ d.ShowsGrammar a.grammar := by
  have hd := Diagram.shows_diagram a o
  exact ⟨_, read_text _, hd.horizontal, hd.showsGrammar (Automaton.validate_ok_iff.1 hv) ho⟩

/-- The nameless state accepts and is a node like any other. -/
theorem read_text_shows_grammar_nameless :
    Automaton.nameless.validate = .ok () ∧
    (∃ d, read (Automaton.nameless.diagram { horizontal := false }).text = some d ∧
      d.horizontal = false ∧ d.ShowsGrammar Automaton.nameless.grammar) ∧
    Automaton.nameless.grammar.steps = [⟨"s", "a", ""⟩, ⟨"s", "ε", "s"⟩] := by
  have hv : Automaton.nameless.validate = .ok () := (Automaton.validate_eq_ok_iff _).2 (by decide)
  exact ⟨hv, read_text_shows_grammar hv rfl, by decide⟩

end Dot

end AutomatonGrammar
