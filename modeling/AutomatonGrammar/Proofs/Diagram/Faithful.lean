import AutomatonGrammar.Proofs.Diagram.Drawing
import AutomatonGrammar.Proofs.Diagram.Merged
import AutomatonGrammar.Proofs.Diagram.RoundTrip
import Mathlib.Data.List.Forall2

/-!
# What the DOT text of an automaton says

The text of a diagram is read back as that diagram (`Dot.read_text`), and the diagram of an automaton
shows its nodes, its start state and its transitions (`Diagram.Shows`), so the text says these, and says
nothing else. Two automata drawn with one arrow per transition in the same text have the same nodes,
start state and transitions (`Dot.read_text_diagram`).
-/

namespace AutomatonGrammar

/-- The symbols that lead from one node to another, by their numbers. -/
def Automaton.symbolsBetween (a : Automaton) (s t : Nat) : List Symbol :=
  (a.edges.filter fun e => a.nodes[s]? = some e.source ∧ a.nodes[t]? = some e.target).map Edge.symbol

namespace Diagram

/-- An arrow that stands for one transition, in a diagram with these nodes. -/
structure Arrow.Draws (nodes : List State) (x : Arrow) (e : Edge) : Prop where
  source : nodes[x.source]? = some e.source
  target : nodes[x.target]? = some e.target
  label : x.label = e.symbol

theorem Arrow.Draws.rightUnique (nodes : List State) : Relator.RightUnique (Draws nodes) := by
  rintro x ⟨_, _, _⟩ ⟨_, _, _⟩ he hf
  cases he.source.symm.trans hf.source
  cases he.target.symm.trans hf.target
  cases he.label.symm.trans hf.label
  rfl

/-- A diagram that shows an automaton under the given options. Numbers of nodes are places in the list
of nodes, of which no two are the same. -/
structure Shows (d : Diagram) (a : Automaton) (o : Options) : Prop where
  horizontal : d.horizontal = o.horizontal
  nodes : d.nodes = a.nodes.map fun s => ⟨s, a.isAccepting s⟩
  noEntry : d.entry = none ↔ a.start = ""
  entry : ∀ n ∈ d.entry, a.nodes[n]? = some a.start
  separate : o.merged = false → List.Forall₂ (Arrow.Draws a.nodes) d.arrows a.edges
  ascending : o.merged = true → d.arrows.Pairwise Arrow.Before
  merged : o.merged = true → ∀ x, x ∈ d.arrows ↔ a.symbolsBetween x.source x.target ≠ [] ∧
    x.label = ", ".intercalate (a.symbolsBetween x.source x.target)

/-! ## The diagram of an automaton -/

theorem draws_arrows (a : Automaton) : List.Forall₂ (Arrow.Draws a.nodes) a.arrows a.edges := by
  rw [Automaton.arrows, List.forall₂_map_left_iff, List.forall₂_same]
  intro e he
  obtain ⟨hs, ht⟩ := Automaton.ends_mem_nodes he
  exact ⟨Automaton.getElem?_nodes.2 ⟨hs, rfl⟩, Automaton.getElem?_nodes.2 ⟨ht, rfl⟩, rfl⟩

theorem labelsBetween_arrows (a : Automaton) (s t : Nat) :
    labelsBetween a.arrows s t = a.symbolsBetween s t := by
  rw [labelsBetween, Automaton.arrows, List.filter_map, List.map_map, Automaton.symbolsBetween]
  congr 1
  apply List.filter_congr
  intro e he
  obtain ⟨hs, ht⟩ := Automaton.ends_mem_nodes he
  simp [Automaton.getElem?_nodes, hs, ht]

theorem shows_diagram (a : Automaton) (o : Options) : (a.diagram o).Shows a o where
  horizontal := by rw [a.diagram_eq]
  nodes := by rw [a.diagram_eq]
  noEntry := by
    simp [a.diagram_eq]
  entry := by
    intro n hn
    by_cases h : a.start = ""
    · simp [a.diagram_eq, h] at hn
    · simp only [a.diagram_eq, if_neg h] at hn
      cases hn
      exact Automaton.getElem?_nodes.2 ⟨Automaton.start_mem_nodes h, rfl⟩
  separate := by
    intro h
    simp only [a.diagram_eq, h]
    exact draws_arrows a
  ascending := by
    intro h
    simp only [a.diagram_eq, h]
    exact pairwise_mergeArrows _
  merged := by
    intro h x
    simp only [a.diagram_eq, h, ↓reduceIte, mem_mergeArrows, labelsBetween_arrows]

/-! ## Diagrams that show two automata -/

theorem nodes_eq_of_shows {d : Diagram} {a b : Automaton} {o p : Options} (ha : d.Shows a o)
    (hb : d.Shows b p) : a.nodes = b.nodes ∧ ∀ s ∈ a.nodes, a.isAccepting s = b.isAccepting s := by
  have h := ha.nodes.symm.trans hb.nodes
  have hnodes : a.nodes = b.nodes := by
    simpa [Function.comp_def] using congrArg (List.map Node.name) h
  refine ⟨hnodes, fun s hs => ?_⟩
  rw [hnodes, List.map_inj_left] at h
  simpa using h s (hnodes ▸ hs)

theorem start_eq_of_shows {d : Diagram} {a b : Automaton} {o p : Options} (ha : d.Shows a o)
    (hb : d.Shows b p) : a.start = b.start := by
  cases hd : d.entry with
  | none => rw [ha.noEntry.1 hd, hb.noEntry.1 hd]
  | some n =>
    have hstart := ha.entry n hd
    rw [(nodes_eq_of_shows ha hb).1, hb.entry n hd] at hstart
    exact (Option.some.inj hstart).symm

theorem edges_eq_of_shows {d : Diagram} {a b : Automaton} {o p : Options} (ha : d.Shows a o)
    (hb : d.Shows b p) (ho : o.merged = false) (hp : p.merged = false) : a.edges = b.edges := by
  have hdb := hb.separate hp
  rw [← (nodes_eq_of_shows ha hb).1] at hdb
  exact List.right_unique_forall₂' (Arrow.Draws.rightUnique _) (ha.separate ho) hdb

end Diagram

namespace Dot

/-- **The text of a diagram says what the diagram shows**, whatever the names in it, and tells automata
apart that do not show the same. -/
theorem read_text_diagram (a : Automaton) (o : Diagram.Options) :
    (∃ d, read (a.diagram o).text = some d ∧ d.Shows a o) ∧
      ∀ (b : Automaton) (p : Diagram.Options), o.merged = false → p.merged = false →
        (a.diagram o).text = (b.diagram p).text →
        a.nodes = b.nodes ∧ (∀ s ∈ a.nodes, a.isAccepting s = b.isAccepting s) ∧
          a.start = b.start ∧ a.edges = b.edges := by
  refine ⟨⟨_, read_text _, Diagram.shows_diagram a o⟩, fun b p ho hp htext => ?_⟩
  -- one text is one diagram, which then shows both automata
  have hread := (congrArg read htext).symm
  rw [read_text, read_text] at hread
  have ha := Diagram.shows_diagram a o
  have hb : (a.diagram o).Shows b p := Option.some.inj hread ▸ Diagram.shows_diagram b p
  obtain ⟨hnodes, haccepting⟩ := Diagram.nodes_eq_of_shows ha hb
  exact ⟨hnodes, haccepting, Diagram.start_eq_of_shows ha hb,
    Diagram.edges_eq_of_shows ha hb ho hp⟩

/-- An automaton with a name that looks like the end of its node and the start of an arrow, and with a
symbol that is a backslash. -/
def bracketName : Automaton :=
  .ofParts ["\"]; n0 -> n1"] ["\\"] [⟨"\"]; n0 -> n1", "\\", "q"⟩] "q" []

theorem read_text_bracketName :
    (∃ d, read (bracketName.diagram {}).text = some d ∧ d.Shows bracketName {}) ∧
      bracketName.edges = { bracketName with accepting := .ofList ["r"] }.edges := by
  have h := read_text_diagram bracketName {}
  have hd : bracketName.diagram {} =
      { bracketName with accepting := .ofList ["r"] }.diagram {} := by decide
  exact ⟨h.1, (h.2 _ _ rfl rfl (congrArg Diagram.text hd)).2.2.2⟩

end Dot

end AutomatonGrammar
