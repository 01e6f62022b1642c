import AutomatonGrammar.Diagram.Basic
import AutomatonGrammar.Proofs.Diagram.Numbering

/-!
# Drawing by numbers

What is drawn of an automaton is looked up in the tables of its numbering. No look-up fails: the tables
belong together after every name that is entered, and they know every name that is drawn
(`numbering_exact`). So the diagram can be said without them, with the place of a name in the list of
nodes for its number (`diagram_eq`). Names behind the declared ones are warned of, each once.

    a.diagram? o = some (a.diagram o)                                               (diagram?_diagram)
    a.undeclaredNotes = a.undeclared.map undeclaredNote                      (undeclaredNotes_eq_map)
-/

namespace AutomatonGrammar

namespace Automaton

variable (a : Automaton)

/-- One arrow per transition. -/
def arrows : List Diagram.Arrow :=
  let nodes := a.nodes
  a.edges.map fun e => ⟨nodes.idxOf e.source, nodes.idxOf e.target, e.symbol⟩

theorem diagram?_diagram (o : Diagram.Options) : a.diagram? o = some (a.diagram o) :=
  (Option.some_get _).symm

theorem diagram_eq (o : Diagram.Options) : a.diagram o = {
    horizontal := o.horizontal
    nodes := a.nodes.map fun s => ⟨s, a.isAccepting s⟩
    entry := if a.start = "" then none else some (a.nodes.idxOf a.start)
    arrows := if o.merged then Diagram.mergeArrows a.arrows else a.arrows } := by
  have h := (a.diagram?_diagram o).symm.trans (a.diagram?_eq o)
  rw [nodes_numbering] at h
  exact Option.some.inj h

/-! ## Warnings -/

/-- The warning about a name that is not declared. -/
def undeclaredNote (s : State) : Log.Entry where
  level := .warn
  topic := .diagram
  text := "state " ++ s ++ " is used but never declared"

theorem undeclaredNotes_eq_map : a.undeclaredNotes = a.undeclared.map undeclaredNote := by
  rw [undeclaredNotes, nodes_numbering, nodes_declaredNumbering, nodes, List.drop_left]
  rfl

theorem filter_nodes : a.nodes.filter (· ∉ a.states) = a.undeclared := by
  have hdeclared : a.states.toList.filter (· ∉ a.states) = [] :=
    List.filter_eq_nil_iff.2 fun s hs => by simpa using hs
  have hundeclared : a.undeclared.filter (· ∉ a.states) = a.undeclared :=
    List.filter_eq_self.2 fun s hs => by simpa using (mem_undeclared.1 hs).2
  rw [nodes, List.filter_append, hdeclared, hundeclared, List.nil_append]

/-! ## Numbers of whatever is drawn -/

theorem mem_mentions {s : State} : s ∈ a.mentions ↔
    s = a.start ∧ s ≠ "" ∨ ∃ e ∈ a.edges, s = e.source ∨ s = e.target := by
  have hstart : s ∈ (if a.start = "" then [] else [a.start]) ↔ s = a.start ∧ s ≠ "" := by
    split
    · next h => simp [h]
    · next h =>
      rw [List.mem_singleton]
      exact ⟨fun hs => ⟨hs, hs ▸ h⟩, And.left⟩
  rw [mentions, List.mem_append, hstart, List.mem_flatMap]
  simp only [List.mem_pair]

/-- **Whatever is drawn has a number.**  The three tables of a numbering agree: no name is numbered twice,
the number of a name is its place and no other name has one, and it is known of each name whether it
accepts. The names are the declared states in ascending order, and behind them the others that the start
state and the transitions use, each at its first mention. So whatever is looked up for a diagram is found,
and there is one warning for each name that is not declared. -/
theorem numbering_exact (a : Automaton) :
    let n := a.numbering
    (n.nodes.Nodup ∧ (∀ s k, n.numbers.get? s = some k ↔ n.nodes[k]? = some s) ∧
      n.finals = n.nodes.map a.isAccepting) ∧
    n.nodes = a.states.toList ++ firstMentions (a.mentions.filter (· ∉ a.states)) ∧
    (∀ s, s ∈ n.nodes ↔ s ∈ a.states ∨ s = a.start ∧ s ≠ "" ∨
      ∃ e ∈ a.edges, s = e.source ∨ s = e.target) ∧
    ((a.start ≠ "" → ∃ k, n.numbers.get? a.start = some k) ∧
      (∀ e ∈ a.edges, ∃ i j, n.numbers.get? e.source = some i ∧ n.numbers.get? e.target = some j) ∧
      (∀ k, k < n.nodes.length → ∃ accepting, n.finals[k]? = some accepting) ∧
      ∀ o, a.diagram? o = some (a.diagram o)) ∧
    a.undeclaredNotes = (n.nodes.filter (· ∉ a.states)).map (fun s =>
      ⟨.warn, .diagram, "state " ++ s ++ " is used but never declared"⟩) ∧
    (a.validate = .ok () → a.undeclaredNotes = []) := by
  intro n
  have hn : n.Sound a.isAccepting := a.sound_numbering
  have hnodes : n.nodes = a.nodes := a.nodes_numbering
  have hfound : ∀ s ∈ a.nodes, n.numbers.get? s = some (a.nodes.idxOf s) := fun s hs =>
    hnodes ▸ hn.number?_eq_idxOf (hnodes ▸ hs)
  refine ⟨⟨hnodes ▸ nodup_nodes a, hn.number?_eq_some_iff, hn.finals_eq⟩, hnodes, fun s => ?_,
    ⟨fun h => ⟨_, hfound _ (start_mem_nodes h)⟩, fun e he => ?_, fun k hk => ?_, a.diagram?_diagram⟩,
    ?_, fun hv => ?_⟩
  · rw [hnodes, mem_nodes, mem_mentions]
  · obtain ⟨hs, ht⟩ := ends_mem_nodes he
    exact ⟨_, _, hfound _ hs, hfound _ ht⟩
  · rw [hn.finals_eq]
    exact ⟨_, List.getElem?_eq_getElem (by simpa using hk)⟩
  · rw [hnodes, filter_nodes, undeclaredNotes_eq_map]
    rfl
  · rw [undeclaredNotes_eq_map, (validate_ok_iff.1 hv).undeclared_eq_nil]
    rfl

/-- The start state and a name at both ends of transitions are not declared, the row of `idle` is empty, and
`away` accepts but is not used. -/
def strayNames : Automaton where
  states := .ofList ["s"]
  alphabet := .ofList ["x"]
  transitions := .ofList [("idle", ∅), ("s", .ofList [("x", "z"), ("y", "s")]), ("z", .ofList [("x", "i")])]
  start := "i"
  accepting := .ofList ["z", "away"]

/-- The same where every name is declared. -/
def declaredNames : Automaton :=
  { strayNames with states := .ofList ["s", "i", "z", "idle", "away"], alphabet := .ofList ["x", "y"] }

theorem numbering_exact_strayNames :
    strayNames.numbering.nodes = ["s", "i", "z"] ∧ strayNames.numbering.finals = [false, false, true] ∧
    strayNames.numbering.numbers.get? "z" = some 2 ∧ "idle" ∉ strayNames.numbering.nodes ∧
    (∃ k, strayNames.numbering.numbers.get? strayNames.start = some k) ∧
    (∃ i j, strayNames.numbering.numbers.get? "s" = some i ∧
      strayNames.numbering.numbers.get? "z" = some j) ∧
    (∃ accepting, strayNames.numbering.finals[2]? = some accepting) ∧
    strayNames.undeclaredNotes.map Log.Entry.text =
      ["state i is used but never declared", "state z is used but never declared"] ∧
    declaredNames.validate = .ok () ∧ declaredNames.undeclaredNotes = [] := by
  have hv : declaredNames.validate = .ok () := (validate_eq_ok_iff _).2 (by decide)
  have hnodes : strayNames.numbering.nodes = ["s", "i", "z"] := by decide
  obtain ⟨⟨-, hnumbers, hfinals⟩, -, hmem, ⟨hstart, hends, haccepting, -⟩, hnotes, -⟩ :=
    numbering_exact strayNames
  obtain ⟨-, -, -, -, -, hnone⟩ := numbering_exact declaredNames
  refine ⟨hnodes, ?_, (hnumbers "z" 2).2 (by rw [hnodes]; rfl), by rw [hmem]; decide, hstart (by decide),
    hends ⟨"s", "x", "z"⟩ (by decide), haccepting 2 (by rw [hnodes]; decide), ?_, hv, hnone hv⟩
  · rw [hfinals, hnodes]
    decide
  · rw [hnotes, hnodes]
    decide

end Automaton

end AutomatonGrammar
