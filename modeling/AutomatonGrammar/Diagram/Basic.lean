import AutomatonGrammar.Diagram.Numbering

/-!
# Transition diagrams

A `Diagram` is what is drawn of an automaton: numbered nodes with their names, the node where the entry
arrow points, and arrows between nodes. Arrows are drawn one per transition, or merged: one per pair of
nodes, labelled with all symbols between them.
-/

namespace AutomatonGrammar

structure Diagram.Node where
  name : State
  accepting : Bool
deriving DecidableEq, Repr

/-- An arrow between two numbered nodes. -/
structure Diagram.Arrow where
  source : Nat
  target : Nat
  label : String
deriving DecidableEq, Repr

structure Diagram.Options where
  /-- Whether the diagram runs from left to right, and not from top to bottom. -/
  horizontal : Bool := true
  /-- Whether arrows between the same nodes are drawn as one. -/
  merged : Bool := false
deriving DecidableEq, Repr

structure Diagram where
  horizontal : Bool
  nodes : List Diagram.Node
  /-- The number of the node that the entry arrow points at. -/
  entry : Option Nat
  arrows : List Diagram.Arrow
deriving DecidableEq, Repr

namespace Diagram

/-! ## Merged arrows -/

/-- Labels by source, then by target. -/
abbrev Groups := SortedMap Nat (SortedMap Nat (List String))

namespace Groups

def row (g : Groups) (source : Nat) : SortedMap Nat (List String) := (SortedMap.get? g source).getD ∅

/-- The labels of the arrows from `source` to `target`. -/
def labels (g : Groups) (source target : Nat) : List String :=
  ((g.row source).get? target).getD []

/-- Adds the label of an arrow behind those of the other arrows between the same nodes. -/
def add (g : Groups) (arrow : Arrow) : Groups :=
  g.insert arrow.source <| (g.row arrow.source).insert arrow.target
    (g.labels arrow.source arrow.target ++ [arrow.label])

/-- One arrow per group, in ascending order of source, then target. -/
def arrows (g : Groups) : List Arrow :=
  g.toList.flatMap fun (source, row) => row.toList.map fun (target, labels) =>
    ⟨source, target, ", ".intercalate labels⟩

end Groups

/-- One arrow for each pair of nodes between which there are any. -/
def mergeArrows (arrows : List Arrow) : List Arrow :=
  Groups.arrows (arrows.foldl Groups.add ∅)

end Diagram

/-! ## Looking up numbers -/

namespace Numbering

variable (n : Numbering)

/-- The nodes in the order of their numbers, if it is known of each whether it accepts. -/
def drawNodes : Option (List Diagram.Node) :=
  n.nodes.zipIdx.mapM fun (name, k) => (n.finals[k]?).map fun accepting => { name, accepting }

/-- The number of the node where the entry arrow points; there is no such arrow if the start state is
empty. -/
def drawEntry (start : State) : Option (Option Nat) :=
  if start = "" then some none else (n.number? start).map some

/-- The arrow of a transition, if both its ends have numbers. -/
def drawArrow (e : Edge) : Option Diagram.Arrow := do
  return { source := ← n.number? e.source, target := ← n.number? e.target, label := e.symbol }

theorem mapM_eq_some_map {α β : Type} {f : α → Option β} {g : α → β} {l : List α}
    (h : ∀ x ∈ l, f x = some (g x)) : l.mapM f = some (l.map g) := by
  induction l with
  | nil => rfl
  | cons x l ih =>
    rw [List.mapM_cons, h x (.head _), ih fun y hy => h y (.tail _ hy)]
    rfl

variable {n} {accepts : State → Bool}

theorem Sound.drawNodes_eq (h : n.Sound accepts) :
    n.drawNodes = some (n.nodes.map fun s => ⟨s, accepts s⟩) := by
  have hnode : ∀ sk ∈ n.nodes.zipIdx, (n.finals[sk.2]?).map (Diagram.Node.mk sk.1) =
      some ⟨sk.1, accepts sk.1⟩ := by
    intro (s, k) hk
    rw [h.finals_eq, List.getElem?_map, List.mem_zipIdx_iff_getElem?.1 hk]
    rfl
  calc n.drawNodes
    _ = some (n.nodes.zipIdx.map fun sk => ⟨sk.1, accepts sk.1⟩) := mapM_eq_some_map hnode
    _ = some ((n.nodes.zipIdx.map Prod.fst).map fun s => ⟨s, accepts s⟩) := by rw [List.map_map]; rfl
    _ = some (n.nodes.map fun s => ⟨s, accepts s⟩) := by rw [List.zipIdx_map_fst]

theorem Sound.drawEntry_eq (h : n.Sound accepts) {start : State} (hstart : start ≠ "" → start ∈ n.nodes) :
    n.drawEntry start = some (if start = "" then none else some (n.nodes.idxOf start)) := by
  unfold drawEntry
  split
  · rfl
  · next hne =>
    rw [h.number?_eq_idxOf (hstart hne)]
    rfl

theorem Sound.drawArrow_eq (h : n.Sound accepts) {e : Edge} (hs : e.source ∈ n.nodes)
    (ht : e.target ∈ n.nodes) :
    n.drawArrow e = some ⟨n.nodes.idxOf e.source, n.nodes.idxOf e.target, e.symbol⟩ := by
  rw [drawArrow, h.number?_eq_idxOf hs, h.number?_eq_idxOf ht]
  rfl

end Numbering

namespace Automaton

variable (a : Automaton)

/-- What is drawn of an automaton, if no look-up fails. -/
def diagram? (options : Diagram.Options) : Option Diagram := do
  let n := a.numbering
  let nodes ← n.drawNodes
  let entry ← n.drawEntry a.start
  let arrows ← a.edges.mapM n.drawArrow
  return {
    horizontal := options.horizontal
    nodes
    entry
    arrows := if options.merged then Diagram.mergeArrows arrows else arrows }

/-- Every name that is used has a number, so no look-up fails, and what is found is the place of the
name. -/
theorem diagram?_eq (options : Diagram.Options) : a.diagram? options =
    let nodes := a.numbering.nodes
    let arrows : List Diagram.Arrow :=
      a.edges.map fun e => ⟨nodes.idxOf e.source, nodes.idxOf e.target, e.symbol⟩
    some {
      horizontal := options.horizontal
      nodes := nodes.map fun s => ⟨s, a.isAccepting s⟩
      entry := if a.start = "" then none else some (nodes.idxOf a.start)
      arrows := if options.merged then Diagram.mergeArrows arrows else arrows } := by
  have hn := a.sound_numbering
  have hused : ∀ s ∈ a.mentions, s ∈ a.numbering.nodes := fun s hs => a.mem_nodes_numbering.2 (.inr hs)
  have harrows := Numbering.mapM_eq_some_map fun e (he : e ∈ a.edges) =>
    hn.drawArrow_eq (hused _ (ends_mem_mentions he).1) (hused _ (ends_mem_mentions he).2)
  rw [diagram?, hn.drawNodes_eq, hn.drawEntry_eq fun h => hused _ (start_mem_mentions h), harrows]
  rfl

theorem isSome_diagram? (options : Diagram.Options) : (a.diagram? options).isSome := by
  rw [diagram?_eq]
  rfl

/-- What is drawn of an automaton. -/
def diagram (options : Diagram.Options) : Diagram :=
  (a.diagram? options).get (a.isSome_diagram? options)

end Automaton

end AutomatonGrammar
