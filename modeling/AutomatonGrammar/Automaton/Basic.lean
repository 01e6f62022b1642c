import AutomatonGrammar.Sorted.Map

/-!
# Deterministic finite automata

An `Automaton` is its five components: states, alphabet, transitions, start state, accepting states.
Nothing is checked when one is made; a start state that is not a state, or a transition into an
undeclared state, is kept as it is (`Automaton.validate` reports them). The transition function is
partial: a missing entry is simply absent.

    (t.put e).get? s x = if s = e.source ∧ x = e.symbol then some e.target else t.get? s x
                                                                       (Transitions.get?_put)
    e ∈ t.edges ↔ t.get? e.source e.symbol = some e.target             (Transitions.mem_edges)
-/

namespace AutomatonGrammar

/-- The name of a state. -/
abbrev State := String

/-- The name of a symbol of the alphabet. -/
abbrev Symbol := String

/-- A transition: reading `symbol` in `source` leads to `target`. -/
structure Edge where
  source : State
  symbol : Symbol
  target : State
deriving DecidableEq, Repr

/-- The transitions that leave one state. -/
abbrev Row := SortedMap Symbol State

/-- A partial transition function, one row per source. A row may be empty. -/
abbrev Transitions := SortedMap State Row

/-! ## Transitions -/

namespace Transitions

/-- The row of `source`; empty where there is none. -/
def row (t : Transitions) (source : State) : Row := (SortedMap.get? t source).getD ∅

/-- Where `symbol` leads from `source`. -/
def get? (t : Transitions) (source : State) (symbol : Symbol) : Option State :=
  (t.row source).get? symbol

/-- Adds one transition, in place of one with the same source and symbol. -/
def put (t : Transitions) (e : Edge) : Transitions :=
  t.insert e.source ((t.row e.source).insert e.symbol e.target)

/-- The transitions `es`; of two with the same source and symbol the later counts. -/
def ofEdges (es : List Edge) : Transitions := es.foldl put ∅

/-- All transitions, in ascending order of source, then symbol. -/
def edges (t : Transitions) : List Edge :=
  t.toList.flatMap fun (source, row) => row.toList.map fun (symbol, target) =>
    { source, symbol, target }

theorem row_put (t : Transitions) (e : Edge) (s : State) :
    (t.put e).row s = if s = e.source then (t.row s).insert e.symbol e.target else t.row s := by
  simp only [row, put, SortedMap.get?_insert]
  split
  · next h => subst h; rfl
  · rfl

theorem get?_put (t : Transitions) (e : Edge) (s : State) (x : Symbol) :
    (t.put e).get? s x = if s = e.source ∧ x = e.symbol then some e.target else t.get? s x := by
  simp only [get?, row_put]
  by_cases hs : s = e.source
  · subst hs; simp [SortedMap.get?_insert]
  · simp [hs]

theorem mem_edges {t : Transitions} {e : Edge} :
    e ∈ t.edges ↔ t.get? e.source e.symbol = some e.target := by
  obtain ⟨s, x, q⟩ := e
  simp only [edges, List.mem_flatMap, List.mem_map, Prod.exists, Edge.mk.injEq, get?, row,
    SortedMap.mem_toList_iff]
  constructor
  · rintro ⟨_, r, hr, _, _, hx, rfl, rfl, rfl⟩
    simpa [hr] using hx
  · intro h
    cases hr : SortedMap.get? t s with
    | none => simp [hr] at h
    | some r => exact ⟨s, r, hr, x, q, by simpa [hr] using h, rfl, rfl, rfl⟩

end Transitions

/-! ## Automata -/

/-- A deterministic finite automaton, given by its five components. -/
structure Automaton where
  states : SortedSet State
  alphabet : SortedSet Symbol
  transitions : Transitions
  start : State
  accepting : SortedSet State
deriving DecidableEq, Inhabited

namespace Automaton

/-- The automaton in which every component is empty. -/
def empty : Automaton := ⟨∅, ∅, ∅, "", ∅⟩

/-- The automaton of loose parts: names in any order and any number, and transitions of which the
later counts where two have the same source and symbol. -/
def ofParts (states : List State) (alphabet : List Symbol) (edges : List Edge) (start : State)
    (accepting : List State) : Automaton where
  states := .ofList states
  alphabet := .ofList alphabet
  transitions := .ofEdges edges
  start := start
  accepting := .ofList accepting

variable (a : Automaton)

/-- Where `symbol` leads from `source`. -/
def step? (source : State) (symbol : Symbol) : Option State := a.transitions.get? source symbol

def isAccepting (s : State) : Bool := decide (s ∈ a.accepting)

/-- All transitions, in ascending order of source, then symbol. -/
def edges : List Edge := a.transitions.edges

def edgeCount : Nat := a.transitions.toList.foldr (fun (_, row) n => row.size + n) 0

/-- The destinations of the transitions that leave `s`, on any symbol. -/
def successors (s : State) : List State := (a.transitions.row s).toList.map Prod.snd

end Automaton

end AutomatonGrammar
