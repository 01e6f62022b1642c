import AutomatonGrammar.Form.Line

/-!
# Automata as five fields of text

A `Form` describes an automaton in five text fields: three lists of names separated by commas, the
start state, and the transitions, one per line.
-/

namespace AutomatonGrammar

structure Form where
  states : String
  alphabet : String
  start : String
  accepting : String
  transitions : String
deriving DecidableEq, Repr

namespace Form

/-- The form with nothing filled in. -/
def empty : Form := ⟨"", "", "", "", ""⟩

/-- The names of a list separated by commas, without the blanks around them; empty ones are dropped. -/
def readNames (text : String) : List String :=
  (((Text.split ',' text.toList).map Text.trim).filter (· ≠ [])).map String.ofList

/-- The automaton that the fields describe. -/
def read (f : Form) : Except RefusedLine Automaton :=
  match readTransitions f.transitions with
  | .error refused => .error refused
  | .ok transitions => .ok {
      states := .ofList (readNames f.states)
      alphabet := .ofList (readNames f.alphabet)
      transitions
      start := .ofList (Text.trim f.start.toList)
      accepting := .ofList (readNames f.accepting) }

/-- Names separated by commas. -/
def names (s : SortedSet String) : String := ",".intercalate s.toList

/-- The fields that describe `a`. -/
def ofAutomaton (a : Automaton) : Form where
  states := names a.states
  alphabet := names a.alphabet
  start := a.start
  accepting := names a.accepting
  transitions := "\n".intercalate (a.edges.map edgeLine)

end Form

end AutomatonGrammar
