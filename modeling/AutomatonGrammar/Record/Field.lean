import AutomatonGrammar.Automaton.Basic

/-!
# The fields of a record

A JSON record of an automaton has five fields. A `Draft` holds those read so far.
-/

namespace AutomatonGrammar.Record

inductive Field where
  | states
  | alphabet
  | transitions
  | start
  | accepting
deriving DecidableEq, Repr

namespace Field

/-- All fields, in the order in which they are written. -/
def all : List Field := [states, alphabet, transitions, start, accepting]

def name : Field → String
  | states => "states"
  | alphabet => "alphabet"
  | transitions => "transitions"
  | start => "start_state"
  | accepting => "accept_states"

/-- The field of the given name. -/
def ofName? (name : String) : Option Field := all.find? (·.name = name)

end Field

/-- The components of an automaton as far as they are known. -/
structure Draft where
  states : Option (SortedSet State)
  alphabet : Option (SortedSet Symbol)
  transitions : Option Transitions
  start : Option State
  accepting : Option (SortedSet State)
deriving DecidableEq

namespace Draft

def empty : Draft := ⟨none, none, none, none, none⟩

/-- Whether a field is known. -/
def has (d : Draft) : Field → Bool
  | .states => d.states.isSome
  | .alphabet => d.alphabet.isSome
  | .transitions => d.transitions.isSome
  | .start => d.start.isSome
  | .accepting => d.accepting.isSome

/-- The automaton of a draft in which all is known, or the first field that is missing. -/
def complete : Draft → Except Field Automaton
  | ⟨some states, some alphabet, some transitions, some start, some accepting⟩ =>
    .ok { states, alphabet, transitions, start, accepting }
  | ⟨none, _, _, _, _⟩ => .error .states
  | ⟨_, none, _, _, _⟩ => .error .alphabet
  | ⟨_, _, none, _, _⟩ => .error .transitions
  | ⟨_, _, _, none, _⟩ => .error .start
  | ⟨_, _, _, _, none⟩ => .error .accepting

end Draft

end AutomatonGrammar.Record
