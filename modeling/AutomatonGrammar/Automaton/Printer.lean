import AutomatonGrammar.Automaton.Basic
import AutomatonGrammar.Log
import AutomatonGrammar.Text.Quoted

/-!
# Automata in the log

An automaton written out in full, component by component and on one line. Every name is quoted, and
marked as that of a state or of a symbol, so that no name can be taken for a part of the layout.
-/

namespace AutomatonGrammar

namespace Automaton

def displayState (s : State) : String := "State(" ++ Text.quoted s ++ ")"

def displaySymbol (x : Symbol) : String := "Symbol(" ++ Text.quoted x ++ ")"

/-- Items between braces, separated by commas. -/
def displayItems (items : List String) : String := "\x7b" ++ ", ".intercalate items ++ "\x7d"

end Automaton

open Automaton

def Row.display (row : Row) : String :=
  displayItems (row.toList.map fun (x, t) => displaySymbol x ++ ": " ++ displayState t)

def Transitions.display (t : Transitions) : String :=
  displayItems (t.toList.map fun (s, row) => displayState s ++ ": " ++ Row.display row)

namespace Automaton

variable (a : Automaton)

/-- The automaton in full. -/
def display : String :=
  "DFA \x7b states: " ++ displayItems (a.states.toList.map displayState) ++
  ", alphabet: " ++ displayItems (a.alphabet.toList.map displaySymbol) ++
  ", transitions: " ++ a.transitions.display ++
  ", start_state: " ++ displayState a.start ++
  ", accept_states: " ++ displayItems (a.accepting.toList.map displayState) ++ " \x7d"

/-- What is logged when the automaton of a command has been loaded. -/
def note : Log.Entry where
  level := .debug
  topic := .command
  text := "loaded " ++ a.display

end Automaton

end AutomatonGrammar
