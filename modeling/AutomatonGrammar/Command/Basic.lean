import AutomatonGrammar.Form.Basic

/-!
# Commands

What the program can be asked to do: print the grammar of an automaton, draw it, save it as a record,
or describe a saved one by the fields of a form.
-/

namespace AutomatonGrammar

/-- Where an automaton comes from: the record at a path if one is given, else the fields of a form. -/
structure Source where
  json : Option String := none
  states : Option String := none
  alphabet : Option String := none
  start : Option String := none
  accepting : Option String := none
  /-- Texts of transitions, one or more lines each. -/
  transitions : List String := []
  /-- Whether an automaton with undeclared names is refused. -/
  strict : Bool := false
deriving DecidableEq, Repr

/-- The form that is filled in by a source. -/
def Source.form (s : Source) : Form where
  states := s.states.getD ""
  alphabet := s.alphabet.getD ""
  start := s.start.getD ""
  accepting := s.accepting.getD ""
  transitions := "\n".intercalate s.transitions

inductive Command where
  /-- Print the grammar; the long report if `long`. -/
  | convert (source : Source) (long : Bool)
  /-- Draw the diagram into a file named `output` with the ending `format`. -/
  | plot (source : Source) (output format : String) (vertical merged : Bool)
  /-- Write the record to a file at the path `target`. -/
  | save (source : Source) (target : String)
  /-- Print the form of the record at the path `file`. -/
  | describe (file : String)
deriving DecidableEq, Repr

end AutomatonGrammar
