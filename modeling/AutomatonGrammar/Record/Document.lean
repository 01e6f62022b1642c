import AutomatonGrammar.Automaton.Printer
import AutomatonGrammar.Output
import AutomatonGrammar.Record.Printer
import AutomatonGrammar.Record.Reader

/-!
# Records in files
-/

namespace AutomatonGrammar.Record

/-- The automaton of the record at a path, where `contents` is what reading the file there has given. -/
def ofContents (path : String) : (contents : Except FileFault String) → Except Error Automaton
  | .error fault => .error (.file path fault)
  | .ok text => (Record.read text).mapError .record

/-- The automaton of the record at a path, where `read` tells what the file there holds. -/
def load (read : String → Except FileFault String) (path : String) : Except Error Automaton :=
  ofContents path (read path)

/-- What is logged when a record has been read. -/
def note (a : Automaton) : Log.Entry where
  level := .debug
  topic := .record
  text := "transitions loaded from JSON: " ++ a.transitions.display

/-- The record of an automaton, to be written to a path. -/
def output (a : Automaton) (path : String) : Output where
  path := path
  text := write a
  note := { level := .info, topic := .record, text := "DFA saved to " ++ path }

end AutomatonGrammar.Record
