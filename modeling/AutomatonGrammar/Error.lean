import AutomatonGrammar.Automaton.Malformation
import AutomatonGrammar.Folder
import AutomatonGrammar.Form.Basic
import AutomatonGrammar.Json.Problem

/-!
# What can go wrong

The causes for which an operation on automata fails, and their wording.
-/

namespace AutomatonGrammar

/-- How a program has ended that was started. -/
inductive ExitStatus where
  | code (n : Nat)
  /-- It has been stopped by a signal, which is named as the system names it. -/
  | signal (name : String)
deriving DecidableEq, Repr

def ExitStatus.message : ExitStatus → String
  | code n => "exit status: " ++ toString n
  | signal name => "signal: " ++ name

inductive Error where
  | malformed (what : Malformation)
  | refusedLine (line : Form.RefusedLine)
  | file (path : String) (fault : FileFault)
  | record (fault : Json.Fault)
  | rendererMissing (fault : FileFault)
  | rendererFailed (status : ExitStatus) (complaint : String)
deriving DecidableEq, Repr

namespace Error

def message : Error → String
  | malformed what => "malformed automaton: " ++ what.message
  | refusedLine line =>
    "invalid input on line " ++ toString line.number ++ ": " ++ line.fault.reason
  | file path fault => "cannot access " ++ path ++ ": " ++ fault.message
  | record fault => "invalid DFA record: " ++ fault.message
  | rendererMissing fault => "graphviz `dot` could not be started: " ++ fault.message
  | rendererFailed status complaint =>
    "graphviz `dot` exited with " ++ status.message ++ ": " ++ complaint

/-- What an error passes on from elsewhere, in its own words. -/
def source? : Error → Option String
  | file _ fault => some fault.message
  | record fault => some fault.message
  | rendererMissing fault => some fault.message
  | _ => none

end Error

end AutomatonGrammar
