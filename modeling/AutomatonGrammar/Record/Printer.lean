import AutomatonGrammar.Json.Quoted
import AutomatonGrammar.Record.Field

/-!
# Writing records

A record is written with its fields in the order of `Field.all`, every item on a line of its own and
indented by four spaces for each bracket around it. Empty lists and objects are two brackets.
-/

namespace AutomatonGrammar.Record

/-- A new line inside `depth` brackets. -/
def newLine (depth : Nat) : List Char := '\n' :: List.replicate (4 * depth) ' '

/-- Items between brackets that stand inside `depth` others. -/
def block (depth : Nat) (opening closing : Char) : List (List Char) → List Char
  | [] => [opening, closing]
  | items =>
    opening :: newLine (depth + 1) ++ List.intercalate (',' :: newLine (depth + 1)) items ++
      newLine depth ++ [closing]

/-- A key and its value. -/
def writeMember (key : String) (value : List Char) : List Char :=
  Json.quote key ++ [':', ' '] ++ value

def writeNames (names : SortedSet String) : List Char :=
  block 1 '[' ']' (names.toList.map Json.quote)

def writeRow (row : Row) : List Char :=
  block 2 '\x7b' '\x7d' <| row.toList.map fun (symbol, target) =>
    writeMember symbol (Json.quote target)

def writeTransitions (t : Transitions) : List Char :=
  block 1 '\x7b' '\x7d' <| t.toList.map fun (source, row) => writeMember source (writeRow row)

/-- The value of a field. -/
def writeField (a : Automaton) : Field → List Char
  | .states => writeNames a.states
  | .alphabet => writeNames a.alphabet
  | .transitions => writeTransitions a.transitions
  | .start => Json.quote a.start
  | .accepting => writeNames a.accepting

/-- The record of an automaton. -/
def writeChars (a : Automaton) : List Char :=
  block 0 '\x7b' '\x7d' (Field.all.map fun f => writeMember f.name (writeField a f))

def write (a : Automaton) : String := .ofList (writeChars a)

end AutomatonGrammar.Record
