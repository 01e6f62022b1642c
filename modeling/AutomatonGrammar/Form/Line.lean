import AutomatonGrammar.Automaton.Basic
import AutomatonGrammar.Text.Blank
import AutomatonGrammar.Text.Split

/-!
# Transitions as lines of text

One transition per line, `state,symbol->state`. Blanks around the three names do not count, and blank
lines are skipped. A text is refused at its first line that is no transition or contradicts an earlier
one.
-/

namespace AutomatonGrammar.Form

/-- Why a line is refused. -/
inductive LineFault where
  | noArrow
  | commaCount
  | emptyPart
  | contradiction (source : State) (symbol : Symbol) (target : State)
deriving DecidableEq, Repr

def LineFault.reason : LineFault → String
  | noArrow => "expected `state,symbol->state`"
  | commaCount => "expected exactly one `,` before `->`"
  | emptyPart => "state, symbol and destination must not be empty"
  | contradiction s x t => s ++ "," ++ x ++ " already goes to " ++ t

/-- A line that is refused, counted from one. -/
structure RefusedLine where
  number : Nat
  fault : LineFault
deriving DecidableEq, Repr

/-- The text before and the text behind the first arrow. -/
def cutArrow : List Char → Option (List Char × List Char)
  | [] => none
  | '-' :: '>' :: text => some ([], text)
  | c :: text => (cutArrow text).map fun (before, behind) => (c :: before, behind)

/-- The transition that a line denotes. -/
def readEdge (line : List Char) : Except LineFault Edge :=
  match cutArrow line with
  | none => .error .noArrow
  | some (before, behind) =>
    match Text.split ',' before with
    | [left, right] =>
      let source := Text.trim left
      let symbol := Text.trim right
      let target := Text.trim behind
      if source = [] ∨ symbol = [] ∨ target = [] then .error .emptyPart
      else .ok ⟨.ofList source, .ofList symbol, .ofList target⟩
    | _ => .error .commaCount

/-- Adds a transition to those of earlier lines, unless they say otherwise. -/
def addEdge (t : Transitions) (e : Edge) : Except LineFault Transitions :=
  match t.get? e.source e.symbol with
  | none => .ok (t.put e)
  | some target =>
    if target = e.target then .ok t else .error (.contradiction e.source e.symbol target)

/-- Adds what one line says. -/
def addLine (t : Transitions) (line : List Char) : Except LineFault Transitions :=
  if Text.trim line = [] then .ok t
  else match readEdge line with
    | .error f => .error f
    | .ok e => addEdge t e

/-- Adds what the lines say, of which the first has the given number. -/
def addLines (t : Transitions) (number : Nat) : List (List Char) → Except RefusedLine Transitions
  | [] => .ok t
  | line :: rest =>
    match addLine t line with
    | .error fault => .error ⟨number, fault⟩
    | .ok t => addLines t (number + 1) rest

/-- The transitions of a text. -/
def readTransitions (text : String) : Except RefusedLine Transitions :=
  addLines ∅ 1 (Text.lines text.toList)

/-- The line of one transition. -/
def edgeLine (e : Edge) : String := e.source ++ "," ++ e.symbol ++ "->" ++ e.target

end AutomatonGrammar.Form
