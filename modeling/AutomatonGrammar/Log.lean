import AutomatonGrammar.Text.Indent
import AutomatonGrammar.Text.Terminal

/-!
# Log entries

What the program has to say about its work besides the result. An entry names its level and its topic,
and is shown either with the level in front or, on a terminal, with the level between brackets. Which
entries come to a terminal is the decision of a filter, which the surroundings of a run may choose.
-/

namespace AutomatonGrammar.Log

inductive Level where
  | debug
  | info
  | warn
deriving DecidableEq, Repr

def Level.name : Level → String
  | debug => "DEBUG"
  | info => "INFO"
  | warn => "WARN"

/-- The part of the program that an entry is about. -/
inductive Topic where
  | command
  | grammar
  | diagram
  | record
deriving DecidableEq, Repr

def Topic.name : Topic → String
  | command => "dfagram"
  | grammar => "dfagram::grammar"
  | diagram => "dfagram::dot"
  | record => "dfagram::json"

structure Entry where
  level : Level
  topic : Topic
  text : String
deriving DecidableEq, Repr

namespace Entry

/-- The entry on one line, level and topic in front. -/
def line (e : Entry) : String := e.level.name ++ " " ++ e.topic.name ++ ": " ++ e.text

/-- The entry as it is shown on a terminal: level and topic between brackets, the level padded to five
characters, further lines indented by four spaces. Commands to the terminal are left out. -/
def terminalLine (e : Entry) : String :=
  let level := e.level.name
  let padding := "".pushn ' ' (5 - level.length)
  Text.Terminal.visible
    ("[" ++ level ++ padding ++ " " ++ e.topic.name ++ "] " ++ Text.hang 4 e.text ++ "\n")

/-- The first bracket is shown, whatever the text holds. -/
theorem terminalLine_ne_empty (e : Entry) : e.terminalLine ≠ "" := by
  intro h
  have hchars := congrArg String.toList h
  rw [terminalLine, Text.Terminal.visible, String.toList_ofList] at hchars
  simp only [String.append_assoc, String.toList_append] at hchars
  rw [show "[".toList = ['['] from rfl, List.cons_append,
    Text.Terminal.Place.visible_outside_cons _ (by decide)] at hchars
  cases hchars

end Entry

/-- Which entries are shown on a terminal. -/
structure Filter where
  shows : Entry → Bool

namespace Filter

/-- Where nothing else is asked for, entries are shown from the level of information on. -/
def default : Filter := ⟨fun e => e.level ≠ .debug⟩

/-- What a terminal shows of an entry. -/
def terminalText (f : Filter) (e : Entry) : String := if f.shows e then e.terminalLine else ""

end Filter

end AutomatonGrammar.Log
