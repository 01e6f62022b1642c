import AutomatonGrammar.Automaton.Reachable
import AutomatonGrammar.Command.Arguments
import AutomatonGrammar.Command.Surroundings
import AutomatonGrammar.Grammar.Printer

/-!
# What a command does

A command is a sequence of steps in its surroundings. It loads an automaton, which may fail at reading,
at understanding or at checking what was read, and puts it to one use, which may fail at the one file that
is made. Each failure ends the sequence and is reported under the stage at which it came.
-/

namespace AutomatonGrammar

/-- What a command is busy with. -/
inductive Stage where
  | reading (path : String)
  | parsing
  | validating
  | drawing
  | saving
deriving DecidableEq, Repr

/-- What is reported when a stage fails. -/
def Stage.failed : Stage → String
  | reading path => "failed to import DFA from " ++ path
  | parsing => "invalid DFA input"
  | validating => "DFA failed validation"
  | drawing => "failed to generate DFA diagram"
  | saving => "failed to export DFA"

/-- Why a command fails. -/
structure Failure where
  stage : Stage
  cause : Error
deriving DecidableEq, Repr

/-- The report of a failure: the stage, the cause, and what the cause passes on. Further lines of a text
are indented like the first. -/
def Failure.report (f : Failure) : String :=
  "Error: " ++ f.stage.failed ++ "\n\nCaused by:\n" ++
  match f.cause.source? with
  | none => "    " ++ Text.hang 4 f.cause.message ++ "\n"
  | some source =>
    "    0: " ++ Text.hang 7 f.cause.message ++ "\n    1: " ++ Text.hang 7 source ++ "\n"

namespace Automaton

/-- The warning about states that no path reaches. -/
def unreachableNotes (a : Automaton) : List Log.Entry :=
  let names := a.unreachable.toList
  if names = [] then []
  else [{ level := .warn, topic := .command
          text := "unreachable from the start state: " ++ ", ".intercalate names }]

end Automaton

/-- The lines that describe an automaton by the fields of a form. -/
def Form.description (f : Form) : List String :=
  ["States: " ++ f.states, "Alphabet: " ++ f.alphabet, "Start State: " ++ f.start,
    "Accept States: " ++ f.accepting, "Transitions:"] ++
  (if f.transitions = "" then [] else [f.transitions])

section Steps

variable {m : Type → Type} [Monad m] (w : Surroundings m)

/-- Steps whose failure is that of a stage. -/
def Stage.during {α : Type} (stage : Stage) (steps : ExceptT Error m α) : ExceptT Failure m α :=
  steps.adapt (Failure.mk stage)

/-- The check of an automaton whose source is strict. -/
def Automaton.check (strict : Bool) (a : Automaton) : ExceptT Error m Unit :=
  if strict then a.validate.mapError Error.malformed else pure ()

namespace Surroundings

/-- What is done with an automaton as soon as it is there: the check, and what is to be said about it. -/
def settle (strict : Bool) (a : Automaton) : ExceptT Failure m Automaton := do
  Stage.during .validating (a.check strict)
  w.logAll a.unreachableNotes
  w.log a.note
  return a

/-- The automaton of a source, whatever it may use without declaring it. -/
def loadUnchecked (s : Source) : ExceptT Failure m Automaton :=
  match s.json with
  | some path => Stage.during (.reading path) (w.loadRecord path)
  | none => Stage.during .parsing (s.form.read.mapError Error.refusedLine)

/-- The automaton of a source, checked if the source is strict. -/
def load (s : Source) : ExceptT Failure m Automaton := do
  w.settle s.strict (← w.loadUnchecked s)

/-- Prints the grammar of an automaton. -/
def convert (a : Automaton) (long : Bool) : m Unit := do
  w.log a.grammarNote
  if long then w.print a.grammar.report else w.printLines a.grammar.lines

/-- Makes the diagram of an automaton. -/
def plot (a : Automaton) (output format : String) (options : Diagram.Options) :
    ExceptT Error m Unit := do
  w.logAll a.undeclaredNotes
  w.draw ((a.diagram options).output output format) format

end Surroundings

/-- Carries out a command. -/
def Command.perform : Command → ExceptT Failure m Unit
  | convert source long => do
    let a ← w.load source
    w.convert a long
  | plot source output format vertical merged => do
    let a ← w.load source
    Stage.during .drawing (w.plot a output format { horizontal := !vertical, merged })
  | save source target => do
    let a ← w.load source
    Stage.during .saving (w.save (Record.output a target))
  | describe file => do
    let a ← Stage.during (.reading file) (w.loadRecord file)
    w.printLines (Form.ofAutomaton a).description

/-- The line that names the program and its version. -/
def versionLine : String := "dfagram 0.1.0\n"

/-- A short overview of the commands. -/
def helpText : String :=
  "Turns a DFA into a right-regular grammar\n\nCommands: convert, plot, export, import, help\n"

/-- Does what a command line asks for, and answers with the code at the end: 2 for a command line that
cannot be read, and 1 for a command that fails. -/
def Request.perform (arguments : List String) : m Nat :=
  match Request.parse arguments with
  | .error e => do
    w.complain ("error: " ++ e.message ++ "\n")
    return 2
  | .ok .version => do
    w.print versionLine
    return 0
  | .ok .help => do
    w.print helpText
    return 0
  | .ok (.command c) => do
    match ← (c.perform w).run with
    | .ok () => return 0
    | .error failure =>
      w.complain failure.report
      return 1

end Steps

end AutomatonGrammar
