import AutomatonGrammar.Diagram.Document
import AutomatonGrammar.Record.Document

/-!
# The surroundings of a run

What a run does outside itself it does by the operations of its `Surroundings`: it reads and writes files,
starts a renderer, prints results and shows what else there is to say. The operations are those of any
monad, so that a run can be carried out on real files or on values. An operation that may fail answers with
its fault, and what follows decides what becomes of it.
-/

namespace AutomatonGrammar

structure Surroundings (m : Type → Type) where
  /-- Which entries of the log are shown. -/
  filter : Log.Filter
  /-- The text of the file at a path. -/
  read (path : String) : m (Except FileFault String)
  /-- Writes a text to the file at a path. -/
  write (path text : String) : m (Except FileFault Unit)
  /-- Starts a renderer and waits for its end. -/
  render (job : Diagram.Job) : m (Except FileFault Diagram.Reply)
  /-- Prints a part of the result. -/
  print (text : String) : m Unit
  /-- Shows what is no part of the result. -/
  complain (text : String) : m Unit

namespace Surroundings

variable {m : Type → Type} [Monad m] (w : Surroundings m)

def log (e : Log.Entry) : m Unit := w.complain (w.filter.terminalText e)

def logAll (es : List Log.Entry) : m Unit := es.forM w.log

def printLines (lines : List String) : m Unit := lines.forM fun line => w.print (line ++ "\n")

/-- Loads the automaton of the record at a path. -/
def loadRecord (path : String) : ExceptT Error m Automaton := do
  let a ← Record.ofContents path (← w.read path)
  w.log (Record.note a)
  return a

/-- Writes the file of an output. -/
def put (o : Output) : ExceptT Error m Unit := do
  (← w.write o.path o.text).mapError (Error.file o.path)

def save (o : Output) : ExceptT Error m Unit := do
  w.put o
  w.log o.note

/-- Has a renderer make the file of a diagram. -/
def renderFile (o : Output) (format : String) : ExceptT Error m Unit := do
  let reply ← (← w.render (Diagram.job o format)).mapError Error.rendererMissing
  reply.result o.path

/-- Makes the file of a diagram. DOT text is written as it is, and any other format is left to a
renderer. -/
def makeFile (o : Output) (format : String) : ExceptT Error m Unit :=
  if format = "dot" then w.put o else w.renderFile o format

def draw (o : Output) (format : String) : ExceptT Error m Unit := do
  w.makeFile o format
  w.log o.note

end Surroundings

end AutomatonGrammar
