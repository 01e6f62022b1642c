import AutomatonGrammar.Diagram.Printer
import AutomatonGrammar.Output
import AutomatonGrammar.Text.Blank

/-!
# Diagrams in files

A diagram is written to a file whose name ends in its format. DOT text is written as it is; any other
format is left to a renderer, a program that reads DOT text and writes the file itself.
-/

namespace AutomatonGrammar.Diagram

/-- The text of a diagram, to be written to a path without its ending. -/
def output (d : Diagram) (path format : String) : Output where
  path := path ++ "." ++ format
  text := d.text
  note := { level := .info, topic := .diagram,
            text := "DFA diagram generated: " ++ path ++ "." ++ format }

/-- What a renderer is started with. -/
structure Job where
  arguments : List String
  input : String
deriving DecidableEq, Repr

/-- How a renderer ends. -/
inductive Ending where
  | exited (status : ExitStatus)
  /-- It ends well, but without having taken all of its input. -/
  | unread (fault : FileFault)
deriving DecidableEq, Repr

namespace Ending

instance : Coe Nat Ending := ⟨fun n => .exited (.code n)⟩

instance (n : Nat) : OfNat Ending n := ⟨.exited (.code n)⟩

end Ending

/-- What a renderer says at its end. -/
structure Reply where
  status : Ending
  complaint : String

/-- What a renderer leaves behind. -/
structure Answer where
  status : Ending
  complaint : String
  folder : Folder

def Answer.reply (answer : Answer) : Reply := ⟨answer.status, answer.complaint⟩

/-- A renderer, by what it does to a folder. -/
abbrev Renderer := Job → Folder → Answer

/-- The job of making a file in the given format. -/
def job (o : Output) (format : String) : Job := ⟨["-T" ++ format, "-o", o.path], o.text⟩

/-- What a reply says about the job of making a file at a path. That a renderer fails says more than that
it has not taken its input. -/
def Reply.result (reply : Reply) (path : String) : Except Error Unit :=
  match reply.status with
  | .exited (.code 0) => .ok ()
  | .exited status => .error (.rendererFailed status (.ofList (Text.trim reply.complaint.toList)))
  | .unread fault => .error (.file path fault)

end AutomatonGrammar.Diagram
