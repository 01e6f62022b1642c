import AutomatonGrammar.Command.Perform

/-!
# Running commands in a folder

The surroundings of a run as values: a console, which keeps what has been printed and shown, and a folder
of files. `Request.run` does what a command line asks for in them.
-/

namespace AutomatonGrammar

/-- What a run has left so far. -/
structure Console where
  stdout : String := ""
  stderr : String := ""
  folder : Folder

namespace Console

/-- Writes a text to a file, and leaves all as it is where that fails. -/
def write (path text : String) (c : Console) : Except FileFault Unit × Console :=
  match c.folder.write path text with
  | .error fault => (.error fault, c)
  | .ok folder => (.ok (), { c with folder })

/-- Starts a renderer, if there is one. It finds the folder as it is. -/
def render (renderer : Option Diagram.Renderer) (job : Diagram.Job) (c : Console) :
    Except FileFault Diagram.Reply × Console :=
  match renderer with
  | none => (.error .notFound, c)
  | some run =>
    let answer := run job c.folder
    (.ok answer.reply, { c with folder := answer.folder })

end Console

/-- The surroundings of a run as values. -/
def Surroundings.console (filter : Log.Filter) (renderer : Option Diagram.Renderer) :
    Surroundings (StateM Console) where
  filter := filter
  read path := fun c => (c.folder.read path, c)
  write path text := Console.write path text
  render job := Console.render renderer job
  print text := fun c => ((), { c with stdout := c.stdout ++ text })
  complain text := fun c => ((), { c with stderr := c.stderr ++ text })

/-- What a run leaves behind. -/
structure Outcome extends Console where
  code : Nat

namespace Request

/-- Does what a command line asks for, where the filter decides which entries of the log are shown. -/
def runWith (filter : Log.Filter) (arguments : List String) (renderer : Option Diagram.Renderer)
    (folder : Folder) : Outcome :=
  let (code, console) := (perform (.console filter renderer) arguments).run { folder }
  { console with code }

/-- Does what a command line asks for, where nothing else is asked of the log. -/
def run (arguments : List String) (renderer : Option Diagram.Renderer) (folder : Folder) : Outcome :=
  runWith .default arguments renderer folder

end Request

end AutomatonGrammar
