import AutomatonGrammar.Command.Run

/-!
# The program

The surroundings of a run as they are: real files, and the streams of the process. No other program is
started from here, so a renderer is always reported as missing.
-/

namespace AutomatonGrammar

/-- The fault that an error of the operating system stands for. -/
def FileFault.ofError : IO.Error → FileFault
  | .noFileOrDirectory .. => .notFound
  | .inappropriateType .. => .isDirectory
  | .resourceExhausted .. => .nameTooLong
  | e => .other (toString e)

/-- Reads a file as text. -/
def readText (path : String) : IO (Except FileFault String) := do
  try
    match Contents.ofBytes (← IO.FS.readBinFile path) with
    | .text value => return .ok value
    | .binary _ => return .error .notText
  catch e => return .error (.ofError e)

/-- Writes a text to a file. -/
def writeText (path text : String) : IO (Except FileFault Unit) := do
  try
    IO.FS.writeFile path text
    return .ok ()
  catch e => return .error (.ofError e)

/-- The surroundings of the process. -/
def Surroundings.process (filter : Log.Filter) : Surroundings IO where
  filter := filter
  read := readText
  write := writeText
  render _ := return .error .notFound
  print := IO.print
  complain := IO.eprint

end AutomatonGrammar

open AutomatonGrammar in
def main (arguments : List String) : IO UInt32 :=
  return (← Request.perform (.process .default) arguments).toUInt32
