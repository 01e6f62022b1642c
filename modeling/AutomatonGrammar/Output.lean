import AutomatonGrammar.Error
import AutomatonGrammar.Log

/-!
# Files to be written
-/

namespace AutomatonGrammar

/-- A text to be written to a file, and what is logged when that is done. -/
structure Output where
  path : String
  text : String
  note : Log.Entry
deriving DecidableEq, Repr

/-- The folder after the file has been written. -/
def Output.save (o : Output) (folder : Folder) : Except Error Folder :=
  (folder.write o.path o.text).mapError (.file o.path)

end AutomatonGrammar
