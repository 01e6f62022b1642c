import AutomatonGrammar.Sorted.Map
import AutomatonGrammar.Text.Split

/-!
# A folder of files

The files of one folder, and what reading and writing a path answers. A path is followed name by name
from the folder itself, or from the root if it starts with a slash; `.` stays where it is and `..` goes
back. All names but the last are those of folders, and no file is made behind a last name with a slash.
A folder below exists while it holds a file, or for itself. Of the folders above nothing is known but that
they exist. The system may forbid to write a file, or to read and to write it, for reasons of its own.

    (f.write path text).bind (·.read path) = .ok text   where the write succeeds
-/

namespace AutomatonGrammar

/-- What a file holds: text, or bytes that are not the UTF-8 form of any. -/
inductive Contents where
  | text (value : String)
  | binary (bytes : List UInt8)
deriving DecidableEq, Repr

namespace Contents

def ofBytes (bytes : ByteArray) : Contents :=
  match String.fromUTF8? bytes with
  | some s => .text s
  | none => .binary bytes.toList

def text? : Contents → Option String
  | text value => some value
  | binary _ => none

end Contents

/-- Why a file cannot be read or written. -/
inductive FileFault where
  | notFound
  | notDirectory
  | isDirectory
  | nameTooLong
  | nulInName
  | notText
  | other (message : String)
deriving DecidableEq, Repr

def FileFault.message : FileFault → String
  | notFound => "No such file or directory (os error 2)"
  | notDirectory => "Not a directory (os error 20)"
  | isDirectory => "Is a directory (os error 21)"
  | nameTooLong => "File name too long (os error 36)"
  | nulInName => "file name contained an unexpected NUL byte"
  | notText => "stream did not contain valid UTF-8"
  | other message => message

/-- The names that lead from the folder to a file: `..` as often as needed, or `/` for the root, and then
the names on the way down. -/
abbrev Location := List String

/-- Locations are ordered name by name. -/
instance : LE Location := List.instLE

namespace Location

def root : Location := ["/"]

/-- Whether a location is that of the folder itself, of one above it or of the root. -/
def isAbove (l : Location) : Bool := l = root ∨ l.all (· = "..")

/-- The location one step back. The root has none behind it. -/
def back (l : Location) : Location :=
  if l = root then root else if l.isAbove then l ++ [".."] else l.dropLast

/-- The location that a name leads to. -/
def next (l : Location) (name : String) : Location :=
  if name = "." then l else if name = ".." then l.back else l ++ [name]

end Location

/-- A ban on writing, and what the system says of it: the rights are missing, or the disk is full. Reading
may be forbidden only where writing is, so that what has been written can be read. -/
structure Ban where
  message : String
  readable : Bool
deriving DecidableEq, Repr

/-- The files of a folder. -/
structure Folder where
  files : SortedMap Location Contents
  /-- Folders that are there besides those on the way to a file. -/
  directories : SortedSet Location := ∅
  /-- What is forbidden at a location. -/
  ban? : Location → Option Ban := fun _ => none
deriving Inhabited

namespace Folder

def empty : Folder where
  files := ∅

/-- What is found at a location. -/
inductive Item where
  | file (contents : Contents)
  | directory
  | nothing

def item (f : Folder) (l : Location) : Item :=
  match f.files.get? l with
  | some contents => .file contents
  | none =>
    if l.isAbove ∨ f.files.toList.any (fun entry => l.isPrefixOf entry.1) ∨
        f.directories.toList.any (l.isPrefixOf ·) then .directory
    else .nothing

/-- A path cut at its slashes. -/
structure Steps where
  start : Location
  /-- The names of the folders on the way. -/
  folders : List String
  /-- The name behind them, `.` if there is none. -/
  last : String
  slashAtEnd : Bool

def steps (path : String) : Steps :=
  let names := ((Text.split '/' path.toList).filter (· ≠ [])).map String.ofList
  { start := if path.toList.head? = some '/' then Location.root else [],
    folders := names.dropLast,
    last := names.getLast?.getD ".",
    slashAtEnd := path.toList.getLast? = some '/' }

/-- The location that a name leads to, if the name is not too long. -/
def step (here : Location) (name : String) : Except FileFault Location :=
  if name.utf8ByteSize > 255 then .error .nameTooLong else .ok (here.next name)

/-- Follows the names of folders from a location. -/
def follow (f : Folder) (here : Location) : List String → Except FileFault Location
  | [] => .ok here
  | name :: rest => do
    let there ← step here name
    match f.item there with
    | .directory => f.follow there rest
    | .file _ => throw .notDirectory
    | .nothing => throw .notFound

/-- The location of the folder in which the last name of a path is looked up. -/
def enter (f : Folder) (path : String) : Except FileFault Location :=
  if path.contains '\x00' then .error .nulInName
  else if path.utf8ByteSize ≥ 4096 then .error .nameTooLong
  else f.follow (steps path).start (steps path).folders

/-- Whether the file at a location may be read. -/
def mayRead (f : Folder) (l : Location) : Except FileFault Unit :=
  match f.ban? l with
  | some ban => if ban.readable then .ok () else .error (.other ban.message)
  | none => .ok ()

/-- Whether the file at a location may be written. -/
def mayWrite (f : Folder) (l : Location) : Except FileFault Unit :=
  match f.ban? l with
  | some ban => .error (.other ban.message)
  | none => .ok ()

/-- The text of the file at a path. -/
def read (f : Folder) (path : String) : Except FileFault String := do
  let l ← step (← f.enter path) (steps path).last
  match f.item l with
  | .directory => throw .isDirectory
  | .nothing => throw .notFound
  | .file contents =>
    if (steps path).slashAtEnd then throw .notDirectory
    f.mayRead l
    match contents with
    | .text value => return value
    | .binary _ => throw .notText

/-- Puts a file at a location. -/
def put (f : Folder) (l : Location) (contents : Contents) : Folder :=
  { f with files := f.files.insert l contents }

/-- The folder after a file has been written to a path. -/
def place (f : Folder) (path : String) (contents : Contents) : Except FileFault Folder := do
  let here ← f.enter path
  if (steps path).slashAtEnd then throw .isDirectory
  let l ← step here (steps path).last
  match f.item l with
  | .directory => throw .isDirectory
  | _ =>
    f.mayWrite l
    return f.put l contents

/-- The folder after a text has been written to a path. -/
def write (f : Folder) (path : String) (text : String) : Except FileFault Folder :=
  f.place path (.text text)

/-- The folder with a file at a path, behind folders that are made where they are missing. Where no file
can be, nothing changes. -/
def add (f : Folder) (path : String) (contents : Contents) : Folder :=
  match f.place path contents with
  | .ok g => g
  | .error .notFound =>
    f.put (((steps path).folders ++ [(steps path).last]).foldl Location.next (steps path).start) contents
  | .error _ => f

end Folder

end AutomatonGrammar
