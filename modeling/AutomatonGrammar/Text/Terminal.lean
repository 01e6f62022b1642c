/-!
# Text on a terminal

A text can hold commands to the terminal, which are not shown: an escape character, intermediate
characters and a final one; a control sequence (`[` behind the escape character, parameters, a final
character); or a string for the device, for the system or for a program. `Terminal.visible` keeps what
is shown.

* A command is left at its end, by a cancel or substitute character, and for the next one by an escape
  character.
* White space inside of an escape or control sequence is shown, and so is what stands behind it, up to
  the next control character: there the sequence goes on.
-/

namespace AutomatonGrammar.Text.Terminal

/-- Whether a character is a control character that is white space. -/
def isLayout (c : Char) : Bool := c = '\t' ∨ c = '\n' ∨ c = '\x0c' ∨ c = '\r'

/-- The part that a character can have in a command. -/
inductive Kind where
  | control
  | intermediate
  | parameter
  | final
  /-- Outside of ASCII. -/
  | wide
deriving DecidableEq, Repr

def Kind.of (c : Char) : Kind :=
  if c < ' ' ∨ c = '\x7f' then .control
  else if c < '0' then .intermediate
  else if c < '@' then .parameter
  else if c < '\x7f' then .final
  else .wide

/-- Whether a character is shown where it stands outside of commands. -/
def isVisible (c : Char) : Bool := isLayout c ∨ Kind.of c ≠ .control

/-- The part of a command that the next character continues. -/
inductive Part where
  | escape
  | escapeIntermediate
  | sequence
  | device
  | deviceParameter
  | deviceIntermediate
  | system
  /-- A string that ends at the string terminator, the byte `0x9C`. -/
  | string
deriving DecidableEq, Repr

namespace Part

def showsLayout : Part → Bool
  | escape | escapeIntermediate | sequence => true
  | _ => false

/-- What the final character of an escape sequence opens, unless the command ends with it. -/
def opened? (c : Char) : Option Part :=
  match c with
  | '[' => some sequence
  | ']' => some system
  | 'P' => some device
  | 'X' | '^' | '_' => some string
  | _ => none

/-- The part behind a character, if the command goes on. -/
def next? (part : Part) (c : Char) : Option Part :=
  match part, Kind.of c with
  | escape, .intermediate => some escapeIntermediate
  | escape, .parameter => none
  | escape, .final => opened? c
  | escapeIntermediate, .parameter | escapeIntermediate, .final => none
  | sequence, .final => none
  | device, .intermediate | deviceParameter, .intermediate => some deviceIntermediate
  | device, .parameter => some deviceParameter
  | deviceParameter, .parameter => some (if c < '<' then deviceParameter else string)
  | deviceIntermediate, .parameter => some string
  | device, .final | deviceParameter, .final | deviceIntermediate, .final => some string
  | system, _ => if c = '\x07' then none else some system
  | string, _ => if 0x9C ∈ String.utf8EncodeChar c then none else some string
  | part, _ => some part

end Part

/-- Where in a text a character stands. -/
inductive Place where
  | outside
  | inside (part : Part)
  /-- Behind white space that interrupts a command. -/
  | between (part : Part)
deriving DecidableEq, Repr

/-- The place behind a character, and whether the character is shown. -/
def Place.step (place : Place) (c : Char) : Place × Bool :=
  if c = '\x1b' then (.inside .escape, false)
  else if c = '\x18' ∨ c = '\x1a' then (.outside, false)
  else match place with
    | outside => (.outside, isVisible c)
    | inside part =>
      if part.showsLayout ∧ isLayout c then (.between part, true)
      else ((part.next? c).elim .outside .inside, false)
    | between part =>
      if isVisible c then (if Kind.of c = .wide then .outside else .between part, true)
      else (.inside part, false)

/-- The characters that are shown of those behind a place. -/
def Place.visible : Place → List Char → List Char
  | _, [] => []
  | place, c :: rest =>
    match place.step c with
    | (place, true) => c :: place.visible rest
    | (place, false) => place.visible rest

/-- What is shown of a text. -/
def visible (text : String) : String := .ofList (Place.outside.visible text.toList)

theorem Place.visible_outside_cons {c : Char} (rest : List Char) (h : outside.step c = (outside, true)) :
    outside.visible (c :: rest) = c :: outside.visible rest := by
  rw [visible, h]

end AutomatonGrammar.Text.Terminal
