import AutomatonGrammar.Text.Quoted

/-!
# What can be wrong with a JSON text

`Problem` lists the causes, `Stop` says where reading stopped because of one, and `Fault` is the same
with the line and the column that a user is shown.
-/

namespace AutomatonGrammar.Json

/-- The brackets that enclose other values. -/
inductive Bracket where
  | list
  | object
deriving DecidableEq, Repr

/-- A value of the wrong kind. A number that is no integer is kept as it is shown. -/
inductive Found where
  | null
  | boolean (value : Bool)
  | integer (value : Int)
  | decimal (shown : String)
  | string (value : String)
  | sequence
  | map
deriving DecidableEq, Repr

def Found.text : Found → String
  | null => "null"
  | boolean value => "boolean `" ++ (if value then "true" else "false") ++ "`"
  | integer value => "integer `" ++ toString value ++ "`"
  | decimal shown => "floating point `" ++ shown ++ "`"
  | string value => "string " ++ Text.quoted value
  | sequence => "sequence"
  | map => "map"

/-- The kind of value that a place calls for. -/
inductive Wanted where
  | record
  | sequence
  | map
  | string
deriving DecidableEq, Repr

def Wanted.text : Wanted → String
  | record => "struct DFA"
  | sequence => "a sequence"
  | map => "a map"
  | string => "a string"

inductive Problem where
  | endInValue
  | endInString
  | endIn (bracket : Bracket)
  | expectedColon
  | expectedComma (bracket : Bracket)
  | expectedIdent
  | expectedValue
  | keyNotString
  | trailingComma
  | trailingCharacters
  | controlCharacter
  | invalidEscape
  | loneSurrogate
  | brokenPair
  | invalidNumber
  | numberOutOfRange
  | wrongType (found : Found) (wanted : Wanted)
  | wrongLength (length : Nat)
  | missingField (name : String)
  | duplicateField (name : String)
deriving DecidableEq, Repr

/-- The kinds of problems: not JSON, JSON that ends too early, JSON that is no record. -/
inductive Category where
  | notJson
  | early
  | data
deriving DecidableEq, Repr

namespace Problem

def message : Problem → String
  | endInValue => "EOF while parsing a value"
  | endInString => "EOF while parsing a string"
  | endIn .list => "EOF while parsing a list"
  | endIn .object => "EOF while parsing an object"
  | expectedColon => "expected `:`"
  | expectedComma .list => "expected `,` or `]`"
  | expectedComma .object => "expected `,` or `\x7d`"
  | expectedIdent => "expected ident"
  | expectedValue => "expected value"
  | keyNotString => "key must be a string"
  | trailingComma => "trailing comma"
  | trailingCharacters => "trailing characters"
  | controlCharacter => "control character (\\u0000-\\u001F) found while parsing a string"
  | invalidEscape => "invalid escape"
  | loneSurrogate => "lone leading surrogate in hex escape"
  | brokenPair => "unexpected end of hex escape"
  | invalidNumber => "invalid number"
  | numberOutOfRange => "number out of range"
  | wrongType found wanted => "invalid type: " ++ found.text ++ ", expected " ++ wanted.text
  | wrongLength n => "invalid length " ++ toString n ++ ", expected " ++ Wanted.record.text ++
      " with 5 elements"
  | missingField name => "missing field `" ++ name ++ "`"
  | duplicateField name => "duplicate field `" ++ name ++ "`"

def category : Problem → Category
  | endInValue | endInString | endIn _ => .early
  | wrongType .. | wrongLength _ | missingField _ | duplicateField _ => .data
  | _ => .notJson

end Problem

/-! ## Where reading stops -/

/-- The number of bytes that a text takes in UTF-8. -/
def byteLength (text : List Char) : Nat := text.foldr (fun c n => c.utf8Size + n) 0

/-- A problem, and how many bytes of the text lie behind the place where it is reported. -/
structure Stop where
  problem : Problem
  unread : Nat
deriving DecidableEq, Repr

/-- Stops in front of `rest`. -/
def stopAt (problem : Problem) (rest : List Char) : Stop := ⟨problem, byteLength rest⟩

/-- Stops one byte into `rest`, or at the end of the text where nothing is left. -/
def stopPast (problem : Problem) (rest : List Char) : Stop := ⟨problem, byteLength rest - 1⟩

/-- What a reader answers: a value and the rest of the text, or where and why it stopped. -/
abbrev Result (α : Type) := Except Stop (α × List Char)

/-- A reader that leaves less than it is given. -/
def Shrinks {α : Type} (read : List Char → Result α) : Prop :=
  ∀ ⦃text x rest⦄, read text = .ok (x, rest) → rest.length < text.length

namespace Result

/-- Applies `f` to the value that was read. -/
def map {α β : Type} (f : α → β) : Result α → Result β
  | .error e => .error e
  | .ok (x, rest) => .ok (f x, rest)

/-- Passing over something, as a reader that always answers `x`. -/
def skipped {α : Type} (x : α) : Except Stop (List Char) → Result α
  | .error e => .error e
  | .ok rest => .ok (x, rest)

theorem map_eq_ok {α β : Type} {f : α → β} {r : Result α} {y : β} {rest : List Char} :
    r.map f = .ok (y, rest) ↔ ∃ x, r = .ok (x, rest) ∧ f x = y := by
  rcases r with _ | ⟨x, rest'⟩ <;> simp only [map, Except.ok.injEq, Prod.mk.injEq] <;> grind

theorem skipped_eq_ok {α : Type} {x y : α} {r : Except Stop (List Char)} {rest : List Char} :
    skipped x r = .ok (y, rest) ↔ r = .ok rest ∧ x = y := by
  cases r <;> simp only [skipped, Except.ok.injEq, Prod.mk.injEq] <;> grind

end Result

theorem Shrinks.map {α β : Type} {read : List Char → Result α} (h : Shrinks read) (f : α → β) :
    Shrinks fun text => (read text).map f := by
  intro text y rest hr
  obtain ⟨x, hx, -⟩ := Result.map_eq_ok.1 hr
  exact h hx

/-- A problem with the line and the column, both in bytes, where it is reported. -/
structure Fault where
  problem : Problem
  line : Nat
  column : Nat
deriving DecidableEq, Repr

namespace Fault

/-- The problem and its place, in words. -/
def message (f : Fault) : String :=
  f.problem.message ++ " at line " ++ toString f.line ++ " column " ++ toString f.column

end Fault

/-- Line and column after `count` more bytes of the text, a place that may lie inside a character. -/
def advance (line column : Nat) : (count : Nat) → List Char → Nat × Nat
  | 0, _ => (line, column)
  | _, [] => (line, column)
  | count, c :: text =>
    if c = '\n' then advance (line + 1) 0 (count - 1) text
    else if count < c.utf8Size then (line, column + count)
    else advance line (column + c.utf8Size) (count - c.utf8Size) text

/-- The place in `text` where reading stopped. -/
def Stop.locate (s : Stop) (text : List Char) : Fault :=
  let place := advance 1 0 (byteLength text - s.unread) text
  ⟨s.problem, place.1, place.2⟩

end AutomatonGrammar.Json
