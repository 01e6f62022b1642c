import AutomatonGrammar.Json.Skip
import AutomatonGrammar.Record.Value

/-!
# Reading records

A record is an object with the five fields in any order, each once, and any other members, which are
passed over; or a list of the five values in the order of `Field.all`.
-/

namespace AutomatonGrammar.Record

open Json

/-- Reads the value of a field into a draft. -/
def Draft.read (d : Draft) (f : Field) (text : List Char) : Result Draft :=
  match f with
  | .states => (readNames text).map fun s => { d with states := some s }
  | .alphabet => (readNames text).map fun s => { d with alphabet := some s }
  | .transitions => (readTransitions text).map fun t => { d with transitions := some t }
  | .start => (readName text).map fun s => { d with start := some s }
  | .accepting => (readNames text).map fun s => { d with accepting := some s }

theorem Draft.read_shrinks (d : Draft) (f : Field) : Shrinks (d.read f) := by
  cases f with
  | states => exact readNames_shrinks.map _
  | alphabet => exact readNames_shrinks.map _
  | transitions => exact (readMap_shrinks _ _).map _
  | start => exact readName_shrinks.map _
  | accepting => exact readNames_shrinks.map _

/-- The automaton of a draft, where `rest` follows its record. -/
def Draft.finish (d : Draft) (rest : List Char) : Result Automaton :=
  match d.complete with
  | .ok a => .ok (a, rest)
  | .error f => .error (stopAt (.missingField f.name) rest)

/-- Stops at a field that comes a second time: behind the key, and behind a brace that follows it. -/
def stopDuplicate (f : Field) (text : List Char) : Stop :=
  match skipBlank text with
  | '\x7d' :: rest => stopAt (.duplicateField f.name) rest
  | rest => stopAt (.duplicateField f.name) rest

/-- Reads the value of a member into the draft, or passes over it. -/
def readMember (d : Draft) (key : String) (text : List Char) : Result Draft :=
  match Field.ofName? key with
  | some f =>
    if d.has f then .error (stopDuplicate f text)
    else match skipColon text with
      | .error e => .error e
      | .ok value => d.read f value
  | none =>
    match skipColon text with
    | .error e => .error e
    | .ok value => .skipped d (skipValue value)

theorem readMember_shrinks (d : Draft) (key : String) : Shrinks (readMember d key) := by
  intro text x rest h
  unfold readMember at h
  split at h
  · split at h
    · simp at h
    · split at h
      · simp at h
      · next hc => exact Nat.lt_trans (d.read_shrinks _ h) (skipColon_length hc)
  · split at h
    · simp at h
    · next hc =>
      exact Nat.lt_trans (skipValue_length (Result.skipped_eq_ok.1 h).1) (skipColon_length hc)

/-- Reads the members of a record, up to and with the closing brace. -/
def readObject (d : Draft) (isFirst : Bool) (text : List Char) : Result Automaton :=
  match hn : nextItem .object isFirst text with
  | .error e => .error e
  | .ok (.closed rest) => d.finish rest
  | .ok (.item member) =>
    match hk : readKey member with
    | .error e => .error e
    | .ok (key, rest) =>
      match hm : readMember d key rest with
      | .error e => .error e
      | .ok (d, rest) =>
        have : rest.length < text.length := by
          have h₁ := nextItem_length hn
          have h₂ := readKey_shrinks hk
          have h₃ := readMember_shrinks _ _ hm
          simp only [Next.rest] at h₁
          omega
        readObject d false rest
termination_by text.length

/-- Passes over the closing bracket behind the last value of a list. -/
def closeList (text : List Char) : Except Stop (List Char) :=
  match skipBlank text with
  | [] => .error (stopPast (.endIn .list) [])
  | ']' :: rest => .ok rest
  | ',' :: rest =>
    match skipBlank rest with
    | ']' :: rest => .error (stopPast .trailingComma (']' :: rest))
    | rest => .error (stopPast .trailingCharacters rest)
  | rest => .error (stopPast .trailingCharacters rest)

/-- Reads the values of the fields `fs` from a list, behind `count` others. -/
def readList (d : Draft) (count : Nat) : (fs : List Field) → List Char → Result Automaton
  | [], text =>
    match closeList text with
    | .error e => .error e
    | .ok rest => d.finish rest
  | f :: fs, text =>
    match nextItem .list (count = 0) text with
    | .error e => .error e
    | .ok (.closed rest) => .error (stopAt (.wrongLength count) rest)
    | .ok (.item item) =>
      match d.read f item with
      | .error e => .error e
      | .ok (d, rest) => readList d (count + 1) fs rest

/-- Reads a record at the front of a text. -/
def readRecord (text : List Char) : Result Automaton :=
  match skipBlank text with
  | [] => .error (stopPast .endInValue [])
  | c :: rest =>
    if c = '\x7b' then readObject .empty true rest
    else if c = '[' then readList .empty 0 Field.all rest
    else .error (stopWrong .record c rest)

/-- Reads a text that is a record and nothing else but blanks. -/
def readAll (text : List Char) : Except Stop Automaton :=
  match readRecord text with
  | .error e => .error e
  | .ok (a, rest) =>
    match skipBlank rest with
    | [] => .ok a
    | rest => .error (stopPast .trailingCharacters rest)

/-- The automaton that a record describes. -/
def read (text : String) : Except Fault Automaton :=
  (readAll text.toList).mapError (·.locate text.toList)

end AutomatonGrammar.Record
