import AutomatonGrammar.Json.Token
import AutomatonGrammar.Record.Field

/-!
# Reading the values of a record

Readers for the three shapes that occur in a record: a string, a list of strings, and an object with
values of one shape. Each stops at a value of the wrong type, after it where it is a word, a number or
a string and in front of it where it is a list or an object.
-/

namespace AutomatonGrammar.Record

open Json

/-! ## Values of the wrong type -/

/-- Reads a value without brackets that starts with `c`. -/
def readScalar (c : Char) (rest : List Char) : Result Found :=
  if c = 'n' then .skipped .null (skipWord ['u', 'l', 'l'] rest)
  else if c = 't' then .skipped (.boolean true) (skipWord ['r', 'u', 'e'] rest)
  else if c = 'f' then .skipped (.boolean false) (skipWord ['a', 'l', 's', 'e'] rest)
  else if c = '"' then (readString rest).map (.string <| .ofList ·)
  else if startsNumeral c then
    match readNumeral .endInValue (c :: rest) with
    | .error e => .error e
    | .ok (numeral, rest) => (numeral.found rest).map (·, rest)
  else .error (stopPast .expectedValue (c :: rest))

/-- Why a value that starts with `c` is not the value that is wanted. -/
def stopWrong (wanted : Wanted) (c : Char) (rest : List Char) : Stop :=
  if c = '[' then stopAt (.wrongType .sequence wanted) (c :: rest)
  else if c = '\x7b' then stopAt (.wrongType .map wanted) (c :: rest)
  else match readScalar c rest with
    | .error e => e
    | .ok (found, rest) => stopAt (.wrongType found wanted) rest

/-- Passes over the character that a wanted value starts with. -/
def openValue (wanted : Wanted) (opening : Char) (text : List Char) : Except Stop (List Char) :=
  match skipBlank text with
  | [] => .error (stopPast .endInValue [])
  | c :: rest => if c = opening then .ok rest else .error (stopWrong wanted c rest)

theorem openValue_length {wanted : Wanted} {opening : Char} {text rest : List Char}
    (h : openValue wanted opening text = .ok rest) : rest.length < text.length := by
  unfold openValue at h
  split at h
  · simp at h
  · next hb =>
    have := length_of_skipBlank hb
    grind

/-! ## Items between brackets -/

/-- What comes next between brackets: an item, or nothing more. -/
inductive Next where
  | item (rest : List Char)
  | closed (rest : List Char)
deriving DecidableEq, Repr

def Next.rest : Next → List Char
  | item rest => rest
  | closed rest => rest

/-- Looks for an item, with a comma in front of it unless it is the first. -/
def nextItem (bracket : Bracket) (isFirst : Bool) (text : List Char) : Except Stop Next :=
  match skipBlank text with
  | [] => .error (stopPast (.endIn bracket) [])
  | c :: rest =>
    if c = bracket.closing then .ok (.closed rest)
    else if isFirst then .ok (.item (c :: rest))
    else if c = ',' then
      match skipBlank rest with
      | [] => .error (stopPast .endInValue [])
      | d :: rest =>
        if d = bracket.closing then .error (stopPast .trailingComma (d :: rest))
        else .ok (.item (d :: rest))
    else .error (stopPast (.expectedComma bracket) (c :: rest))

theorem nextItem_length {bracket : Bracket} {isFirst : Bool} {text : List Char} {next : Next}
    (h : nextItem bracket isFirst text = .ok next) : next.rest.length ≤ text.length := by
  unfold nextItem at h
  split at h
  · simp at h
  · next c r hb =>
    have hlt := length_of_skipBlank hb
    have hle := length_skipBlank text
    have hle' := length_skipBlank r
    grind [Next.rest]

/-- Reads a key at the front of a text. -/
def readKey : List Char → Result String
  | [] => .error (stopPast .keyNotString [])
  | c :: rest =>
    if c = '"' then (readString rest).map String.ofList
    else .error (stopPast .keyNotString (c :: rest))

theorem readKey_shrinks : Shrinks readKey := by
  intro text x rest h
  unfold readKey at h
  split at h
  · simp at h
  · split at h
    · have := readString_shrinks.map String.ofList h
      simp only [List.length_cons]
      omega
    · simp at h

/-! ## Lists and objects -/

/-- Reads the items of a list, each by `read`, up to and with the closing bracket. -/
def readItems {α : Type} (read : List Char → Result α) (shrinks : Shrinks read) (isFirst : Bool)
    (text : List Char) : Result (List α) :=
  match hn : nextItem .list isFirst text with
  | .error e => .error e
  | .ok (.closed rest) => .ok ([], rest)
  | .ok (.item item) =>
    match hr : read item with
    | .error e => .error e
    | .ok (x, rest) =>
      have := Nat.lt_of_lt_of_le (shrinks hr) (nextItem_length hn)
      match readItems read shrinks false rest with
      | .error e => .error e
      | .ok (xs, rest) => .ok (x :: xs, rest)
termination_by text.length

/-- Reads the members of an object, each value by `read`, up to and with the closing brace. -/
def readMembers {α : Type} (read : List Char → Result α) (shrinks : Shrinks read) (isFirst : Bool)
    (text : List Char) : Result (List (String × α)) :=
  match hn : nextItem .object isFirst text with
  | .error e => .error e
  | .ok (.closed rest) => .ok ([], rest)
  | .ok (.item member) =>
    match hk : readKey member with
    | .error e => .error e
    | .ok (key, rest) =>
      match hc : skipColon rest with
      | .error e => .error e
      | .ok value =>
        match hr : read value with
        | .error e => .error e
        | .ok (x, rest) =>
          have : rest.length < text.length := by
            have h₁ := nextItem_length hn
            have h₂ := readKey_shrinks hk
            have h₃ := skipColon_length hc
            have h₄ := shrinks hr
            simp only [Next.rest] at h₁
            omega
          match readMembers read shrinks false rest with
          | .error e => .error e
          | .ok (xs, rest) => .ok ((key, x) :: xs, rest)
termination_by text.length

theorem readItems_length {α : Type} {read : List Char → Result α} {shrinks : Shrinks read}
    {isFirst : Bool} {text rest : List Char} {xs : List α}
    (h : readItems read shrinks isFirst text = .ok (xs, rest)) : rest.length ≤ text.length := by
  fun_induction readItems read shrinks isFirst text generalizing xs rest with
  | case2 _ _ _ hn => simp_all; exact nextItem_length hn
  | _ => grind

theorem readMembers_length {α : Type} {read : List Char → Result α} {shrinks : Shrinks read}
    {isFirst : Bool} {text rest : List Char} {xs : List (String × α)}
    (h : readMembers read shrinks isFirst text = .ok (xs, rest)) : rest.length ≤ text.length := by
  fun_induction readMembers read shrinks isFirst text generalizing xs rest with
  | case2 _ _ _ hn => simp_all; exact nextItem_length hn
  | _ => grind

/-! ## The values of the fields -/

/-- Reads a string. -/
def readName (text : List Char) : Result String :=
  match openValue .string '"' text with
  | .error e => .error e
  | .ok rest => (readString rest).map String.ofList

theorem readName_shrinks : Shrinks readName := by
  intro text x rest h
  unfold readName at h
  split at h
  · simp at h
  · next ho => exact Nat.lt_trans (readString_shrinks.map String.ofList h) (openValue_length ho)

/-- Reads a list of strings. -/
def readNames (text : List Char) : Result (SortedSet String) :=
  match openValue .sequence '[' text with
  | .error e => .error e
  | .ok rest => (readItems readName readName_shrinks true rest).map SortedSet.ofList

theorem readNames_shrinks : Shrinks readNames := by
  intro text x rest h
  unfold readNames at h
  split at h
  · simp at h
  · next ho =>
    obtain ⟨_, hr, -⟩ := Result.map_eq_ok.1 h
    exact Nat.lt_of_le_of_lt (readItems_length hr) (openValue_length ho)

/-- Reads an object whose values are read by `read`; of two members with one key the later counts. -/
def readMap {α : Type} (read : List Char → Result α) (shrinks : Shrinks read) (text : List Char) :
    Result (SortedMap String α) :=
  match openValue .map '\x7b' text with
  | .error e => .error e
  | .ok rest => (readMembers read shrinks true rest).map SortedMap.ofList

theorem readMap_shrinks {α : Type} (read : List Char → Result α) (shrinks : Shrinks read) :
    Shrinks (readMap read shrinks) := by
  intro text x rest h
  unfold readMap at h
  split at h
  · simp at h
  · next ho =>
    obtain ⟨_, hr, -⟩ := Result.map_eq_ok.1 h
    exact Nat.lt_of_le_of_lt (readMembers_length hr) (openValue_length ho)

/-- Reads the transitions of one source. -/
def readRow : List Char → Result Row := readMap readName readName_shrinks

/-- Reads all transitions. -/
def readTransitions : List Char → Result Transitions :=
  readMap readRow (readMap_shrinks readName readName_shrinks)

end AutomatonGrammar.Record
