import AutomatonGrammar.Json.Token

/-!
# Passing over a JSON value

`skipValue` passes over one value of any kind and any depth. What is still to be passed over is kept as
a list of goals, so that deep nesting needs no deep recursion; every step takes at least one character.
-/

namespace AutomatonGrammar.Json

/-- What is still to be passed over: a value; what follows an opening bracket; what follows a value
inside brackets. -/
inductive Goal where
  | value
  | first (bracket : Bracket)
  | next (bracket : Bracket)
deriving DecidableEq, Repr

/-- Passes over a value without brackets, or over an opening bracket. -/
def stepValue (text : List Char) : Result (List Goal) :=
  match skipBlank text with
  | [] => .error (stopPast .endInValue [])
  | c :: rest =>
    if c = '[' then .ok ([.first .list], rest)
    else if c = '\x7b' then .ok ([.first .object], rest)
    else if c = '"' then .skipped [] (skipString rest)
    else if c = 'n' then .skipped [] (skipWord ['u', 'l', 'l'] rest)
    else if c = 't' then .skipped [] (skipWord ['r', 'u', 'e'] rest)
    else if c = 'f' then .skipped [] (skipWord ['a', 'l', 's', 'e'] rest)
    else if startsNumeral c then (readNumeral .invalidNumber (c :: rest)).map fun _ => []
    else .error (stopPast .expectedValue (c :: rest))

/-- Passes over the key of a member and the colon behind it. -/
def stepKey (text : List Char) : Result (List Goal) :=
  match skipBlank text with
  | [] => .error (stopPast (.endIn .object) [])
  | c :: rest =>
    if c = '"' then
      match skipString rest with
      | .error e => .error e
      | .ok rest => .skipped [.value, .next .object] (skipColon rest)
    else .error (stopPast .keyNotString (c :: rest))

/-- Starts an item inside brackets. -/
def stepItem : Bracket → List Char → Result (List Goal)
  | .list, text => (stepValue text).map (· ++ [.next .list])
  | .object, text => stepKey text

/-- Meets a part of a goal: the goals left of it, and the rest of the text. -/
def step (goal : Goal) (text : List Char) : Result (List Goal) :=
  match goal with
  | .value => stepValue text
  | .first bracket =>
    match skipBlank text with
    | [] => .error (stopPast (.endIn bracket) [])
    | c :: rest => if c = bracket.closing then .ok ([], rest) else stepItem bracket (c :: rest)
  | .next bracket =>
    match skipBlank text with
    | [] => .error (stopPast (.endIn bracket) [])
    | c :: rest =>
      if c = bracket.closing then .ok ([], rest)
      else if c = ',' then stepItem bracket rest
      else .error (stopPast (.expectedComma bracket) (c :: rest))

theorem stepValue_shrinks : Shrinks stepValue := by
  intro text goals rest h
  unfold stepValue at h
  split at h
  · simp at h
  · next c r hb =>
    have hlt := length_of_skipBlank hb
    have hle := length_skipBlank text
    rw [hb] at hle
    split at h
    · grind
    split at h
    · grind
    split at h
    · have := skipString_length (Result.skipped_eq_ok.1 h).1
      omega
    split at h
    · have := skipWord_length (Result.skipped_eq_ok.1 h).1
      omega
    split at h
    · have := skipWord_length (Result.skipped_eq_ok.1 h).1
      omega
    split at h
    · have := skipWord_length (Result.skipped_eq_ok.1 h).1
      omega
    split at h
    · obtain ⟨_, hx, -⟩ := Result.map_eq_ok.1 h
      have := readNumeral_shrinks _ hx
      omega
    · simp at h

theorem stepKey_shrinks : Shrinks stepKey := by
  intro text goals rest h
  unfold stepKey at h
  split at h
  · simp at h
  · next hb =>
    have := length_of_skipBlank hb
    split at h
    · split at h
      · simp at h
      · next hr =>
        have := skipString_length hr
        have := skipColon_length (Result.skipped_eq_ok.1 h).1
        omega
    · simp at h

theorem stepItem_shrinks (bracket : Bracket) : Shrinks (stepItem bracket) := by
  cases bracket with
  | list => exact stepValue_shrinks.map _
  | object => exact stepKey_shrinks

theorem step_shrinks (goal : Goal) : Shrinks (step goal) := by
  intro text goals rest h
  cases goal with
  | value => exact stepValue_shrinks h
  | first bracket =>
    simp only [step] at h
    split at h
    · simp at h
    · next hb =>
      have hlt := length_of_skipBlank hb
      have hle := length_skipBlank text
      rw [hb] at hle
      split at h
      · grind
      · have := stepItem_shrinks _ h
        omega
  | next bracket =>
    simp only [step] at h
    split at h
    · simp at h
    · next hb =>
      have hlt := length_of_skipBlank hb
      split at h
      · grind
      split at h
      · have := stepItem_shrinks _ h
        omega
      · simp at h

/-- Meets all goals. -/
def skipGoals : List Goal → List Char → Except Stop (List Char)
  | [], text => .ok text
  | goal :: goals, text =>
    match h : step goal text with
    | .error e => .error e
    | .ok (more, rest) =>
      have := step_shrinks goal h
      skipGoals (more ++ goals) rest
termination_by _ text => text.length

/-- Passes over one value. -/
def skipValue (text : List Char) : Except Stop (List Char) := skipGoals [.value] text

theorem skipGoals_length {goals : List Goal} {text rest : List Char}
    (h : skipGoals goals text = .ok rest) : rest.length ≤ text.length := by
  fun_induction skipGoals goals text <;> grind

theorem skipValue_length {text rest : List Char} (h : skipValue text = .ok rest) :
    rest.length < text.length := by
  unfold skipValue skipGoals at h
  split at h
  · simp at h
  · next hs =>
    have := step_shrinks _ hs
    have := skipGoals_length h
    omega

end AutomatonGrammar.Json
