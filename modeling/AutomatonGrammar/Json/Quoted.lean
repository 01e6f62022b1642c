import AutomatonGrammar.Json.Problem

/-!
# JSON strings

`readString` reads what follows an opening quote, up to and with the closing one, and decodes the
escapes; `skipString` passes over it and does not look at surrogates. `quote` writes a string, with an
escape for quotes, backslashes and control characters and for nothing else.
-/

namespace AutomatonGrammar.Json

/-! ## Escapes -/

def hexDigit? (c : Char) : Option Nat :=
  if '0' ≤ c ∧ c ≤ '9' then some (c.toNat - '0'.toNat)
  else if 'a' ≤ c ∧ c ≤ 'f' then some (c.toNat - 'a'.toNat + 10)
  else if 'A' ≤ c ∧ c ≤ 'F' then some (c.toNat - 'A'.toNat + 10)
  else none

/-- The number that four hexadecimal digits stand for. -/
def hexNumber? (a b c d : Char) : Option Nat :=
  match hexDigit? a, hexDigit? b, hexDigit? c, hexDigit? d with
  | some a, some b, some c, some d => some (((a * 16 + b) * 16 + c) * 16 + d)
  | _, _, _, _ => none

/-- Stops behind four bytes that are not four digits, or at the end where there are not that many. -/
def stopHex (text : List Char) : Stop :=
  if byteLength text < 4 then ⟨.endInString, 0⟩ else ⟨.invalidEscape, byteLength text - 4⟩

/-- Reads four hexadecimal digits. -/
def readHex : List Char → Result Nat
  | a :: b :: c :: d :: rest =>
    match hexNumber? a b c d with
    | some n => .ok (n, rest)
    | none => .error (stopHex (a :: b :: c :: d :: rest))
  | text => .error (stopHex text)

/-- The first halves of surrogate pairs. -/
def isHighSurrogate (n : Nat) : Bool := 0xD800 ≤ n && n ≤ 0xDBFF

/-- The second halves of surrogate pairs. -/
def isLowSurrogate (n : Nat) : Bool := 0xDC00 ≤ n && n ≤ 0xDFFF

/-- The character that a surrogate pair stands for. -/
def pairChar (high low : Nat) : Char :=
  Char.ofNat (0x10000 + (high - 0xD800) * 0x400 + (low - 0xDC00))

/-- Stops where the second half of a surrogate pair is missing. -/
def stopPair : List Char → Stop
  | [] | ['\\'] => ⟨.endInString, 0⟩
  | '\\' :: rest => stopPast .brokenPair rest
  | rest => stopPast .brokenPair rest

/-- Reads what follows the `u` of an escape: one code unit, or the two of a surrogate pair. -/
def readUnicode (text : List Char) : Result Char :=
  match readHex text with
  | .error e => .error e
  | .ok (n, rest) =>
    if isLowSurrogate n then .error (stopAt .loneSurrogate rest)
    else if isHighSurrogate n then
      match rest with
      | '\\' :: 'u' :: rest =>
        match readHex rest with
        | .error e => .error e
        | .ok (m, rest) =>
          if isLowSurrogate m then .ok (pairChar n m, rest)
          else .error (stopAt .loneSurrogate rest)
      | rest => .error (stopPair rest)
    else .ok (Char.ofNat n, rest)

/-- The character that a one-letter escape stands for. -/
def escaped? : Char → Option Char
  | '"' => some '"'
  | '\\' => some '\\'
  | '/' => some '/'
  | 'b' => some '\x08'
  | 'f' => some '\x0c'
  | 'n' => some '\n'
  | 'r' => some '\r'
  | 't' => some '\t'
  | _ => none

/-- Reads what follows the backslash of an escape. -/
def readEscape : List Char → Result Char
  | [] => .error (stopAt .endInString [])
  | 'u' :: rest => readUnicode rest
  | c :: rest =>
    match escaped? c with
    | some d => .ok (d, rest)
    | none => .error (stopPast .invalidEscape (c :: rest))

/-- Passes over what follows the backslash of an escape. -/
def skipEscape : List Char → Except Stop (List Char)
  | [] => .error (stopAt .endInString [])
  | 'u' :: rest =>
    match readHex rest with
    | .error e => .error e
    | .ok (_, rest) => .ok rest
  | c :: rest =>
    match escaped? c with
    | some _ => .ok rest
    | none => .error (stopPast .invalidEscape (c :: rest))

theorem readHex_length {text rest : List Char} {n : Nat} (h : readHex text = .ok (n, rest)) :
    rest.length < text.length := by
  unfold readHex at h
  split at h
  · split at h
    · simp only [Except.ok.injEq, Prod.mk.injEq] at h
      simp only [← h.2, List.length_cons]
      omega
    · simp at h
  · simp at h

theorem readUnicode_shrinks : Shrinks readUnicode := by
  intro text c rest h
  unfold readUnicode at h
  split at h
  · simp at h
  · next n rest' hr =>
    have hlt := readHex_length hr
    split at h
    · simp at h
    · split at h
      · split at h
        · split at h
          · simp at h
          · next hr' =>
            have hlt' := readHex_length hr'
            split at h
            · simp only [Except.ok.injEq, Prod.mk.injEq] at h
              simp only [List.length_cons] at hlt
              rw [← h.2]
              omega
            · simp at h
        · simp at h
      · simp only [Except.ok.injEq, Prod.mk.injEq] at h
        rw [← h.2]
        exact hlt

theorem readEscape_shrinks : Shrinks readEscape := by
  intro text c rest h
  unfold readEscape at h
  split at h
  · simp at h
  · have := readUnicode_shrinks h
    simp only [List.length_cons]
    omega
  · split at h
    · simp only [Except.ok.injEq, Prod.mk.injEq] at h
      simp [← h.2]
    · simp at h

theorem skipEscape_length {text rest : List Char} (h : skipEscape text = .ok rest) :
    rest.length < text.length := by
  unfold skipEscape at h
  split at h
  · simp at h
  · split at h
    · simp at h
    · next hr =>
      have := readHex_length hr
      simp only [Except.ok.injEq] at h
      simp only [List.length_cons, ← h]
      omega
  · split at h
    · simp only [Except.ok.injEq] at h
      simp [← h]
    · simp at h

/-! ## Reading and skipping -/

/-- Characters that must not stand in a string. -/
def isControl (c : Char) : Bool := c.toNat < 0x20

/-- Reads a string behind its opening quote. -/
def readString : List Char → Result (List Char)
  | [] => .error (stopAt .endInString [])
  | '"' :: rest => .ok ([], rest)
  | '\\' :: text =>
    match h : readEscape text with
    | .error e => .error e
    | .ok (c, rest) =>
      have := readEscape_shrinks h
      match readString rest with
      | .error e => .error e
      | .ok (s, rest) => .ok (c :: s, rest)
  | c :: rest =>
    if isControl c then .error (stopAt .controlCharacter rest)
    else match readString rest with
      | .error e => .error e
      | .ok (s, rest) => .ok (c :: s, rest)
termination_by text => text.length

/-- Passes over a string behind its opening quote. -/
def skipString : List Char → Except Stop (List Char)
  | [] => .error (stopAt .endInString [])
  | '"' :: rest => .ok rest
  | '\\' :: text =>
    match h : skipEscape text with
    | .error e => .error e
    | .ok rest =>
      have := skipEscape_length h
      skipString rest
  | c :: rest =>
    if isControl c then .error (stopAt .controlCharacter (c :: rest)) else skipString rest
termination_by text => text.length

theorem readString_shrinks : Shrinks readString := by
  intro text s rest h
  fun_induction readString text generalizing s rest <;> grind

theorem skipString_length {text rest : List Char} (h : skipString text = .ok rest) :
    rest.length < text.length := by
  fun_induction skipString text <;> grind

/-! ## Writing -/

/-- The lower-case hexadecimal digit of a number below sixteen. -/
def hexDigit (n : Nat) : Char := if n < 10 then Char.ofNat (0x30 + n) else Char.ofNat (0x57 + n)

/-- How a character is written in a string. -/
def writeChar (c : Char) : List Char :=
  match c with
  | '"' => ['\\', '"']
  | '\\' => ['\\', '\\']
  | '\x08' => ['\\', 'b']
  | '\x0c' => ['\\', 'f']
  | '\n' => ['\\', 'n']
  | '\r' => ['\\', 'r']
  | '\t' => ['\\', 't']
  | c =>
    if isControl c then ['\\', 'u', '0', '0', hexDigit (c.toNat / 16), hexDigit (c.toNat % 16)]
    else [c]

/-- A string between quotes. -/
def quote (s : String) : List Char := '"' :: (s.toList.flatMap writeChar ++ ['"'])

end AutomatonGrammar.Json
