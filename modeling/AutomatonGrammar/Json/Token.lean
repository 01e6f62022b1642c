import AutomatonGrammar.Json.Numeral
import AutomatonGrammar.Json.Quoted

/-!
# Blanks, words and brackets in JSON

What readers of lists, objects and skipped values have in common.
-/

namespace AutomatonGrammar.Json

/-- The four characters that may stand between tokens. -/
def isBlank (c : Char) : Bool := c = ' ' || c = '\n' || c = '\t' || c = '\r'

def skipBlank (text : List Char) : List Char := text.dropWhile isBlank

theorem length_skipBlank (text : List Char) : (skipBlank text).length ≤ text.length :=
  (List.dropWhile_sublist _).length_le

theorem length_of_skipBlank {text rest : List Char} {c : Char} (h : skipBlank text = c :: rest) :
    rest.length < text.length := by
  have := length_skipBlank text
  rw [h, List.length_cons] at this
  omega

/-- Passes over the letters of a word. -/
def skipWord : (word : List Char) → List Char → Except Stop (List Char)
  | [], rest => .ok rest
  | _ :: _, [] => .error (stopAt .endInValue [])
  | w :: word, c :: rest =>
    if c = w then skipWord word rest else .error (stopPast .expectedIdent (c :: rest))

theorem skipWord_length {word text rest : List Char} (h : skipWord word text = .ok rest) :
    rest.length ≤ text.length := by
  fun_induction skipWord word text <;> grind

/-- Whether a number starts with `c`. -/
def startsNumeral (c : Char) : Bool := c = '-' || c.isDigit

def Bracket.closing : Bracket → Char
  | .list => ']'
  | .object => '\x7d'

/-- Passes over a colon. -/
def skipColon (text : List Char) : Except Stop (List Char) :=
  match skipBlank text with
  | [] => .error (stopPast (.endIn .object) [])
  | c :: rest => if c = ':' then .ok rest else .error (stopPast .expectedColon (c :: rest))

theorem skipColon_length {text rest : List Char} (h : skipColon text = .ok rest) :
    rest.length < text.length := by
  unfold skipColon at h
  split at h
  · simp at h
  · next hb =>
    have := length_of_skipBlank hb
    grind

end AutomatonGrammar.Json
