/-!
# Cutting texts into pieces
-/

namespace AutomatonGrammar.Text

/-- The pieces between the occurrences of `c`: always one more than there are occurrences. -/
def split (c : Char) : List Char → List (List Char)
  | [] => [[]]
  | d :: text =>
    if d = c then [] :: split c text
    else match split c text with
      | [] => [[d]]
      | piece :: pieces => (d :: piece) :: pieces

/-- The lines of a text. A line ends at a line feed, and a carriage return just before that belongs to
the end of the line; one anywhere else does not. After the last line feed there is a line only if some
text is left. -/
def lines : List Char → List (List Char)
  | [] => []
  | '\n' :: text => [] :: lines text
  | '\r' :: '\n' :: text => [] :: lines text
  | c :: text => match lines text with
    | [] => [[c]]
    | line :: rest => (c :: line) :: rest

theorem split_ne_nil (c : Char) (text : List Char) : split c text ≠ [] := by
  cases text with
  | nil => simp [split]
  | cons d text =>
    by_cases h : d = c
    · simp [split, h]
    · rw [split, if_neg h]
      split <;> simp

end AutomatonGrammar.Text
