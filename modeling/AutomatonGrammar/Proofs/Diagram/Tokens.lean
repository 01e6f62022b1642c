import AutomatonGrammar.Diagram.Printer

/-!
# Tokens of DOT text

A reader of DOT text sees words, texts between quotes, and marks. A text between quotes ends at the first
quote without a backslash, and in it `\"` is a quote and `\\` a backslash; to a reader it is the same as
a word. Blanks between tokens say nothing.

    tokens (quote name ++ rest) = (tokens rest).map (.id name :: ·)                  (tokens_quote)
    tokens (w ++ rest) = (tokens rest).map (.id w :: ·)          if `w` ends there    (tokens_word)
-/

namespace AutomatonGrammar.Dot

/-! ## Texts between quotes -/

/-- Puts a character in front of what was read. -/
def prepend (c : Char) : Option (List Char × List Char) → Option (List Char × List Char) :=
  Option.map fun (name, rest) => (c :: name, rest)

/-- What stands in front of the first quote without a backslash, and what stands behind that quote. A
backslash in front of anything but a quote or a backslash is a character like others. -/
def quoted : List Char → Option (List Char × List Char)
  | [] => none
  | '"' :: text => some ([], text)
  | '\\' :: '"' :: text => prepend '"' (quoted text)
  | '\\' :: '\\' :: text => prepend '\\' (quoted text)
  | c :: text => prepend c (quoted text)

theorem length_lt_of_prepend {c : Char} {text name rest : List Char}
    (ih : ∀ {name rest}, quoted text = some (name, rest) → rest.length < text.length)
    (h : prepend c (quoted text) = some (name, rest)) : rest.length < text.length := by
  obtain ⟨⟨name', rest'⟩, hq, he⟩ := Option.map_eq_some_iff.1 h
  cases he
  exact ih hq

/-- A quoted name takes at least its closing quote, so the tokens end. -/
theorem length_lt_of_quoted {text name rest : List Char} (h : quoted text = some (name, rest)) :
    rest.length < text.length := by
  fun_induction quoted text generalizing name rest with
  | case1 => cases h
  | case2 text =>
    cases h
    exact Nat.lt_succ_self _
  | case3 text ih =>
    have := length_lt_of_prepend ih h
    simp only [List.length_cons]
    omega
  | case4 text ih =>
    have := length_lt_of_prepend ih h
    simp only [List.length_cons]
    omega
  | case5 c text _ _ _ ih =>
    have := length_lt_of_prepend ih h
    simp only [List.length_cons]
    omega

/-- A character is read back from its escape. -/
theorem quoted_escapeChar (c : Char) (rest : List Char) :
    quoted (Diagram.escapeChar c ++ rest) = prepend c (quoted rest) := by
  unfold Diagram.escapeChar
  split
  · next h =>
    rcases h with rfl | rfl
    · rfl
    · rfl
  · next h =>
    have ⟨hq, hb⟩ := not_or.1 h
    rw [List.singleton_append, quoted]
    · exact hq
    · exact fun _ e => absurd e hb
    · exact fun _ e => absurd e hb

/-- A name is read back up to the quote that ends it. -/
theorem quoted_escaped (name rest : List Char) :
    quoted (name.flatMap Diagram.escapeChar ++ '"' :: rest) = some (name, rest) := by
  induction name with
  | nil => rfl
  | cons c name ih =>
    rw [List.flatMap_cons, List.append_assoc, quoted_escapeChar, ih]
    rfl

/-! ## Tokens -/

inductive Token where
  /-- A word, or a text between quotes. -/
  | id (name : String)
  | mark (c : Char)
deriving DecidableEq

/-- The tokens of a text; none if a quote is not closed. -/
def tokens (text : List Char) : Option (List Token) :=
  match text with
  | [] => some []
  | c :: text =>
    if c.isAlphanum then
      let word := c :: text.takeWhile Char.isAlphanum
      (tokens (text.dropWhile Char.isAlphanum)).map (.id (.ofList word) :: ·)
    else if c = '"' then
      match _h : quoted text with
      | none => none
      | some (name, rest) => (tokens rest).map (.id (.ofList name) :: ·)
    else if c.isWhitespace then tokens text
    else (tokens text).map (.mark c :: ·)
termination_by text.length
decreasing_by
  · exact Nat.lt_succ_of_le (List.dropWhile_suffix _).length_le
  · exact Nat.lt_succ_of_lt (length_lt_of_quoted _h)
  · exact Nat.lt_succ_self _
  · exact Nat.lt_succ_self _

/-- A word ends where something else than a letter or a digit follows. -/
theorem tokens_word {w rest : List Char} (hne : w ≠ []) (hw : ∀ c ∈ w, c.isAlphanum = true)
    (hr : ∀ c ∈ rest.head?, c.isAlphanum = false) :
    tokens (w ++ rest) = (tokens rest).map (.id (.ofList w) :: ·) := by
  cases w with
  | nil => exact absurd rfl hne
  | cons c w =>
    -- nothing behind the word belongs to it
    have hstop : rest.takeWhile Char.isAlphanum = [] ∧ rest.dropWhile Char.isAlphanum = rest := by
      cases rest with
      | nil => exact ⟨rfl, rfl⟩
      | cons d rest =>
        have hd : ¬d.isAlphanum = true := by simp [hr d rfl]
        exact ⟨List.takeWhile_cons_of_neg hd, List.dropWhile_cons_of_neg hd⟩
    have hmore : ∀ d ∈ w, d.isAlphanum = true := fun d hd => hw d (.tail _ hd)
    rw [List.cons_append, tokens, if_pos (hw c (.head _)), List.takeWhile_append_of_pos hmore,
      List.dropWhile_append_of_pos hmore, hstop.1, hstop.2, List.append_nil]

/-- A quoted name is one token, whatever stands in it. -/
theorem tokens_quote (name : String) (rest : List Char) :
    tokens (Diagram.quote name ++ rest) = (tokens rest).map (.id name :: ·) := by
  have hq : quoted (name.toList.flatMap Diagram.escapeChar ++ ['"'] ++ rest) =
      some (name.toList, rest) := by
    rw [List.append_assoc]
    exact quoted_escaped _ _
  rw [Diagram.quote, List.cons_append, tokens, if_neg (by decide), if_pos rfl]
  split
  · next he =>
    rw [hq] at he
    cases he
  · next he =>
    rw [hq] at he
    cases he
    rw [String.ofList_toList]

/-- The name of the node with the given number, as a reader sees it. -/
def nodeName (n : Nat) : String := .ofList (Diagram.nodeId n)

theorem tokens_nodeId (n : Nat) {c : Char} (hc : c.isAlphanum = false) (rest : List Char) :
    tokens (Diagram.nodeId n ++ c :: rest) =
      (tokens (c :: rest)).map (.id (nodeName n) :: ·) := by
  refine tokens_word (List.cons_ne_nil _ _) (fun d hd => ?_) (fun d hd => ?_)
  · rcases List.mem_cons.1 hd with rfl | hd
    · rfl
    · simp [Char.isAlphanum, Nat.isDigit_of_mem_toDigits (by decide) (by decide) hd]
  · cases hd
    exact hc

end AutomatonGrammar.Dot
