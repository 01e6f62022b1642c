import AutomatonGrammar.Json.Quoted

/-!
# Reading back JSON strings

A string is read one written character at a time: a character that is written as itself is read as
itself, and one that is written as an escape is what the escape is read as.

    readString (writeChar c ++ rest) = (readString rest).map (c :: ·)           (readString_writeChar)
    readString (s.flatMap writeChar ++ '"' :: rest) = .ok (s, rest)              (readString_written)
-/

namespace AutomatonGrammar.Json

/-! ## One character -/

theorem readString_escape {text rest : List Char} {c : Char} (h : readEscape text = .ok (c, rest)) :
    readString ('\\' :: text) = (readString rest).map (c :: ·) := by
  rw [readString]
  split
  · next he =>
    rw [h] at he
    cases he
  · next he =>
    rw [h] at he
    cases he
    cases readString rest <;> rfl

theorem readString_plain {c : Char} (hq : c ≠ '"') (hb : c ≠ '\\') (hc : isControl c = false)
    (rest : List Char) : readString (c :: rest) = (readString rest).map (c :: ·) := by
  rw [readString]
  · rw [if_neg (by simp [hc])]
    cases readString rest <;> rfl
  · exact fun h => hq h
  · exact fun h => hb h

/-- The two digits of a control character, behind the two zeros. -/
theorem hexNumber?_control : ∀ n, n < 0x20 →
    hexNumber? '0' '0' (hexDigit (n / 16)) (hexDigit (n % 16)) = some n := by
  decide

theorem readEscape_control {c : Char} (hc : isControl c = true) (rest : List Char) :
    readEscape ('u' :: '0' :: '0' :: hexDigit (c.toNat / 16) :: hexDigit (c.toNat % 16) :: rest) =
      .ok (c, rest) := by
  have hlt : c.toNat < 0x20 := by simpa [isControl] using hc
  have hhigh : isHighSurrogate c.toNat = false := by simp [isHighSurrogate]; omega
  have hlow : isLowSurrogate c.toNat = false := by simp [isLowSurrogate]; omega
  simp [readEscape, readUnicode, readHex, hexNumber?_control _ hlt, hhigh, hlow]

theorem readString_writeChar (c : Char) (rest : List Char) :
    readString (writeChar c ++ rest) = (readString rest).map (c :: ·) := by
  unfold writeChar
  split
  · exact readString_escape rfl
  · exact readString_escape rfl
  · exact readString_escape rfl
  · exact readString_escape rfl
  · exact readString_escape rfl
  · exact readString_escape rfl
  · exact readString_escape rfl
  · next hq hb _ _ _ _ _ =>
    split
    · next hc => exact readString_escape (readEscape_control hc rest)
    · next hc => exact readString_plain hq hb (by simpa using hc) rest

/-! ## Whole strings -/

theorem readString_written (s rest : List Char) :
    readString (s.flatMap writeChar ++ '"' :: rest) = .ok (s, rest) := by
  induction s with
  | nil => simp [readString]
  | cons c s ih =>
    rw [List.flatMap_cons, List.append_assoc, readString_writeChar, ih]
    rfl

theorem readString_quote (s : String) (rest : List Char) :
    ∃ text, quote s ++ rest = '"' :: text ∧ readString text = .ok (s.toList, rest) := by
  refine ⟨s.toList.flatMap writeChar ++ '"' :: rest, ?_, readString_written _ _⟩
  simp [quote]

end AutomatonGrammar.Json
