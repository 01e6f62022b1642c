import AutomatonGrammar.Text.Unprintable

/-!
# Quoted texts

A text between quotes, as it is shown in a message: quotes, backslashes and a few controls have escapes
of one letter, and other characters that cannot be seen are shown by their numbers.
-/

namespace AutomatonGrammar.Text

/-- How a character is shown between quotes. -/
def showChar (c : Char) : List Char :=
  match c with
  | '\x00' => ['\\', '0']
  | '\t' => ['\\', 't']
  | '\r' => ['\\', 'r']
  | '\n' => ['\\', 'n']
  | '"' => ['\\', '"']
  | '\\' => ['\\', '\\']
  | c =>
    if isUnprintable c then
      ['\\', 'u', '\x7b'] ++ Nat.toDigits 16 c.toNat ++ ['\x7d']
    else [c]

/-- A text between quotes, as it is shown in a message. -/
def quoted (text : String) : String := .ofList ('"' :: (text.toList.flatMap showChar ++ ['"']))

end AutomatonGrammar.Text
