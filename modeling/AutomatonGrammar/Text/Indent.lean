/-!
# Indented texts
-/

namespace AutomatonGrammar.Text

/-- Indents every line of a text but the first. -/
def hang (indent : Nat) (text : String) : String :=
  .ofList <| text.toList.flatMap fun c =>
    if c = '\n' then c :: List.replicate indent ' ' else [c]

end AutomatonGrammar.Text
