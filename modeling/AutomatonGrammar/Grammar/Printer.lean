import AutomatonGrammar.Grammar.Basic

/-!
# Grammars as text

One line per non-terminal, `s -> r₁ | r₂ | ...`, in ascending order, and a longer report that also
lists the non-terminals, the terminals and the start symbol.
-/

namespace AutomatonGrammar

/-- The right-hand side as it is printed: symbol and target without a space, or `ε`. -/
def Production.text : Production → String
  | .step x t => x ++ t
  | .epsilon => epsilonSymbol

namespace Grammar

/-- The line of the non-terminal `s`. -/
def line (s : State) (rules : List Production) : String :=
  s ++ " -> " ++ " | ".intercalate (rules.map Production.text)

def lines (g : Grammar) : List String := g.productions.toList.map fun (s, rules) => line s rules

/-- Names between braces, separated by commas. -/
def braced (names : SortedSet String) : String :=
  "\x7b" ++ ", ".intercalate names.toList ++ "\x7d"

def report (g : Grammar) : String :=
  "Non-terminals: " ++ braced g.nonTerminals ++ "\n" ++
  "Terminals: " ++ braced g.terminals ++ "\n" ++
  "Start Symbol: " ++ g.start ++ "\n" ++
  "Productions:\n" ++
  String.join (g.lines.map fun l => "  " ++ l ++ "\n")

end Grammar

end AutomatonGrammar
