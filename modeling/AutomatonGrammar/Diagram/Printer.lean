import AutomatonGrammar.Diagram.Basic

/-!
# Diagrams as DOT text

One statement per line: the layout, the nodes, the entry arrow, the arrows. A name is written between
quotes, with a backslash before every quote and every backslash in it, and so ends at the first quote
without one.
-/

namespace AutomatonGrammar.Diagram

/-- How a character is written in a name. -/
def escapeChar (c : Char) : List Char := if c = '"' ∨ c = '\\' then ['\\', c] else [c]

/-- A name between quotes. -/
def quote (name : String) : List Char := '"' :: (name.toList.flatMap escapeChar ++ ['"'])

/-- The name of the node with the given number. -/
def nodeId (n : Nat) : List Char := 'n' :: Nat.toDigits 10 n

def Node.line (n : Nat) (node : Node) : List Char :=
  "    ".toList ++ nodeId n ++ " [label=".toList ++ quote node.name ++ ", shape=".toList ++
    (if node.accepting then "doublecircle" else "circle").toList ++ "];\n".toList

def Arrow.line (arrow : Arrow) : List Char :=
  "    ".toList ++ nodeId arrow.source ++ " -> ".toList ++ nodeId arrow.target ++
    " [label=".toList ++ quote arrow.label ++ "];\n".toList

/-- The two lines of the entry arrow. -/
def entryLines (n : Nat) : List Char :=
  "    start [label=\"\", shape=point];\n    start -> ".toList ++ nodeId n ++ ";\n".toList

def chars (d : Diagram) : List Char :=
  "digraph dfa \x7b\n".toList ++
  (if d.horizontal then "    rankdir=LR;\n".toList else []) ++
  (d.nodes.zipIdx.flatMap fun (node, n) => node.line n) ++
  (match d.entry with
    | none => []
    | some n => entryLines n) ++
  d.arrows.flatMap Arrow.line ++
  "\x7d\n".toList

/-- The DOT text of a diagram. -/
def text (d : Diagram) : String := .ofList d.chars

end AutomatonGrammar.Diagram
