import AutomatonGrammar.Proofs.Diagram.Tokens

/-!
# A reader of DOT text

The reader knows nothing of how a diagram is written. It cuts the tokens between the braces into
statements, each ended by a semicolon, and puts what they say into a diagram, one after another: a
setting, a node with its attributes, or an edge with its attributes. It refuses whatever it does not
understand, and a node that is not numbered in its turn.
-/

namespace AutomatonGrammar.Dot

/-! ## Statements -/

inductive Statement where
  | setting (key value : String)
  | node (id : String) (attributes : List (String × String))
  | edge (source target : String) (attributes : List (String × String))
deriving DecidableEq

/-- The attributes up to the closing bracket. -/
def attributes : List Token → Option (List (String × String))
  | [.id key, .mark '=', .id value, .mark ']'] => some [(key, value)]
  | .id key :: .mark '=' :: .id value :: .mark ',' :: ts =>
    (attributes ts).map ((key, value) :: ·)
  | _ => none

/-- The attributes of a statement, if it has any. -/
def attributeList : List Token → Option (List (String × String))
  | [] => some []
  | .mark '[' :: ts => attributes ts
  | _ => none

def statement : List Token → Option Statement
  | [.id key, .mark '=', .id value] => some (.setting key value)
  | .id source :: .mark '-' :: .mark '>' :: .id target :: ts =>
    (attributeList ts).map (.edge source target)
  | .id id :: ts => (attributeList ts).map (.node id)
  | _ => none

theorem statement_edge (source target : String) (ts : List Token) :
    statement (.id source :: .mark '-' :: .mark '>' :: .id target :: ts) =
      (attributeList ts).map (.edge source target) := rfl

theorem statement_node (id : String) (ts : List Token) :
    statement (.id id :: .mark '[' :: ts) = (attributes ts).map (.node id) := rfl

/-- The statements in what was cut at the semicolons: behind the last one there is the closing brace, and
nothing behind that. -/
def statementList : List (List Token) → Option (List Statement)
  | [] => none
  | [.mark '\x7d'] :: [] => some []
  | ts :: rest => do return (← statement ts) :: (← statementList rest)

/-- The statements between the braces of a graph. -/
def statements (ts : List Token) : Option (List Statement) :=
  statementList (ts.splitOn (.mark ';'))

/-- The statement in front of a semicolon is read by itself. -/
theorem statements_append {ts : List Token} {s : Statement} (hend : .mark ';' ∉ ts)
    (hs : statement ts = some s) (rest : List Token) :
    statements (ts ++ .mark ';' :: rest) = (statements rest).map (s :: ·) := by
  unfold statements
  rw [List.splitOn_append_cons_self_of_not_mem hend]
  cases hrest : rest.splitOn (.mark ';') with
  | nil => exact absurd hrest (List.splitOn_ne_nil _ _)
  | cons ts' more =>
    rw [statementList]
    · rw [hs]
      cases statementList (ts' :: more) <;> rfl
    · simp

/-! ## Diagrams -/

/-- The number of a node, by its name. -/
def number? (id : String) : Option Nat :=
  match id.toList with
  | 'n' :: digits =>
    let n := Nat.ofDigitChars 10 digits 0
    if Nat.toDigits 10 n = digits then some n else none
  | _ => none

theorem number?_nodeName (n : Nat) : number? (nodeName n) = some n := by
  simp [number?, nodeName, Diagram.nodeId]

/-- No node has the name of the point that the entry arrow comes from. -/
theorem nodeName_ne_start (n : Nat) : nodeName n ≠ "start" := by
  intro h
  have hhead := congrArg (fun s => s.toList.head?) h
  simp [nodeName, Diagram.nodeId] at hhead

/-- Whether a node of this shape is drawn as accepting. -/
def accepting? (shape : String) : Option Bool :=
  if shape = "doublecircle" then some true else if shape = "circle" then some false else none

/-- Puts what a statement says into the diagram that the statements before it make. The point that the
entry arrow comes from is no node of the diagram. -/
def place (d : Diagram) : Statement → Option Diagram
  | .setting key value =>
    if key = "rankdir" ∧ value = "LR" then some { d with horizontal := true } else none
  | .node id [("label", name), ("shape", shape)] =>
    if id = "start" ∧ name = "" ∧ shape = "point" then some d
    else if number? id = some d.nodes.length then
      (accepting? shape).map fun accepting => { d with nodes := d.nodes ++ [⟨name, accepting⟩] }
    else none
  | .edge source target [] =>
    if source = "start" ∧ d.entry = none then
      (number? target).map fun n => { d with entry := some n }
    else none
  | .edge source target [("label", label)] => do
    return { d with arrows := d.arrows ++ [⟨← number? source, ← number? target, label⟩] }
  | _ => none

/-- The diagram that a DOT text describes. -/
def read (text : String) : Option Diagram :=
  match tokens text.toList with
  | some (.id "digraph" :: .id _ :: .mark '\x7b' :: ts) => do
    (← statements ts).foldlM place ⟨false, [], none, []⟩
  | _ => none

end AutomatonGrammar.Dot
