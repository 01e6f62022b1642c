import AutomatonGrammar.Proofs.Diagram.Reader

/-!
# Reading back diagrams

Every line of a diagram's text says its statement whatever stands behind it, so the lines together say
the statements of the diagram, in order. Put into a diagram one after another these make that diagram.

    tokens d.chars = some (… :: ts) ∧ statements ts = some (statementsOf d)           (tokens_chars)
    (statementsOf d).foldlM place ⟨false, [], none, []⟩ = some d                      (foldlM_place)
    read d.text = some d                                                              (read_text)
-/

namespace AutomatonGrammar.Dot

/-! ## What a text says -/

/-- A text that says these statements, whatever follows it. -/
def Says (text : List Char) (ss : List Statement) : Prop :=
  ∀ rest, (tokens (text ++ rest)).bind statements =
    ((tokens rest).bind statements).map (ss ++ ·)

namespace Says

theorem nil : Says [] [] := by
  intro rest
  simp

/-- Texts say one after another what each of them says. -/
theorem append {t₁ t₂ : List Char} {ss₁ ss₂ : List Statement} (h₁ : Says t₁ ss₁)
    (h₂ : Says t₂ ss₂) : Says (t₁ ++ t₂) (ss₁ ++ ss₂) := by
  intro rest
  rw [List.append_assoc, h₁, h₂, Option.map_map]
  simp [Function.comp_def]

theorem flatMap {α : Type} {line : α → List Char} {ss : α → List Statement} (l : List α)
    (h : ∀ x ∈ l, Says (line x) (ss x)) : Says (l.flatMap line) (l.flatMap ss) := by
  induction l with
  | nil => exact nil
  | cons x l ih =>
    rw [List.flatMap_cons, List.flatMap_cons]
    exact append (h x (.head _)) (ih fun y hy => h y (.tail _ hy))

/-- A line whose tokens are a statement and a semicolon says that statement. -/
theorem of_tokens (ts : List Token) {text : List Char} {s : Statement}
    (ht : ∀ rest, tokens (text ++ rest) = (tokens rest).map (ts ++ .mark ';' :: ·))
    (hend : .mark ';' ∉ ts) (hs : statement ts = some s) : Says text [s] := by
  intro rest
  rw [ht, Option.bind_map]
  cases tokens rest with
  | none => rfl
  | some more => exact statements_append hend hs more

end Says

/-! ## Lines -/

def layoutStatement : Statement := .setting "rankdir" "LR"

theorem says_layout : Says "    rankdir=LR;\n".toList [layoutStatement] := by
  refine Says.of_tokens [.id "rankdir", .mark '=', .id "LR"] (fun rest => ?_) (by simp) rfl
  simp [tokens, Function.comp_def]

def shape (accepting : Bool) : String := if accepting then "doublecircle" else "circle"

def nodeStatement (n : Nat) (node : Diagram.Node) : Statement :=
  .node (nodeName n) [("label", node.name), ("shape", shape node.accepting)]

/-- The line of a node says its number, its name and its shape. -/
theorem says_node (n : Nat) (node : Diagram.Node) : Says (node.line n) [nodeStatement n node] := by
  refine Says.of_tokens [.id (nodeName n), .mark '[', .id "label", .mark '=', .id node.name,
    .mark ',', .id "shape", .mark '=', .id (shape node.accepting), .mark ']'] (fun rest => ?_)
    (by simp) (statement_node _ _)
  unfold Diagram.Node.line shape
  cases node.accepting with
  | true => simp [tokens, tokens_nodeId, tokens_quote, Function.comp_def]
  | false => simp [tokens, tokens_nodeId, tokens_quote, Function.comp_def]

def pointStatement : Statement := .node "start" [("label", ""), ("shape", "point")]

def entryStatement (n : Nat) : Statement := .edge "start" (nodeName n) []

theorem says_entry (n : Nat) :
    Says (Diagram.entryLines n) [pointStatement, entryStatement n] := by
  have hpoint : Says ("    start [label=".toList ++ Diagram.quote "" ++ ", shape=point];\n".toList)
      [pointStatement] := by
    refine Says.of_tokens [.id "start", .mark '[', .id "label", .mark '=', .id "", .mark ',',
      .id "shape", .mark '=', .id "point", .mark ']'] (fun rest => ?_) (by simp)
      (statement_node _ _)
    simp [tokens, tokens_quote, Function.comp_def]
  have hentry : Says ("    start -> ".toList ++ Diagram.nodeId n ++ ";\n".toList)
      [entryStatement n] := by
    refine Says.of_tokens [.id "start", .mark '-', .mark '>', .id (nodeName n)]
      (fun rest => ?_) (by simp) (statement_edge _ _ _)
    simp [tokens, tokens_nodeId, Function.comp_def]
  -- both lines are written as one text, and its middle is the end of one and the start of the other
  have hlines : Diagram.entryLines n =
      "    start [label=".toList ++ Diagram.quote "" ++ ", shape=point];\n".toList ++
        ("    start -> ".toList ++ Diagram.nodeId n ++ ";\n".toList) := by
    unfold Diagram.entryLines Diagram.quote
    simp
  rw [hlines]
  exact hpoint.append hentry

def arrowStatement (x : Diagram.Arrow) : Statement :=
  .edge (nodeName x.source) (nodeName x.target) [("label", x.label)]

/-- The line of an arrow says the numbers of its ends and its label. -/
theorem says_arrow (x : Diagram.Arrow) : Says x.line [arrowStatement x] := by
  refine Says.of_tokens [.id (nodeName x.source), .mark '-', .mark '>',
    .id (nodeName x.target), .mark '[', .id "label", .mark '=', .id x.label, .mark ']']
    (fun rest => ?_) (by simp) (statement_edge _ _ _)
  unfold Diagram.Arrow.line
  simp [tokens, tokens_nodeId, tokens_quote, Function.comp_def]

/-! ## Whole texts -/

/-- What the text of a diagram says, statement by statement. -/
def statementsOf (d : Diagram) : List Statement :=
  (if d.horizontal then [layoutStatement] else []) ++
  (d.nodes.zipIdx.flatMap fun (node, n) => [nodeStatement n node]) ++
  (match d.entry with
    | none => []
    | some n => [pointStatement, entryStatement n]) ++
  d.arrows.flatMap fun x => [arrowStatement x]

theorem tokens_graph {lines : List Char} {ss : List Statement} (h : Says lines ss) :
    ∃ ts, statements ts = some ss ∧
      tokens ("digraph dfa \x7b\n".toList ++ (lines ++ "\x7d\n".toList)) =
        some (.id "digraph" :: .id "dfa" :: .mark '\x7b' :: ts) := by
  have hopen : ∀ rest, tokens ("digraph dfa \x7b\n".toList ++ rest) =
      (tokens rest).map (.id "digraph" :: .id "dfa" :: .mark '\x7b' :: ·) := by
    intro rest
    simp [tokens, Function.comp_def]
  have hclose : tokens "\x7d\n".toList = some [.mark '\x7d'] := by simp [tokens]
  have hsaid := h "\x7d\n".toList
  rw [hclose, Option.bind_some, show statements [.mark '\x7d'] = some [] from rfl,
    Option.map_some, List.append_nil] at hsaid
  obtain ⟨ts, hts, hss⟩ := Option.bind_eq_some_iff.1 hsaid
  exact ⟨ts, hss, by rw [hopen, hts]; rfl⟩

/-- The whole text is cut into its statements between the braces of a graph. -/
theorem tokens_chars (d : Diagram) : ∃ ts, statements ts = some (statementsOf d) ∧
    tokens d.chars = some (.id "digraph" :: .id "dfa" :: .mark '\x7b' :: ts) := by
  have hlayout : Says (if d.horizontal then "    rankdir=LR;\n".toList else [])
      (if d.horizontal then [layoutStatement] else []) := by
    split
    · exact says_layout
    · exact .nil
  have hnodes : Says (d.nodes.zipIdx.flatMap fun (node, n) => node.line n)
      (d.nodes.zipIdx.flatMap fun (node, n) => [nodeStatement n node]) :=
    .flatMap _ fun (node, n) _ => says_node n node
  have hentry : Says (match d.entry with | none => [] | some n => Diagram.entryLines n)
      (match d.entry with | none => [] | some n => [pointStatement, entryStatement n]) := by
    cases d.entry with
    | none => exact .nil
    | some n => exact says_entry n
  have harrows : Says (d.arrows.flatMap Diagram.Arrow.line)
      (d.arrows.flatMap fun x => [arrowStatement x]) :=
    .flatMap _ fun x _ => says_arrow x
  have h := tokens_graph (((hlayout.append hnodes).append hentry).append harrows)
  rw [← List.append_assoc, ← List.append_assoc, ← List.append_assoc, ← List.append_assoc] at h
  exact h

/-! ## Statements put into a diagram -/

theorem place_node (d : Diagram) (node : Diagram.Node) :
    place d (nodeStatement d.nodes.length node) = some { d with nodes := d.nodes ++ [node] } := by
  obtain ⟨name, accepting⟩ := node
  simp only [nodeStatement, place]
  rw [if_neg fun h => nodeName_ne_start _ h.1, if_pos (number?_nodeName _)]
  cases accepting <;> rfl

theorem place_entry {d : Diagram} (h : d.entry = none) (n : Nat) :
    place d (entryStatement n) = some { d with entry := some n } := by
  simp only [entryStatement, place]
  rw [if_pos ⟨trivial, h⟩, number?_nodeName]
  rfl

theorem place_arrow (d : Diagram) (x : Diagram.Arrow) :
    place d (arrowStatement x) = some { d with arrows := d.arrows ++ [x] } := by
  simp [arrowStatement, place, number?_nodeName]

theorem foldlM_place_nodes (nodes : List Diagram.Node) (d : Diagram) :
    ((nodes.zipIdx d.nodes.length).flatMap fun (node, n) => [nodeStatement n node]).foldlM place d =
      some { d with nodes := d.nodes ++ nodes } := by
  induction nodes generalizing d with
  | nil => simp
  | cons node nodes ih =>
    -- the nodes placed so far say which number comes next, so the induction is on any diagram
    have h := ih { d with nodes := d.nodes ++ [node] }
    rw [List.length_append, List.length_singleton, List.append_assoc] at h
    rw [List.zipIdx_cons, List.flatMap_cons, List.singleton_append, List.foldlM_cons, place_node]
    exact h

theorem foldlM_place_arrows (arrows : List Diagram.Arrow) (d : Diagram) :
    (arrows.flatMap fun x => [arrowStatement x]).foldlM place d =
      some { d with arrows := d.arrows ++ arrows } := by
  induction arrows generalizing d with
  | nil => simp
  | cons x arrows ih =>
    have h := ih { d with arrows := d.arrows ++ [x] }
    rw [List.append_assoc] at h
    rw [List.flatMap_cons, List.singleton_append, List.foldlM_cons, place_arrow]
    exact h

/-- The statements of a diagram, put into an empty one in order, make that diagram. -/
theorem foldlM_place (d : Diagram) :
    (statementsOf d).foldlM place ⟨false, [], none, []⟩ = some d := by
  obtain ⟨horizontal, nodes, entry, arrows⟩ := d
  have hlayout : (if horizontal then [layoutStatement] else []).foldlM place
      ⟨false, [], none, []⟩ = some ⟨horizontal, [], none, []⟩ := by
    cases horizontal <;> rfl
  have hentry : (match entry with
      | none => []
      | some n => [pointStatement, entryStatement n]).foldlM place ⟨horizontal, nodes, none, []⟩ =
        some ⟨horizontal, nodes, entry, []⟩ := by
    cases entry with
    | none => rfl
    | some n =>
      have hpoint : ∀ d, place d pointStatement = some d := fun _ => rfl
      rw [List.foldlM_cons, hpoint]
      show [entryStatement n].foldlM place _ = _
      rw [List.foldlM_cons, place_entry rfl]
      rfl
  have hnodes := foldlM_place_nodes nodes ⟨horizontal, [], none, []⟩
  have harrows := foldlM_place_arrows arrows ⟨horizontal, nodes, entry, []⟩
  simp only [List.nil_append, List.length_nil] at hnodes harrows
  simp only [statementsOf, List.foldlM_append, hlayout, Option.bind_some, Option.bind_eq_bind,
    hnodes, hentry, harrows]

/-- **A diagram is read back from its text.** -/
theorem read_text (d : Diagram) : read d.text = some d := by
  obtain ⟨ts, hts, htokens⟩ := tokens_chars d
  rw [read, Diagram.text, String.toList_ofList, htokens]
  show (statements ts).bind (fun ss => ss.foldlM place _) = _
  rw [hts]
  exact foldlM_place d

end AutomatonGrammar.Dot
