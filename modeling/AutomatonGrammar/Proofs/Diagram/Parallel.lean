import AutomatonGrammar.Proofs.Automaton.Transitions
import AutomatonGrammar.Proofs.Diagram.Faithful
import Mathlib.Data.List.Nodup

/-!
# Parallel transitions, drawn one by one or as one

A diagram with merged arrows differs from the one with separate arrows only behind the nodes and the entry
arrow. It has one arrow for all transitions from one state to another, and the label of that arrow lists
their symbols in ascending order; so the groups, taken apart, are the transitions again
(`merged_parallel`). The groups are ordered by the numbers of the nodes. The transitions come in the order
of the names, which is another one where a name is not declared.

    g.edges nodes = the transitions that a group stands for                              (Group.edges)
    x ∈ a.symbolsBetween i j ↔ ∃ s t, a.nodes[i]? = some s ∧ a.nodes[j]? = some t ∧
      ⟨s, x, t⟩ ∈ a.edges                                                         (mem_symbolsBetween)
-/

namespace AutomatonGrammar

namespace Automaton

variable {a : Automaton}

theorem mem_symbolsBetween {i j : Nat} {x : Symbol} : x ∈ a.symbolsBetween i j ↔
    ∃ s t, a.nodes[i]? = some s ∧ a.nodes[j]? = some t ∧ ⟨s, x, t⟩ ∈ a.edges := by
  simp only [symbolsBetween, List.mem_map, List.mem_filter, decide_eq_true_iff]
  constructor
  · rintro ⟨e, ⟨he, hs, ht⟩, rfl⟩
    exact ⟨e.source, e.target, hs, ht, he⟩
  · rintro ⟨s, t, hs, ht, he⟩
    exact ⟨⟨s, x, t⟩, ⟨he, hs, ht⟩, rfl⟩

/-- Transitions with one source come in ascending order of their symbols. -/
theorem pairwise_symbolsBetween (a : Automaton) (i j : Nat) :
    (a.symbolsBetween i j).Pairwise (· < ·) := by
  rw [symbolsBetween, List.pairwise_map]
  refine (a.transitions.edges_pairwise.filter _).imp_of_mem fun {e f} he hf hlt => ?_
  have hs := (of_decide_eq_true (List.mem_filter.1 he).2).1
  have hs' := (of_decide_eq_true (List.mem_filter.1 hf).2).1
  have heq : e.source = f.source := Option.some.inj (hs.symm.trans hs')
  rcases hlt with hlt | ⟨-, hlt⟩
  · exact absurd (heq ▸ hlt) Std.lt_irrefl
  · exact hlt

end Automaton

namespace Diagram

/-! ## Text in front of the arrows -/

/-- The text of a diagram in front of the first arrow: the layout, the nodes and the entry arrow. -/
def front (d : Diagram) : List Char :=
  "digraph dfa \x7b\n".toList ++
  (if d.horizontal then "    rankdir=LR;\n".toList else []) ++
  (d.nodes.zipIdx.flatMap fun (node, n) => node.line n) ++
  (match d.entry with
    | none => []
    | some n => entryLines n)

theorem toList_text (d : Diagram) :
    d.text.toList = d.front ++ d.arrows.flatMap Arrow.line ++ "\x7d\n".toList := by
  unfold text
  exact String.toList_ofList

theorem Arrow.line_eq (x : Arrow) : x.line =
    "    n".toList ++ Nat.toDigits 10 x.source ++ " -> n".toList ++ Nat.toDigits 10 x.target ++
      " [label=".toList ++ quote x.label ++ "];\n".toList := by
  unfold Arrow.line nodeId
  simp

/-! ## Groups of transitions -/

/-- The transitions that a group stands for, in a diagram with these nodes. -/
def Group.edges (nodes : List State) (g : Group) : List Edge :=
  match nodes[g.source]?, nodes[g.target]? with
  | some s, some t => g.labels.map fun x => ⟨s, x, t⟩
  | _, _ => []

theorem Group.mem_edges {nodes : List State} {g : Group} {e : Edge} : e ∈ g.edges nodes ↔
    nodes[g.source]? = some e.source ∧ nodes[g.target]? = some e.target ∧ e.symbol ∈ g.labels := by
  obtain ⟨s, x, t⟩ := e
  unfold Group.edges
  cases nodes[g.source]? with
  | none => simp
  | some s' =>
    cases nodes[g.target]? with
    | none => simp
    | some t' => simp [and_comm, and_assoc]

theorem Group.nodup_edges {nodes : List State} {g : Group} (h : g.labels.Nodup) :
    (g.edges nodes).Nodup := by
  unfold Group.edges
  split
  · refine List.pairwise_map.2 (h.imp fun hne heq => hne ?_)
    exact (Edge.mk.inj heq).2.1
  · exact .nil

/-- Different groups stand for different transitions, where no node has two numbers. -/
theorem Group.Before.disjoint_edges {nodes : List State} (hn : nodes.Nodup) {g h : Group}
    (hlt : g.Before h) : (g.edges nodes).Disjoint (h.edges nodes) := by
  intro e he hf
  obtain ⟨hs, ht, -⟩ := Group.mem_edges.1 he
  obtain ⟨hs', ht', -⟩ := Group.mem_edges.1 hf
  have hsource : g.source = h.source :=
    (List.getElem?_inj (List.getElem?_eq_some_iff.1 hs).1 hn).1 (hs.trans hs'.symm)
  have htarget : g.target = h.target :=
    (List.getElem?_inj (List.getElem?_eq_some_iff.1 ht).1 hn).1 (ht.trans ht'.symm)
  rcases hlt with hlt | ⟨-, hlt⟩
  · exact Nat.ne_of_lt hlt hsource
  · exact Nat.ne_of_lt hlt htarget

variable {a : Automaton} {g : Group}

/-- A group of the arrows of an automaton stands for all transitions from one state to another. -/
theorem exists_ends_of_mem_groups (hg : g ∈ groups a.arrows) :
    ∃ s t, a.nodes[g.source]? = some s ∧ a.nodes[g.target]? = some t ∧
      g.labels ≠ [] ∧ g.labels.Pairwise (· < ·) ∧ ∀ x, x ∈ g.labels ↔ ⟨s, x, t⟩ ∈ a.edges := by
  obtain ⟨hne, hlabels⟩ := mem_groups.1 hg
  rw [labelsBetween_arrows] at hne hlabels
  obtain ⟨x, hx⟩ := List.exists_mem_of_ne_nil _ hne
  obtain ⟨s, t, hs, ht, -⟩ := Automaton.mem_symbolsBetween.1 hx
  refine ⟨s, t, hs, ht, hlabels ▸ hne, hlabels ▸ a.pairwise_symbolsBetween _ _, fun y => ?_⟩
  rw [hlabels, Automaton.mem_symbolsBetween]
  constructor
  · rintro ⟨s', t', hs', ht', hy⟩
    cases hs.symm.trans hs'
    cases ht.symm.trans ht'
    exact hy
  · intro hy
    exact ⟨s, t, hs, ht, hy⟩

theorem exists_group_of_mem_edges {e : Edge} (he : e ∈ a.edges) : ∃ g ∈ groups a.arrows,
    a.nodes[g.source]? = some e.source ∧ a.nodes[g.target]? = some e.target ∧ e.symbol ∈ g.labels := by
  obtain ⟨hs, ht⟩ := Automaton.ends_mem_nodes he
  let i := a.nodes.idxOf e.source
  let j := a.nodes.idxOf e.target
  have hsource : a.nodes[i]? = some e.source := Automaton.getElem?_nodes.2 ⟨hs, rfl⟩
  have htarget : a.nodes[j]? = some e.target := Automaton.getElem?_nodes.2 ⟨ht, rfl⟩
  have hx : e.symbol ∈ labelsBetween a.arrows i j := by
    rw [labelsBetween_arrows]
    exact Automaton.mem_symbolsBetween.2 ⟨_, _, hsource, htarget, he⟩
  exact ⟨⟨i, j, labelsBetween a.arrows i j⟩, mem_groups.2 ⟨List.ne_nil_of_mem hx, rfl⟩, hsource, htarget,
    hx⟩

/-- Taken apart, the groups are the transitions, each once. -/
theorem perm_flatMap_groups (a : Automaton) :
    ((groups a.arrows).flatMap (Group.edges a.nodes)).Perm a.edges := by
  have hedges : a.edges.Nodup :=
    Edge.nodup_of_pairwise_before (Transitions.edges_pairwise a.transitions)
  have hgroups : ((groups a.arrows).flatMap (Group.edges a.nodes)).Nodup := by
    refine List.nodup_flatMap.2 ⟨fun g hg => ?_, ?_⟩
    · obtain ⟨s, t, -, -, -, hlabels, -⟩ := exists_ends_of_mem_groups hg
      exact Group.nodup_edges (hlabels.imp Std.ne_of_lt)
    · exact (pairwise_groups _).imp (Group.Before.disjoint_edges a.nodup_nodes)
  refine (List.perm_ext_iff_of_nodup hgroups hedges).2 fun e => ?_
  rw [List.mem_flatMap]
  constructor
  · rintro ⟨g, hg, he⟩
    obtain ⟨hs, ht, hx⟩ := Group.mem_edges.1 he
    obtain ⟨s, t, hs', ht', -, -, hlabels⟩ := exists_ends_of_mem_groups hg
    cases hs'.symm.trans hs
    cases ht'.symm.trans ht
    exact (hlabels _).1 hx
  · intro he
    obtain ⟨g, hg, hends⟩ := exists_group_of_mem_edges he
    exact ⟨g, hg, Group.mem_edges.2 hends⟩

/-- **Merged and separate arrows draw the same transitions.**  The two texts are the same in front of the
first arrow. Behind that there is one line for each transition in the one, and in the other one line for
each two nodes that have any transition from the first to the second, in ascending order of their numbers.
Its label lists, in ascending order and separated by commas, the symbols of exactly these transitions; so
the arrows taken apart are all transitions, each once. Whoever reads the texts finds these arrows in them,
and the same nodes and the same entry arrow in both. -/
theorem merged_parallel (a : Automaton) (horizontal : Bool) :
    let separate := a.diagram { horizontal, merged := false }
    let merged := a.diagram { horizontal, merged := true }
    let parallel := groups separate.arrows
    let line (source target : Nat) (label : String) : List Char :=
      "    n".toList ++ Nat.toDigits 10 source ++ " -> n".toList ++ Nat.toDigits 10 target ++
        " [label=".toList ++ quote label ++ "];\n".toList
    (separate.text.toList = separate.front ++
        (separate.arrows.flatMap fun x => line x.source x.target x.label) ++ "\x7d\n".toList ∧
      merged.text.toList = separate.front ++
        (parallel.flatMap fun g => line g.source g.target (", ".intercalate g.labels)) ++
        "\x7d\n".toList) ∧
    (Dot.read separate.text = some separate ∧
      Dot.read merged.text = some { separate with
        arrows := parallel.map fun g => ⟨g.source, g.target, ", ".intercalate g.labels⟩ }) ∧
    List.Forall₂ (Arrow.Draws a.nodes) separate.arrows a.edges ∧
    parallel.Pairwise Group.Before ∧
    (∀ g ∈ parallel, ∃ s t, a.nodes[g.source]? = some s ∧ a.nodes[g.target]? = some t ∧
      g.labels ≠ [] ∧ g.labels.Pairwise (· < ·) ∧ ∀ x, x ∈ g.labels ↔ ⟨s, x, t⟩ ∈ a.edges) ∧
    (∀ e ∈ a.edges, ∃ g ∈ parallel,
      a.nodes[g.source]? = some e.source ∧ a.nodes[g.target]? = some e.target ∧ e.symbol ∈ g.labels) ∧
    (parallel.flatMap (Group.edges a.nodes)).Perm a.edges ∧ a.edges.Nodup := by
  intro separate merged parallel line
  have hseparate : separate.arrows = a.arrows := by
    simp only [separate, a.diagram_eq, Bool.false_eq_true, ↓reduceIte]
  have hparallel : parallel = groups a.arrows := congrArg groups hseparate
  have hmerged : merged = { separate with arrows := parallel.map Group.arrow } := by
    simp only [merged, hparallel, separate, a.diagram_eq, ↓reduceIte, mergeArrows_eq_map]
  refine ⟨⟨?_, ?_⟩, ⟨Dot.read_text _, ?_⟩, hseparate ▸ draws_arrows a, pairwise_groups _, ?_, ?_, ?_,
    Edge.nodup_of_pairwise_before (Transitions.edges_pairwise a.transitions)⟩
  · rw [toList_text, funext Arrow.line_eq]
  · rw [toList_text, hmerged, List.flatMap_map, funext fun g => Arrow.line_eq (Group.arrow g)]
    rfl
  · rw [Dot.read_text, hmerged]
    rfl
  · rw [hparallel]
    exact fun g hg => exists_ends_of_mem_groups hg
  · rw [hparallel]
    exact fun e he => exists_group_of_mem_edges he
  · rw [hparallel]
    exact perm_flatMap_groups a

/-- The source `a` is not declared: by its name its arrow comes first, by its number last. -/
def undeclaredSource : Automaton :=
  .ofParts ["t"] [] [⟨"t", "c", "u"⟩, ⟨"t", "b", "t"⟩, ⟨"a", "x", "t"⟩, ⟨"t", "a", "u"⟩] "t" []

theorem merged_parallel_undeclaredSource :
    let separate := undeclaredSource.diagram {}
    let merged := undeclaredSource.diagram { merged := true }
    separate.arrows.map Arrow.label = ["x", "a", "b", "c"] ∧
    groups separate.arrows = [⟨0, 0, ["b"]⟩, ⟨0, 2, ["a", "c"]⟩, ⟨1, 0, ["x"]⟩] ∧
    merged.text.toList = separate.front ++ ("    n0 -> n0 [label=\"b\"];\n".toList ++
      "    n0 -> n2 [label=\"a, c\"];\n".toList ++ "    n1 -> n0 [label=\"x\"];\n".toList) ++
      "\x7d\n".toList ∧
    Dot.read merged.text =
      some { separate with arrows := [⟨0, 0, "b"⟩, ⟨0, 2, "a, c"⟩, ⟨1, 0, "x"⟩] } ∧
    (∃ s t, undeclaredSource.nodes[0]? = some s ∧ undeclaredSource.nodes[2]? = some t ∧
      ∀ x, x ∈ ["a", "c"] ↔ ⟨s, x, t⟩ ∈ undeclaredSource.edges) ∧
    ∃ g ∈ groups separate.arrows, undeclaredSource.nodes[g.source]? = some "a" ∧ "x" ∈ g.labels := by
  obtain ⟨⟨-, htext⟩, ⟨-, hread⟩, -, -, hgroup, hedge, -⟩ := merged_parallel undeclaredSource true
  have hgroups : groups (undeclaredSource.diagram {}).arrows =
      [⟨0, 0, ["b"]⟩, ⟨0, 2, ["a", "c"]⟩, ⟨1, 0, ["x"]⟩] := by decide
  refine ⟨by decide, hgroups, ?_, ?_, ?_, ?_⟩
  · rw [htext, hgroups]
    rfl
  · rw [hread, hgroups]
    rfl
  · obtain ⟨s, t, hs, ht, -, -, hlabels⟩ := hgroup ⟨0, 2, ["a", "c"]⟩ (by rw [hgroups]; decide)
    exact ⟨s, t, hs, ht, hlabels⟩
  · obtain ⟨g, hg, hs, -, hx⟩ := hedge ⟨"a", "x", "t"⟩ (by decide)
    exact ⟨g, hg, hs, hx⟩

end Diagram

end AutomatonGrammar
