import AutomatonGrammar.Proofs.Automaton.Declared
import AutomatonGrammar.Proofs.Automaton.Transitions
import AutomatonGrammar.Proofs.Grammar.Derivation

/-!
# The productions of a grammar, one after another

`g.listing` goes through the non-terminals in ascending order and through the productions of each. Those
with a target are the transitions that the grammar knows of (`g.steps`), the others tell which
non-terminals may end a derivation (`g.finals`).

    a.grammar.steps = a.edges.filter fun e => e.source ∈ a.states ∧ e.symbol ∈ a.alphabet
                                                                    (Automaton.steps_grammar)
    a.grammar.finals = a.states.toList.filter a.isAccepting         (Automaton.finals_grammar)

The grammar is made by looking up the symbols of the alphabet, the edges are the rows as they stand. Both
are ascending, so they agree as lists because they have the same members. Where all names are declared
nothing is filtered out: the grammar is closed, and complete (`Automaton.closed_and_complete`).
-/

namespace AutomatonGrammar

namespace Production

/-- Ascending order of the symbol, `ε` behind all steps. -/
def Before : Production → Production → Prop
  | step x _, step y _ => x < y
  | step _ _, epsilon => True
  | epsilon, _ => False

theorem not_before_self : ∀ p : Production, ¬p.Before p
  | step _ _ => fun h => Std.lt_irrefl h
  | epsilon => fun h => h

/-- The transition that a production of `s` stands for, if it has a target. -/
def edge? (s : State) : Production → Option Edge
  | step x t => some ⟨s, x, t⟩
  | epsilon => none

theorem edge?_eq_some_iff {s : State} {p : Production} {e : Edge} :
    p.edge? s = some e ↔ s = e.source ∧ p = .step e.symbol e.target := by
  obtain ⟨r, x, t⟩ := e
  cases p with
  | step y u => simp [edge?]
  | epsilon => simp [edge?]

end Production

namespace Grammar

/-- All productions with their non-terminals, one non-terminal after another. -/
def listing (g : Grammar) : List (State × Production) :=
  g.productions.toList.flatMap fun (s, rules) => rules.map fun p => (s, p)

/-- The transitions that the productions with a target stand for. -/
def steps (g : Grammar) : List Edge := g.listing.filterMap fun (s, p) => p.edge? s

/-- The non-terminals of the productions without a target. -/
def finals (g : Grammar) : List State :=
  (g.listing.filter fun (_, p) => p.isEpsilon).map Prod.fst

/-- A grammar that names only its own non-terminals and terminals. -/
structure Closed (g : Grammar) : Prop where
  start_mem : g.start ∈ g.nonTerminals
  symbol_mem : ∀ s x t, .step x t ∈ g.rules s → x ∈ g.terminals
  target_mem : ∀ s x t, .step x t ∈ g.rules s → t ∈ g.nonTerminals

variable {g : Grammar}

theorem mem_listing {s : State} {p : Production} : (s, p) ∈ g.listing ↔ p ∈ g.rules s := by
  simp only [listing, rules, List.mem_flatMap, List.mem_map, Prod.exists, Prod.mk.injEq,
    SortedMap.mem_toList_iff]
  constructor
  · rintro ⟨_, rules, hrules, _, hp, rfl, rfl⟩
    rw [hrules]
    exact hp
  · intro h
    cases hrules : g.productions.get? s with
    | none => simp [hrules] at h
    | some rules => exact ⟨s, rules, hrules, p, by simpa [hrules] using h, rfl, rfl⟩

theorem mem_steps {e : Edge} : e ∈ g.steps ↔ .step e.symbol e.target ∈ g.rules e.source := by
  simp only [steps, List.mem_filterMap, Prod.exists, mem_listing, Production.edge?_eq_some_iff]
  constructor
  · rintro ⟨_, _, hp, rfl, rfl⟩
    exact hp
  · intro h
    exact ⟨_, _, h, rfl, rfl⟩

/-- A production has a target, or it is an `ε` production. -/
theorem length_listing (g : Grammar) : g.listing.length = g.steps.length + g.finals.length := by
  unfold steps finals
  induction g.listing with
  | nil => rfl
  | cons sp rest ih =>
    obtain ⟨s, p⟩ := sp
    cases p with
    | step x t =>
      simp only [List.length_cons, ih, List.filterMap_cons, Production.edge?, Production.isEpsilon,
        List.filter_cons, Bool.false_eq_true, ↓reduceIte]
      omega
    | epsilon =>
      simp only [List.length_cons, ih, List.filterMap_cons, Production.edge?, Production.isEpsilon,
        List.filter_cons, ↓reduceIte, List.map_cons]
      omega

end Grammar

namespace Automaton

variable (a : Automaton)

/-! ## The productions of one state -/

theorem pairwise_productionsOf (s : State) : (a.productionsOf s).Pairwise Production.Before := by
  refine List.pairwise_append.2 ⟨?_, ?_, ?_⟩
  · refine List.pairwise_filterMap.2 (a.alphabet.ascending.imp fun {x y} hlt => ?_)
    intro p hp q hq
    obtain ⟨t, -, rfl⟩ := Option.map_eq_some_iff.1 hp
    obtain ⟨u, -, rfl⟩ := Option.map_eq_some_iff.1 hq
    exact hlt
  · split
    · exact List.pairwise_singleton _ _
    · exact .nil
  · intro p hp q hq
    obtain ⟨x, -, hx⟩ := List.mem_filterMap.1 hp
    obtain ⟨t, -, rfl⟩ := Option.map_eq_some_iff.1 hx
    obtain rfl : q = .epsilon := by
      split at hq
      · exact List.mem_singleton.1 hq
      · cases hq
    trivial

theorem filter_isEpsilon_productionsOf (s : State) :
    (a.productionsOf s).filter Production.isEpsilon =
      if a.isAccepting s then [.epsilon] else [] := by
  have hsteps : ∀ p ∈ a.alphabet.toList.filterMap fun x =>
      ((a.transitions.row s).get? x).map (Production.step x), ¬ p.isEpsilon = true := by
    intro p hp
    obtain ⟨x, -, hx⟩ := List.mem_filterMap.1 hp
    obtain ⟨t, -, rfl⟩ := Option.map_eq_some_iff.1 hx
    exact Bool.false_ne_true
  rw [productionsOf, List.filter_append, List.filter_eq_nil_iff.2 hsteps, List.nil_append]
  split
  · rfl
  · rfl

/-! ## The productions of all states -/

theorem listing_grammar :
    a.grammar.listing = a.states.toList.flatMap fun s => (a.productionsOf s).map fun p => (s, p) := by
  simp only [Grammar.listing, grammar, SortedMap.toList_ofKeys, List.flatMap_map]

theorem pairwise_steps : a.grammar.steps.Pairwise Edge.Before := by
  rw [Grammar.steps, listing_grammar, List.filterMap_flatMap, List.pairwise_flatMap]
  simp only [List.filterMap_map]
  constructor
  · intro s _
    refine List.pairwise_filterMap.2 ((a.pairwise_productionsOf s).imp fun {p q} hlt => ?_)
    intro e he f hf
    obtain ⟨hs, rfl⟩ := Production.edge?_eq_some_iff.1 he
    obtain ⟨ht, rfl⟩ := Production.edge?_eq_some_iff.1 hf
    exact .inr ⟨hs.symm.trans ht, hlt⟩
  · refine a.states.ascending.imp fun {s t} hlt => ?_
    intro e he f hf
    obtain ⟨p, -, hp⟩ := List.mem_filterMap.1 he
    obtain ⟨q, -, hq⟩ := List.mem_filterMap.1 hf
    obtain ⟨rfl, -⟩ := Production.edge?_eq_some_iff.1 hp
    obtain ⟨rfl, -⟩ := Production.edge?_eq_some_iff.1 hq
    exact .inl hlt

/-- The grammar knows of the transitions that leave a declared state on a symbol of the alphabet, in the
order in which they are in the automaton. -/
theorem steps_grammar :
    a.grammar.steps = a.edges.filter fun e => e.source ∈ a.states ∧ e.symbol ∈ a.alphabet := by
  refine Edge.eq_of_pairwise_before a.pairwise_steps (a.transitions.edges_pairwise.filter _) ?_
  intro e
  rw [Grammar.mem_steps, step_mem_rules, List.mem_filter, edges, Transitions.mem_edges,
    decide_eq_true_iff, step?]
  constructor
  · rintro ⟨hs, hx, ht⟩
    exact ⟨ht, hs, hx⟩
  · rintro ⟨ht, hs, hx⟩
    exact ⟨hs, hx, ht⟩

theorem finals_grammar : a.grammar.finals = a.states.toList.filter a.isAccepting := by
  rw [Grammar.finals, listing_grammar, List.filter_flatMap, List.map_flatMap]
  induction a.states.toList with
  | nil => rfl
  | cons s rest ih =>
    have hs : (((a.productionsOf s).map fun p => (s, p)).filter fun sp => sp.2.isEpsilon).map Prod.fst =
        if a.isAccepting s then [s] else [] := by
      rw [List.filter_map]
      show List.map Prod.fst (List.map _ ((a.productionsOf s).filter Production.isEpsilon)) = _
      rw [filter_isEpsilon_productionsOf]
      split
      · rfl
      · rfl
    rw [List.flatMap_cons, ih, List.filter_cons, hs]
    split
    · rfl
    · rfl

/-! ## Automata that declare what they use -/

variable {a : Automaton}

theorem Declared.closed_grammar (h : a.Declared) : a.grammar.Closed where
  start_mem := h.start_mem
  symbol_mem := fun _ _ _ hp => (step_mem_rules.1 hp).2.1
  target_mem := fun _ _ _ hp => h.target_mem _ _ _ (step_mem_rules.1 hp).2.2

theorem Declared.steps_grammar (h : a.Declared) : a.grammar.steps = a.edges := by
  rw [Automaton.steps_grammar, List.filter_eq_self]
  intro e he
  obtain ⟨hs, hx, -⟩ := h.mem_of_edge he
  exact decide_eq_true ⟨hs, hx⟩

theorem Declared.finals_grammar (h : a.Declared) : a.grammar.finals = a.accepting.toList := by
  rw [Automaton.finals_grammar]
  refine SortedSet.eq_of_mem_iff (a.states.ascending.filter _) a.accepting.ascending fun s => ?_
  rw [List.mem_filter, isAccepting, decide_eq_true_iff]
  constructor
  · exact fun ⟨_, hs⟩ => hs
  · exact fun hs => ⟨h.accepting_mem s hs, hs⟩

/-- **What validation buys.**  The grammar of a validated automaton names nothing that it does not have.
Its productions with a target are the transitions of the automaton, each once and in their order, and the
others are those of the accepting states, one for each. -/
theorem closed_and_complete (hv : a.validate = .ok ()) :
    a.grammar.Closed ∧ (a.grammar.steps = a.edges ∧ a.edges.Nodup) ∧
    a.grammar.finals = a.accepting.toList ∧
    a.grammar.listing.length = a.edgeCount + a.accepting.size := by
  have h := validate_ok_iff.1 hv
  have hnodup : a.edges.Nodup := Edge.nodup_of_pairwise_before a.transitions.edges_pairwise
  refine ⟨h.closed_grammar, ⟨h.steps_grammar, hnodup⟩, h.finals_grammar, ?_⟩
  rw [Grammar.length_listing, h.steps_grammar, h.finals_grammar, edges, Transitions.length_edges]
  rfl

/-- The state that accepts has no name and an empty row, and the other goes round on a symbol that is
written like the empty word. -/
def nameless : Automaton where
  states := .ofList ["s", ""]
  alphabet := .ofList ["ε", "a"]
  transitions := .ofList [("", ∅), ("s", .ofList [("ε", "s"), ("a", "")])]
  start := "s"
  accepting := .ofList [""]

theorem closed_and_complete_nameless :
    nameless.validate = .ok () ∧ nameless.grammar.Closed ∧
    nameless.grammar.steps = [⟨"s", "a", ""⟩, ⟨"s", "ε", "s"⟩] ∧ nameless.grammar.finals = [""] ∧
    nameless.grammar.listing.length = 3 := by
  have hv : nameless.validate = .ok () := (validate_eq_ok_iff _).2 (by decide)
  have hedges : nameless.edges = [⟨"s", "a", ""⟩, ⟨"s", "ε", "s"⟩] := by decide
  obtain ⟨hclosed, ⟨hsteps, -⟩, hfinals, hlength⟩ := closed_and_complete hv
  exact ⟨hv, hclosed, hsteps.trans hedges, hfinals.trans (by decide), hlength.trans (by decide)⟩

end Automaton

end AutomatonGrammar
