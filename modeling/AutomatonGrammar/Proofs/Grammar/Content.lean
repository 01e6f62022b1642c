import AutomatonGrammar.Proofs.Grammar.Listing
import Mathlib.Data.List.Basic

/-!
# What a grammar says about its automaton

Two automata have one grammar exactly if they declare the same names and do not differ inside what they
declare (`Automaton.Agrees`). The productions give back the whole of that: `s -> x t` is told from
`s -> ε` by its target, also where `x` is written `ε`. All else may be left out (`declaredPart`) without
a trace in the grammar:

    a.grammar = b.grammar ↔ a.Agrees b                              (Automaton.grammar_eq_iff_agrees)
    a.declaredPart.grammar = a.grammar                              (Automaton.grammar_declaredPart)

In an automaton that declares what it uses nothing is left out but the rows that are empty.
-/

namespace AutomatonGrammar

namespace Automaton

/-- Two automata that declare the same names, and do not differ inside what they declare. -/
structure Agrees (a b : Automaton) : Prop where
  states : a.states = b.states
  alphabet : a.alphabet = b.alphabet
  start : a.start = b.start
  accepting : ∀ s ∈ a.states, a.isAccepting s = b.isAccepting s
  step : ∀ s ∈ a.states, ∀ x ∈ a.alphabet, a.step? s x = b.step? s x

/-- An automaton without the transitions that leave an undeclared state or are on an undeclared symbol,
without undeclared accepting states and without empty rows. -/
def declaredPart (a : Automaton) : Automaton where
  states := a.states
  alphabet := a.alphabet
  transitions := .ofEdges (a.edges.filter fun e => e.source ∈ a.states ∧ e.symbol ∈ a.alphabet)
  start := a.start
  accepting := a.accepting.filter (· ∈ a.states)

/-- The same automaton without the rows that are empty. -/
def withoutEmptyRows (a : Automaton) : Automaton :=
  { a with transitions := a.transitions.withoutEmptyRows }

variable {a b : Automaton}

/-! ## Equal grammars -/

theorem Agrees.symm (h : a.Agrees b) : b.Agrees a where
  states := h.states.symm
  alphabet := h.alphabet.symm
  start := h.start.symm
  accepting := fun s hs => (h.accepting s (h.states ▸ hs)).symm
  step := fun s hs x hx => (h.step s (h.states ▸ hs) x (h.alphabet ▸ hx)).symm

/-- What agrees on the declared part has the same productions for each declared state. -/
theorem Agrees.productionsOf_eq (h : a.Agrees b) {s : State} (hs : s ∈ a.states) :
    a.productionsOf s = b.productionsOf s := by
  have hsteps : ∀ x ∈ a.alphabet.toList, ((a.transitions.row s).get? x).map (Production.step x) =
      ((b.transitions.row s).get? x).map (Production.step x) :=
    fun x hx => congrArg (Option.map (Production.step x)) (h.step s hs x hx)
  rw [productionsOf, productionsOf, List.filterMap_congr hsteps, h.alphabet, h.accepting s hs]

theorem Agrees.grammar_eq (h : a.Agrees b) : a.grammar = b.grammar := by
  have hproductions : a.grammar.productions = b.grammar.productions := by
    apply SortedMap.toList_injective
    simp only [grammar, SortedMap.toList_ofKeys, ← h.states]
    exact List.map_congr_left fun s hs => by rw [h.productionsOf_eq hs]
  have hgrammar : ∀ c : Automaton, c.grammar = ⟨c.states, c.alphabet, c.grammar.productions, c.start⟩ :=
    fun _ => rfl
  rw [hgrammar a, hgrammar b, h.states, h.alphabet, hproductions, h.start]

/-- The grammar tells everything about the declared part. -/
theorem agrees_of_grammar_eq (h : a.grammar = b.grammar) : a.Agrees b := by
  have hstates : a.states = b.states := congrArg Grammar.nonTerminals h
  have halphabet : a.alphabet = b.alphabet := congrArg Grammar.terminals h
  refine ⟨hstates, halphabet, congrArg Grammar.start h, ?_, ?_⟩
  · intro s hs
    -- the production without a target tells the accepting states
    have hrules : .epsilon ∈ a.grammar.rules s ↔ .epsilon ∈ b.grammar.rules s := by rw [h]
    rw [epsilon_mem_rules, epsilon_mem_rules, ← hstates] at hrules
    rw [Bool.eq_iff_iff]
    simpa only [hs, true_and] using hrules
  · intro s hs x hx
    apply Option.ext
    intro t
    have hrules : .step x t ∈ a.grammar.rules s ↔ .step x t ∈ b.grammar.rules s := by rw [h]
    rw [step_mem_rules, step_mem_rules, ← hstates, ← halphabet] at hrules
    simpa only [hs, hx, true_and] using hrules

theorem grammar_eq_iff_agrees : a.grammar = b.grammar ↔ a.Agrees b :=
  ⟨agrees_of_grammar_eq, Agrees.grammar_eq⟩

/-! ## What the grammar passes over -/

theorem step?_declaredPart {s t : State} {x : Symbol} : a.declaredPart.step? s x = some t ↔
    a.step? s x = some t ∧ s ∈ a.states ∧ x ∈ a.alphabet := by
  have hsub : ∀ e ∈ a.edges.filter fun e => e.source ∈ a.states ∧ e.symbol ∈ a.alphabet,
      e ∈ a.edges := fun e he => (List.mem_filter.1 he).1
  refine (Transitions.get?_ofEdges_of_subset hsub (e := ⟨s, x, t⟩)).trans ?_
  rw [List.mem_filter, decide_eq_true_iff, edges, Transitions.mem_edges, step?]

theorem agrees_declaredPart (a : Automaton) : a.declaredPart.Agrees a := by
  refine ⟨rfl, rfl, rfl, ?_, ?_⟩
  · intro s (hs : s ∈ a.states)
    simp [isAccepting, declaredPart, hs]
  · intro s (hs : s ∈ a.states) x (hx : x ∈ a.alphabet)
    apply Option.ext
    intro t
    rw [step?_declaredPart]
    exact and_iff_left ⟨hs, hx⟩

theorem grammar_declaredPart (a : Automaton) : a.declaredPart.grammar = a.grammar :=
  (agrees_declaredPart a).grammar_eq

/-! ## Automata that declare what they use -/

/-- Where all names are declared, agreeing covers every transition. -/
theorem Agrees.step?_eq_some (h : a.Agrees b) (ha : a.Declared) {s t : State} {x : Symbol}
    (hx : a.step? s x = some t) : b.step? s x = some t := by
  obtain ⟨hs, hsymbol, -⟩ := ha.mem_of_edge (e := ⟨s, x, t⟩) (Transitions.mem_edges.2 hx)
  rw [← h.step s hs x hsymbol, hx]

theorem Agrees.mem_accepting (h : a.Agrees b) (ha : a.Declared) {s : State}
    (hs : s ∈ a.accepting) : s ∈ b.accepting := by
  have hb := h.accepting s (ha.accepting_mem s hs)
  rw [isAccepting, decide_eq_true hs] at hb
  exact of_decide_eq_true hb.symm

/-- Automata with declared names that agree differ in empty rows only. -/
theorem Agrees.withoutEmptyRows_eq (h : a.Agrees b) (ha : a.Declared) (hb : b.Declared) :
    a.withoutEmptyRows = b.withoutEmptyRows := by
  have haccepting : a.accepting = b.accepting :=
    SortedSet.ext_iff_mem.2 fun _ => ⟨h.mem_accepting ha, h.symm.mem_accepting hb⟩
  have htransitions : a.transitions.withoutEmptyRows = b.transitions.withoutEmptyRows := by
    refine Transitions.ext_of_noEmptyRow (Transitions.noEmptyRow_withoutEmptyRows _)
      (Transitions.noEmptyRow_withoutEmptyRows _) fun s x => ?_
    rw [Transitions.get?_withoutEmptyRows, Transitions.get?_withoutEmptyRows]
    exact Option.ext fun t => ⟨h.step?_eq_some ha, h.symm.step?_eq_some hb⟩
  rw [withoutEmptyRows, withoutEmptyRows, h.states, h.alphabet, h.start, haccepting, htransitions]

theorem step?_withoutEmptyRows (a : Automaton) (s : State) (x : Symbol) :
    a.withoutEmptyRows.step? s x = a.step? s x :=
  Transitions.get?_withoutEmptyRows a.transitions s x

theorem agrees_withoutEmptyRows (a : Automaton) : a.withoutEmptyRows.Agrees a :=
  ⟨rfl, rfl, rfl, fun _ _ => rfl, fun s _ x _ => a.step?_withoutEmptyRows s x⟩

/-- **The information in a grammar.**  Two automata have one grammar exactly if they agree on what they
declare.  Transitions that leave an undeclared state or are on an undeclared symbol, undeclared accepting
states and empty rows make no difference to it; and two validated automata with one grammar are the same
but for rows that are empty. -/
theorem grammar_eq_iff (a b : Automaton) :
    (a.grammar = b.grammar ↔ a.Agrees b) ∧ a.declaredPart.grammar = a.grammar ∧
    (a.validate = .ok () → b.validate = .ok () →
      (a.grammar = b.grammar ↔ a.withoutEmptyRows = b.withoutEmptyRows)) := by
  refine ⟨grammar_eq_iff_agrees, grammar_declaredPart a, fun ha hb => ⟨fun h => ?_, fun h => ?_⟩⟩
  · exact (agrees_of_grammar_eq h).withoutEmptyRows_eq (validate_ok_iff.1 ha) (validate_ok_iff.1 hb)
  · rw [← (agrees_withoutEmptyRows a).grammar_eq, h, (agrees_withoutEmptyRows b).grammar_eq]

/-- The same where the state without a name has no row, and so no empty one. -/
def namelessRowless : Automaton := { nameless with transitions := .ofEdges nameless.edges }

theorem grammar_eq_iff_nameless :
    nameless.validate = .ok () ∧ namelessRowless.validate = .ok () ∧ nameless ≠ namelessRowless ∧
    nameless.withoutEmptyRows = namelessRowless.withoutEmptyRows ∧
    nameless.grammar = namelessRowless.grammar := by
  have hv : nameless.validate = .ok () := (validate_eq_ok_iff _).2 (by decide)
  have hw : namelessRowless.validate = .ok () := (validate_eq_ok_iff _).2 (by decide)
  have hrows : nameless.withoutEmptyRows = namelessRowless.withoutEmptyRows := by decide
  exact ⟨hv, hw, by decide, hrows, ((grammar_eq_iff _ _).2.2 hv hw).2 hrows⟩

end Automaton

end AutomatonGrammar
