import AutomatonGrammar.Proofs.Grammar.Listing
import AutomatonGrammar.Proofs.Sorted.LookUp

/-!
# The productions of one non-terminal

Every declared state has its list of productions, and no other name has one. The list is made by looking
up the symbols of the alphabet, and is the row of the state without the entries on other symbols: one
production for each entry that is left, in the order of the row, and `ε` behind them if the state accepts
(`Automaton.rules_exact`).

    a.grammar.productions.keys = a.states                                       (keys_productions)
    a.productionsOf s = ((a.transitions.row s).toList.filter fun e => e.1 ∈ a.alphabet).map
      (fun e => .step e.1 e.2) ++ if a.isAccepting s then [.epsilon] else []     (productionsOf_eq)
-/

namespace AutomatonGrammar

namespace Production

theorem pairwise_symbol {ps : List Production} (h : ps.Pairwise Before) :
    ((ps.filter fun p => !p.isEpsilon).map symbol).Pairwise (· < ·) := by
  refine List.pairwise_map.2 ((h.filter _).imp_of_mem fun {p q} hp hq hlt => ?_)
  cases p with
  | epsilon => simp [isEpsilon] at hp
  | step x t =>
    cases q with
    | epsilon => simp [isEpsilon] at hq
    | step y u => exact hlt

/-- Nothing stands behind an `ε` production, and no other `ε` production in front of it. -/
theorem epsilon_last {front back : List Production} (h : (front ++ epsilon :: back).Pairwise Before) :
    back = [] ∧ epsilon ∉ front := by
  obtain ⟨-, hback, hfront⟩ := List.pairwise_append.1 h
  constructor
  · cases back with
    | nil => rfl
    | cons p back => exact absurd ((List.pairwise_cons.1 hback).1 p (.head _)) id
  · intro hmem
    exact hfront epsilon hmem epsilon (.head _)

end Production

namespace Automaton

variable (a : Automaton)

theorem keys_productions : a.grammar.productions.keys = a.states := by
  apply SortedSet.toList_injective
  show (a.states.toList.map fun s => (s, a.productionsOf s)).map Prod.fst = a.states.toList
  rw [List.map_map]
  exact List.map_id _

theorem get?_productions (s : State) :
    a.grammar.productions.get? s = if s ∈ a.states then some (a.productionsOf s) else none :=
  SortedMap.get?_ofKeys _ _ _

theorem rules_eq (s : State) : a.grammar.rules s = if s ∈ a.states then a.productionsOf s else [] := by
  rw [Grammar.rules, get?_productions]
  split
  · rfl
  · rfl

theorem productionsOf_eq (s : State) : a.productionsOf s =
    ((a.transitions.row s).toList.filter fun e => e.1 ∈ a.alphabet).map (fun e => .step e.1 e.2) ++
      if a.isAccepting s then [.epsilon] else [] := by
  have hsteps : (a.alphabet.toList.filterMap fun x =>
      ((a.transitions.row s).get? x).map (Production.step x)) =
      (a.alphabet.toList.filterMap fun x => ((a.transitions.row s).get? x).map (x, ·)).map
        fun e => Production.step e.1 e.2 := by
    rw [List.map_filterMap]
    simp only [Option.map_map, Function.comp_def]
  rw [productionsOf, hsteps, SortedMap.filterMap_get?]

/-- **The productions are the rows, cut down to the alphabet.**  The states are the keys. The list of a
state is its row without the entries on undeclared symbols, and one `ε` production behind them if the state
accepts; a name that is no state has none. So the symbols are strictly ascending, and an `ε` production is
the last one and the only one. -/
theorem rules_exact (a : Automaton) :
    a.grammar.productions.keys = a.states ∧
    (∀ s ∈ a.states, a.grammar.productions.get? s = some (a.grammar.rules s) ∧
      a.grammar.rules s =
        ((a.transitions.row s).toList.filter fun e => e.1 ∈ a.alphabet).map (fun e => .step e.1 e.2) ++
          if a.isAccepting s then [.epsilon] else []) ∧
    (∀ s, s ∉ a.states → a.grammar.rules s = []) ∧
    ∀ s, (((a.grammar.rules s).filter fun p => !p.isEpsilon).map Production.symbol).Pairwise (· < ·) ∧
      ∀ front back, a.grammar.rules s = front ++ .epsilon :: back → back = [] ∧ .epsilon ∉ front := by
  have hpairwise : ∀ s, (a.grammar.rules s).Pairwise Production.Before := by
    intro s
    rw [rules_eq]
    split
    · exact a.pairwise_productionsOf s
    · exact .nil
  refine ⟨a.keys_productions, fun s hs => ⟨?_, ?_⟩, fun s hs => ?_,
    fun s => ⟨Production.pairwise_symbol (hpairwise s), fun front back h => ?_⟩⟩
  · rw [get?_productions, rules_eq, if_pos hs, if_pos hs]
  · rw [rules_eq, if_pos hs, productionsOf_eq]
  · rw [rules_eq, if_neg hs]
  · exact Production.epsilon_last (h ▸ hpairwise s)

/-- The row of `s` and the alphabet each have a symbol that the other lacks, one symbol is written like the
empty word, and one destination is not declared. -/
def overlap : Automaton :=
  .ofParts ["s"] ["ε", "c", "a"] [⟨"s", "ε", "s"⟩, ⟨"s", "b", "s"⟩, ⟨"s", "a", "t"⟩] "s" ["s"]

theorem rules_exact_overlap :
    overlap.grammar.productions.get? "s" = some [.step "a" "t", .step "ε" "s", .epsilon] ∧
    overlap.grammar.rules "t" = [] ∧
    ∀ front back : List Production,
      [.step "a" "t", .step "ε" "s", .epsilon] = front ++ .epsilon :: back →
        back = [] ∧ .epsilon ∉ front := by
  obtain ⟨-, hstates, hothers, hlast⟩ := rules_exact overlap
  obtain ⟨hget, hrules⟩ := hstates "s" (by decide)
  have hlist : overlap.grammar.rules "s" = [.step "a" "t", .step "ε" "s", .epsilon] :=
    hrules.trans (by decide)
  refine ⟨hget.trans (congrArg some hlist), hothers "t" (by decide), fun front back h => ?_⟩
  exact (hlast "s").2 front back (hlist.trans h)

end Automaton

end AutomatonGrammar
