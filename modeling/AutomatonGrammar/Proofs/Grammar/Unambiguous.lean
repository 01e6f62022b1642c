import AutomatonGrammar.Proofs.Grammar.Language
import AutomatonGrammar.Proofs.Grammar.Listing

/-!
# One derivation for each word

A grammar is deterministic when a non-terminal and a symbol leave no choice of the target. A derivation
that keeps its non-terminal spells out the word it reads, one symbol for each production
(`Grammar.Derives.word_eq`), so in a deterministic grammar the word decides every step of it
(`Grammar.Deterministic.derives_some_unique`). The grammar of an automaton is deterministic, because its
transition function is one; the `ε` production of an accepting state is told from all others by having no
target, also where the alphabet has a symbol that is written `ε`.

    g.Derives ⟨u, some s⟩ ps ⟨v, some t⟩ → v = u ++ ps.map Production.symbol     (Derives.word_eq)
    (a.grammar.rules s).Nodup                                          (Automaton.nodup_rules)
-/

namespace AutomatonGrammar

namespace Grammar

/-- No non-terminal has two productions with one symbol and different targets. -/
def Deterministic (g : Grammar) : Prop :=
  ∀ ⦃s x t u⦄, .step x t ∈ g.rules s → .step x u ∈ g.rules s → t = u

variable {g : Grammar}

theorem Derives.word_eq {u v : List Symbol} {s t : State} {ps : List Production}
    (h : g.Derives ⟨u, some s⟩ ps ⟨v, some t⟩) : v = u ++ ps.map Production.symbol := by
  induction ps generalizing u s with
  | nil =>
    cases h
    simp
  | cons p ps ih =>
    obtain _ | ⟨hp, hd⟩ := h
    cases p with
    | epsilon =>
      obtain ⟨-, hf⟩ := derives_of_none hd
      cases hf
    | step x s' =>
      have hv : v = (u ++ [x]) ++ ps.map Production.symbol := ih hd
      rw [hv, List.append_assoc]
      rfl

/-- The first of several steps that keep a non-terminal. -/
theorem derives_cons_some {u v : List Symbol} {s t : State} {p : Production} {ps : List Production}
    (h : g.Derives ⟨u, some s⟩ (p :: ps) ⟨v, some t⟩) :
    ∃ x s', p = .step x s' ∧ .step x s' ∈ g.rules s ∧
      g.Derives ⟨u ++ [x], some s'⟩ ps ⟨v, some t⟩ := by
  obtain _ | ⟨hp, hd⟩ := h
  cases p with
  | epsilon =>
    obtain ⟨-, hf⟩ := derives_of_none hd
    cases hf
  | step x s' => exact ⟨x, s', rfl, hp, hd⟩

theorem Deterministic.derives_some_unique (hg : g.Deterministic) {u v : List Symbol} {s t t' : State}
    {ps qs : List Production} (hp : g.Derives ⟨u, some s⟩ ps ⟨v, some t⟩)
    (hq : g.Derives ⟨u, some s⟩ qs ⟨v, some t'⟩) : ps = qs ∧ t = t' := by
  have hsymbols : ps.map Production.symbol = qs.map Production.symbol :=
    List.append_cancel_left (hp.word_eq.symm.trans hq.word_eq)
  induction ps generalizing u s qs with
  | nil =>
    obtain rfl : qs = [] := List.map_eq_nil_iff.1 hsymbols.symm
    cases hp
    cases hq
    exact ⟨rfl, rfl⟩
  | cons p ps ih =>
    cases qs with
    | nil => cases hsymbols
    | cons q qs =>
      obtain ⟨x, s₁, rfl, hx, hps⟩ := derives_cons_some hp
      obtain ⟨y, s₂, rfl, hy, hqs⟩ := derives_cons_some hq
      obtain ⟨rfl, hrest⟩ : x = y ∧ ps.map Production.symbol = qs.map Production.symbol :=
        List.cons.inj hsymbols
      obtain rfl : s₁ = s₂ := hg hx hy
      obtain ⟨rfl, rfl⟩ := ih hps hqs hrest
      exact ⟨rfl, rfl⟩

/-- A complete derivation reads one symbol at each step but the last. -/
theorem length_of_derives_none {w : List Symbol} {s : State} {ps : List Production}
    (h : g.Derives ⟨[], some s⟩ ps ⟨w, none⟩) :
    ps.length = w.length + 1 ∧ ps.getLast? = some .epsilon := by
  obtain ⟨t, qs, rfl, hd, -⟩ := derives_none_iff.1 h
  have hw : w = qs.map Production.symbol := hd.word_eq
  rw [hw]
  simp

theorem Deterministic.derives_none_unique (hg : g.Deterministic) {u w : List Symbol} {s : State}
    {ps qs : List Production} (hp : g.Derives ⟨u, some s⟩ ps ⟨w, none⟩)
    (hq : g.Derives ⟨u, some s⟩ qs ⟨w, none⟩) : ps = qs := by
  obtain ⟨t, ps, rfl, hps, -⟩ := derives_none_iff.1 hp
  obtain ⟨t', qs, rfl, hqs, -⟩ := derives_none_iff.1 hq
  rw [(hg.derives_some_unique hps hqs).1]

end Grammar

namespace Automaton

variable (a : Automaton)

theorem deterministic_grammar : a.grammar.Deterministic := by
  intro s x t u ht hu
  obtain ⟨-, -, ht⟩ := step_mem_rules.1 ht
  obtain ⟨-, -, hu⟩ := step_mem_rules.1 hu
  exact Option.some.inj (ht.symm.trans hu)

theorem nodup_productionsOf (s : State) : (a.productionsOf s).Nodup := by
  refine (a.pairwise_productionsOf s).imp fun {p q} hlt heq => ?_
  subst heq
  exact p.not_before_self hlt

/-- No production is listed twice, so a derivation is told by its productions alone. -/
theorem nodup_rules (s : State) : (a.grammar.rules s).Nodup := by
  show (((SortedMap.ofKeys a.states a.productionsOf).get? s).getD []).Nodup
  rw [SortedMap.get?_ofKeys]
  split
  · exact a.nodup_productionsOf s
  · exact .nil

/-- **The grammar is unambiguous.**  A non-terminal lists no production twice and has at most one complete
derivation of a word, which takes one step for each symbol and an `ε` step behind them; and the word that
has been read decides which non-terminal stands behind it. -/
theorem derivation_unique (a : Automaton) (s : State) (w : List Symbol) :
    (a.grammar.rules s).Nodup ∧
    (∀ ps qs, a.grammar.Derives ⟨[], some s⟩ ps ⟨w, none⟩ →
      a.grammar.Derives ⟨[], some s⟩ qs ⟨w, none⟩ → ps = qs) ∧
    (∀ ps, a.grammar.Derives ⟨[], some s⟩ ps ⟨w, none⟩ →
      ps.length = w.length + 1 ∧ ps.getLast? = some .epsilon) ∧
    ∀ ps qs t u, a.grammar.Derives ⟨[], some s⟩ ps ⟨w, some t⟩ →
      a.grammar.Derives ⟨[], some s⟩ qs ⟨w, some u⟩ → t = u := by
  have hg : a.grammar.Deterministic := a.deterministic_grammar
  refine ⟨a.nodup_rules s, fun ps qs hp hq => hg.derives_none_unique hp hq,
    fun ps hp => Grammar.length_of_derives_none hp, ?_⟩
  intro ps qs t u hp hq
  exact (hg.derives_some_unique hp hq).2

/-- In the grammar of the loop on `ε` the symbol and the end of a derivation do not mix. -/
theorem derivation_unique_epsilonLoop :
    epsilonLoop.grammar.Derives ⟨[], some "s"⟩ [.step "ε" "s", .epsilon] ⟨["ε"], none⟩ ∧
    (∀ ps, epsilonLoop.grammar.Derives ⟨[], some "s"⟩ ps ⟨["ε"], none⟩ →
      ps = [.step "ε" "s", .epsilon] ∧ ps.length = 2 ∧ ps.getLast? = some .epsilon) ∧
    ∀ ps t, epsilonLoop.grammar.Derives ⟨[], some "s"⟩ ps ⟨["ε"], some t⟩ → t = "s" := by
  have hstep : .step "ε" "s" ∈ epsilonLoop.grammar.rules "s" := by decide
  have hend : .epsilon ∈ epsilonLoop.grammar.rules "s" := by decide
  have hall : epsilonLoop.grammar.Derives ⟨[], some "s"⟩ [.step "ε" "s", .epsilon] ⟨["ε"], none⟩ :=
    .cons hstep (.cons hend (.nil _))
  have hkept : epsilonLoop.grammar.Derives ⟨[], some "s"⟩ [.step "ε" "s"] ⟨["ε"], some "s"⟩ :=
    .cons hstep (.nil _)
  obtain ⟨-, hone, hlength, htarget⟩ := derivation_unique epsilonLoop "s" ["ε"]
  exact ⟨hall, fun ps h => ⟨hone _ _ h hall, hlength ps h⟩, fun ps t h => htarget _ _ _ _ h hkept⟩

end Automaton

end AutomatonGrammar
