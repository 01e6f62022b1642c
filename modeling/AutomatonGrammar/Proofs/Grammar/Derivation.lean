import AutomatonGrammar.Grammar.Basic

/-!
# Derivations

A sentential form of a right-regular grammar is the word read so far and the non-terminal behind it. A
production rewrites that non-terminal: `s -> x t` reads `x` and goes on with `t`, and `s -> ε` ends the
derivation. `g.Derives f ps f'` keeps the productions used, so derivations can be counted and compared.

    .step x t ∈ a.grammar.rules s ↔ s ∈ a.states ∧ x ∈ a.alphabet ∧ a.step? s x = some t
                                                                    (Automaton.step_mem_rules)
    .epsilon ∈ a.grammar.rules s ↔ s ∈ a.states ∧ a.isAccepting s   (Automaton.epsilon_mem_rules)

A derivation of a whole word is one that keeps a non-terminal, and one `ε` step behind it
(`Grammar.derives_none_iff`).
-/

namespace AutomatonGrammar

/-- The word read so far, and the non-terminal behind it until the derivation ends. -/
structure SententialForm where
  word : List Symbol
  nonTerminal? : Option State
deriving DecidableEq

/-- What becomes of a non-terminal behind `word` when it is rewritten by `p`. -/
def Production.rewrite (word : List Symbol) (p : Production) : SententialForm :=
  match p.target? with
  | some t => ⟨word ++ [p.symbol], some t⟩
  | none => ⟨word, none⟩

namespace Grammar

/-- Rewriting by the productions `ps`, one after another, leads from one sentential form to another. -/
inductive Derives (g : Grammar) : SententialForm → List Production → SententialForm → Prop
  | nil (f : SententialForm) : Derives g f [] f
  | cons {word : List Symbol} {s : State} {p : Production} {ps : List Production}
      {f : SententialForm} (hp : p ∈ g.rules s) (hd : Derives g (p.rewrite word) ps f) :
      Derives g ⟨word, some s⟩ (p :: ps) f

/-- Some derivation from the start symbol ends with the word `w`. -/
def Generates (g : Grammar) (w : List Symbol) : Prop :=
  ∃ ps, g.Derives ⟨[], some g.start⟩ ps ⟨w, none⟩

variable {g : Grammar}

theorem Derives.append {f₁ f₂ f₃ : SententialForm} {ps qs : List Production}
    (h₁ : g.Derives f₁ ps f₂) (h₂ : g.Derives f₂ qs f₃) : g.Derives f₁ (ps ++ qs) f₃ := by
  induction h₁ with
  | nil f => exact h₂
  | cons hp _ ih => exact .cons hp (ih h₂)

/-- A form without a non-terminal is not rewritten. -/
theorem derives_of_none {w : List Symbol} {ps : List Production} {f : SententialForm}
    (h : g.Derives ⟨w, none⟩ ps f) : ps = [] ∧ f = ⟨w, none⟩ := by
  cases h
  exact ⟨rfl, rfl⟩

theorem derives_none_iff {u v : List Symbol} {s : State} {ps : List Production} :
    g.Derives ⟨u, some s⟩ ps ⟨v, none⟩ ↔
      ∃ t qs, ps = qs ++ [.epsilon] ∧ g.Derives ⟨u, some s⟩ qs ⟨v, some t⟩ ∧
        .epsilon ∈ g.rules t := by
  constructor
  · intro h
    induction ps generalizing u s with
    | nil => cases h
    | cons p ps ih =>
      obtain _ | ⟨hp, hd⟩ := h
      cases p with
      | epsilon =>
        obtain ⟨rfl, hv⟩ := derives_of_none hd
        cases hv
        exact ⟨s, [], rfl, .nil _, hp⟩
      | step x t =>
        obtain ⟨t', qs, rfl, hd', ht'⟩ := ih hd
        exact ⟨t', .step x t :: qs, rfl, .cons hp hd', ht'⟩
  · rintro ⟨t, qs, rfl, hd, ht⟩
    exact hd.append (.cons ht (.nil _))

/-- The last step of a derivation of a whole word is an `ε` step. -/
theorem generates_iff_derives {w : List Symbol} :
    g.Generates w ↔ ∃ t, (∃ ps, g.Derives ⟨[], some g.start⟩ ps ⟨w, some t⟩) ∧
      .epsilon ∈ g.rules t := by
  constructor
  · rintro ⟨ps, h⟩
    obtain ⟨t, qs, rfl, hd, ht⟩ := derives_none_iff.1 h
    exact ⟨t, ⟨qs, hd⟩, ht⟩
  · rintro ⟨t, ⟨qs, hd⟩, ht⟩
    exact ⟨_, derives_none_iff.2 ⟨t, qs, rfl, hd, ht⟩⟩

end Grammar

namespace Automaton

variable (a : Automaton)

/-- The grammar of `a` has the productions of the declared states, and no others. -/
theorem mem_rules {s : State} {p : Production} :
    p ∈ a.grammar.rules s ↔ s ∈ a.states ∧ p ∈ a.productionsOf s := by
  show p ∈ ((SortedMap.ofKeys a.states a.productionsOf).get? s).getD [] ↔ _
  rw [SortedMap.get?_ofKeys]
  by_cases hs : s ∈ a.states <;> simp [hs]

variable {a}

theorem step_mem_rules {s t : State} {x : Symbol} :
    .step x t ∈ a.grammar.rules s ↔ s ∈ a.states ∧ x ∈ a.alphabet ∧ a.step? s x = some t := by
  rw [mem_rules]
  apply and_congr_right
  intro _
  unfold productionsOf
  rw [List.mem_append, List.mem_filterMap]
  constructor
  · rintro (⟨y, hy, h⟩ | h)
    · obtain ⟨t', ht', e⟩ := Option.map_eq_some_iff.1 h
      cases e
      exact ⟨hy, ht'⟩
    · split at h <;> simp at h
  · rintro ⟨hx, ht⟩
    exact Or.inl ⟨x, hx, Option.map_eq_some_iff.2 ⟨t, ht, rfl⟩⟩

theorem epsilon_mem_rules {s : State} :
    .epsilon ∈ a.grammar.rules s ↔ s ∈ a.states ∧ a.isAccepting s = true := by
  rw [mem_rules]
  apply and_congr_right
  intro _
  unfold productionsOf
  rw [List.mem_append, List.mem_filterMap]
  constructor
  · rintro (⟨y, _, h⟩ | h)
    · obtain ⟨t', _, e⟩ := Option.map_eq_some_iff.1 h
      cases e
    · split at h
      · assumption
      · simp at h
  · intro h
    exact Or.inr (by simp [h])

end Automaton

end AutomatonGrammar
