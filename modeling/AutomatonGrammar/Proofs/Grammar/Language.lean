import AutomatonGrammar.Proofs.Automaton.Run
import AutomatonGrammar.Proofs.Grammar.Derivation

/-!
# The language of the grammar

Derivations in the grammar of an automaton that keep a non-terminal are the runs that leave declared
states only and read symbols of the alphabet only (`Automaton.derives_some_iff`). The state a run ends
in need not be declared for that: it is copied, and has no productions. An `ε` step asks for a declared
accepting state, so the words the grammar generates are those the automaton accepts inside its
declarations, and all it accepts where everything it uses is declared
(`Automaton.generates_iff_accepting_run`). A symbol that is written `ε` is a letter like any other.
-/

namespace AutomatonGrammar

namespace Automaton

variable {a : Automaton}

theorem run_of_derives {u v : List Symbol} {s t : State} {ps : List Production}
    (h : a.grammar.Derives ⟨u, some s⟩ ps ⟨v, some t⟩) :
    ∃ w ss, v = u ++ w ∧ a.Run s w t ss ∧ (∀ x ∈ w, x ∈ a.alphabet) ∧ ∀ r ∈ ss, r ∈ a.states := by
  induction ps generalizing u s with
  | nil =>
    cases h
    exact ⟨[], [], by simp, .nil _, by simp, by simp⟩
  | cons p ps ih =>
    obtain _ | ⟨hp, hd⟩ := h
    cases p with
    | epsilon =>
      obtain ⟨-, hf⟩ := Grammar.derives_of_none hd
      cases hf
    | step x s' =>
      obtain ⟨hs, hx, hstep⟩ := step_mem_rules.1 hp
      obtain ⟨w, ss, rfl, hr, hw, hss⟩ := ih hd
      refine ⟨x :: w, s :: ss, by simp [Production.symbol], .cons hstep hr, ?_, ?_⟩
      · simpa [hx] using hw
      · simpa [hs] using hss

theorem derives_of_run {s t : State} {w : List Symbol} {ss : List State} (h : a.Run s w t ss)
    (hw : ∀ x ∈ w, x ∈ a.alphabet) (hss : ∀ r ∈ ss, r ∈ a.states) (u : List Symbol) :
    ∃ ps, a.grammar.Derives ⟨u, some s⟩ ps ⟨u ++ w, some t⟩ := by
  induction h generalizing u with
  | nil s => exact ⟨[], by simpa using Grammar.Derives.nil _⟩
  | @cons s s' t x w ss hx _ ih =>
    obtain ⟨ps, hd⟩ := ih (fun y hy => hw y (.tail _ hy)) (fun r hr => hss r (.tail _ hr)) (u ++ [x])
    have hp : .step x s' ∈ a.grammar.rules s :=
      step_mem_rules.2 ⟨hss s (.head _), hw x (.head _), hx⟩
    rw [List.append_assoc, List.singleton_append] at hd
    exact ⟨.step x s' :: ps, .cons hp hd⟩

theorem derives_some_iff {u v : List Symbol} {s t : State} :
    (∃ ps, a.grammar.Derives ⟨u, some s⟩ ps ⟨v, some t⟩) ↔
      ∃ w ss, v = u ++ w ∧ a.Run s w t ss ∧ (∀ x ∈ w, x ∈ a.alphabet) ∧ ∀ r ∈ ss, r ∈ a.states := by
  constructor
  · rintro ⟨ps, h⟩
    exact run_of_derives h
  · rintro ⟨w, ss, rfl, hr, hw, hss⟩
    exact derives_of_run hr hw hss u

theorem generates_iff {w : List Symbol} :
    a.grammar.Generates w ↔ ∃ t ss, a.Run a.start w t ss ∧ (∀ x ∈ w, x ∈ a.alphabet) ∧
      (∀ r ∈ ss ++ [t], r ∈ a.states) ∧ a.isAccepting t = true := by
  rw [Grammar.generates_iff_derives]
  constructor
  · rintro ⟨t, hd, ht⟩
    obtain ⟨w', ss, rfl, hr, hw, hss⟩ := derives_some_iff.1 hd
    obtain ⟨htm, hacc⟩ := epsilon_mem_rules.1 ht
    refine ⟨t, ss, hr, hw, fun r hr => ?_, hacc⟩
    rcases List.mem_append.1 hr with hr | hr
    · exact hss r hr
    · rw [List.mem_singleton.1 hr]
      exact htm
  · rintro ⟨t, ss, hr, hw, hss, hacc⟩
    have ht : .epsilon ∈ a.grammar.rules t := epsilon_mem_rules.2 ⟨hss t (by simp), hacc⟩
    exact ⟨t, derives_some_iff.2 ⟨w, ss, rfl, hr, hw, fun r hr => hss r (by simp [hr])⟩, ht⟩

/-- **The grammar generates the language of the automaton.**  A word is derived from the start symbol
exactly if it leads from the start state to an accepting state by symbols of the alphabet and through
declared states.  In an automaton that passes its validation every run does. -/
theorem generates_iff_accepting_run (a : Automaton) (w : List Symbol) :
    (a.grammar.Generates w ↔ ∃ t ss, a.Run a.start w t ss ∧ (∀ x ∈ w, x ∈ a.alphabet) ∧
      (∀ r ∈ ss ++ [t], r ∈ a.states) ∧ a.isAccepting t = true) ∧
    (a.validate = .ok () →
      (a.grammar.Generates w ↔ ∃ t ss, a.Run a.start w t ss ∧ a.isAccepting t = true)) := by
  refine ⟨generates_iff, fun hv => ?_⟩
  have hd := validate_ok_iff.1 hv
  rw [generates_iff]
  constructor
  · rintro ⟨t, ss, hr, -, -, hacc⟩
    exact ⟨t, ss, hr, hacc⟩
  · rintro ⟨t, ss, hr, hacc⟩
    obtain ⟨hw, hss⟩ := hr.declared hd hd.start_mem
    exact ⟨t, ss, hr, hw, hss, hacc⟩

/-- One state, which accepts and goes round on a symbol that is written like the empty word. -/
def epsilonLoop : Automaton := .ofParts ["s"] ["ε"] [⟨"s", "ε", "s"⟩] "s" ["s"]

theorem generates_epsilonLoop :
    epsilonLoop.validate = .ok () ∧ epsilonLoop.grammar.Generates ["ε", "ε"] := by
  have hv : epsilonLoop.validate = .ok () := (validate_eq_ok_iff _).2 (by decide)
  have hx : epsilonLoop.step? "s" "ε" = some "s" := by decide
  exact ⟨hv, ((generates_iff_accepting_run epsilonLoop ["ε", "ε"]).2 hv).2
    ⟨"s", ["s", "s"], .cons hx (.cons hx (.nil "s")), by decide⟩⟩

end Automaton

end AutomatonGrammar
