import AutomatonGrammar.Proofs.Automaton.Reachable
import AutomatonGrammar.Proofs.Grammar.Language

/-!
# Non-terminals that no derivation reaches

A sentential form that is derived from the start symbol holds a reachable state, or one that is not
declared, so a state that is reported as unreachable stands in none. The report follows every symbol, and
the grammar those of the alphabet only; where all names are declared this makes no difference, and a
declared state is reported exactly if no sentential form holds it.
-/

namespace AutomatonGrammar

namespace Automaton

variable {a : Automaton}

/-- Some sentential form that is derived from the start symbol holds the non-terminal `s`. -/
def Derivable (a : Automaton) (s : State) : Prop :=
  ∃ w ps, a.grammar.Derives ⟨[], some a.grammar.start⟩ ps ⟨w, some s⟩

theorem Derivable.reachable {s : State} (h : a.Derivable s) (hs : s ∈ a.states) :
    a.Reachable s := by
  obtain ⟨w, ps, hd⟩ := h
  obtain ⟨w, ss, -, hr, -, hss⟩ := run_of_derives hd
  have hall : ∀ r ∈ ss ++ [s], r ∈ a.states := by
    intro r hm
    rcases List.mem_append.1 hm with hm | hm
    · exact hss r hm
    · rw [List.mem_singleton.1 hm]
      exact hs
  have hstart : a.start ∈ a.states := by
    cases hr with
    | nil => exact hs
    | cons => exact hss _ (.head _)
  exact hr.reachable (.start hstart) hall

theorem Reachable.derivable {s : State} (h : a.Reachable s) (hd : a.Declared) : a.Derivable s := by
  obtain ⟨w, ss, hr⟩ := h.exists_run
  obtain ⟨hw, hss⟩ := hr.declared hd hd.start_mem
  obtain ⟨ps, hps⟩ := derives_of_run hr hw (fun r hr => hss r (by simp [hr])) []
  exact ⟨w, ps, hps⟩

/-- The second state is reached by a symbol that is not in the alphabet. -/
def strayLetter : Automaton := .ofParts ["s", "t"] ["a"] [⟨"s", "b", "t"⟩] "s" []

theorem strayLetter_not_derivable : ¬ strayLetter.Derivable "t" := by
  rintro ⟨w, ps, hd⟩
  generalize ht : "t" = t at hd
  cases ps with
  | nil =>
    cases hd
    exact absurd ht (by decide)
  | cons p ps =>
    obtain _ | ⟨hp, -⟩ := hd
    have hrules : strayLetter.grammar.rules strayLetter.grammar.start = [] := by decide
    rw [hrules] at hp
    cases hp

theorem not_derivable_of_mem_unreachable {s : State} (h : s ∈ a.unreachable) : ¬ a.Derivable s := by
  obtain ⟨hs, hr⟩ := mem_unreachable_iff.1 h
  exact fun hd => hr (hd.reachable hs)

/-- **Unreachable states and the grammar.**  A state that is reported as unreachable stands in no
sentential form that is derived from the start symbol, and in a validated automaton these are all the
declared states of that kind.  Without validation there may be more of them. -/
theorem unreachable_iff_not_derivable :
    (∀ (a : Automaton) (s : State), s ∈ a.unreachable → ¬ a.Derivable s) ∧
    (∀ (a : Automaton) (s : State), a.validate = .ok () → s ∈ a.states →
      (s ∈ a.unreachable ↔ ¬ a.Derivable s)) ∧
    ∃ (a : Automaton) (s : State), s ∈ a.states ∧ s ∉ a.unreachable ∧ ¬ a.Derivable s := by
  refine ⟨fun a s h => not_derivable_of_mem_unreachable h, fun a s hv hs => ?_, ?_⟩
  · constructor
    · exact not_derivable_of_mem_unreachable
    · intro h
      exact mem_unreachable_iff.2 ⟨hs, fun hr => h (hr.derivable (validate_ok_iff.1 hv))⟩
  · have hreach : strayLetter.Reachable "t" :=
      .step (.start (by decide) : strayLetter.Reachable "s") (by decide) (by decide)
    exact ⟨strayLetter, "t", by decide, hreach.not_mem_unreachable, strayLetter_not_derivable⟩

/-- Two states that go round, and one that they do not lead to although it leads to them. -/
def aside : Automaton :=
  .ofParts ["s", "t", "u"] ["a"] [⟨"s", "a", "t"⟩, ⟨"t", "a", "s"⟩, ⟨"u", "a", "s"⟩] "s" ["t"]

theorem unreachable_iff_not_derivable_aside :
    aside.validate = .ok () ∧ "u" ∈ aside.unreachable ∧ ¬ aside.Derivable "u" ∧
    ("t" ∈ aside.unreachable ↔ ¬ aside.Derivable "t") := by
  have hv : aside.validate = .ok () := (validate_eq_ok_iff _).2 (by decide)
  have hclosed : ∀ s, aside.Reachable s → s = "s" ∨ s = "t" := by
    intro s h
    induction h with
    | start => exact .inl rfl
    | step _ hst _ ih =>
      have hs : aside.successors "s" = ["t"] := by decide
      have ht : aside.successors "t" = ["s"] := by decide
      rcases ih with rfl | rfl
      · exact .inr (by simpa [hs] using hst)
      · exact .inl (by simpa [ht] using hst)
  have hu : "u" ∈ aside.unreachable :=
    mem_unreachable_iff.2 ⟨by decide, fun h => absurd (hclosed "u" h) (by decide)⟩
  exact ⟨hv, hu, unreachable_iff_not_derivable.1 aside "u" hu,
    unreachable_iff_not_derivable.2.1 aside "t" hv (by decide)⟩

end Automaton

end AutomatonGrammar
