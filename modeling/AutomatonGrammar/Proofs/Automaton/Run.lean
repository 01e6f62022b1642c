import AutomatonGrammar.Proofs.Automaton.Declared

/-!
# Runs

`a.Run s w t ss`: reading the word `w` leads from `s` to `t`, and `ss` are the states that are left on
the way, `s` the first of them. Declarations play no part in a run; in an automaton that declares all
names it uses, a run from a declared state cannot leave the declared names (`Run.declared`).
-/

namespace AutomatonGrammar

namespace Automaton

/-- Reading a word leads from a state to another through the states that are left on the way. -/
inductive Run (a : Automaton) : State → List Symbol → State → List State → Prop
  | nil (s : State) : Run a s [] s []
  | cons {s t u : State} {x : Symbol} {w : List Symbol} {ss : List State}
      (hx : a.step? s x = some t) (hw : Run a t w u ss) : Run a s (x :: w) u (s :: ss)

variable {a : Automaton}

theorem Run.declared (h : a.Declared) {s t : State} {w : List Symbol} {ss : List State}
    (hr : a.Run s w t ss) (hs : s ∈ a.states) :
    (∀ x ∈ w, x ∈ a.alphabet) ∧ ∀ r ∈ ss ++ [t], r ∈ a.states := by
  induction hr with
  | nil s => simpa using hs
  | cons hx _ ih =>
    obtain ⟨hw, hss⟩ := ih (h.target_mem _ _ _ hx)
    refine ⟨fun y hy => ?_, fun r hr => ?_⟩
    · rcases List.mem_cons.1 hy with rfl | hy
      · exact h.symbol_mem _ _ _ hx
      · exact hw y hy
    · rcases List.mem_cons.1 hr with rfl | hr
      · exact hs
      · exact hss r hr

end Automaton

end AutomatonGrammar
