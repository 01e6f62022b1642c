import AutomatonGrammar.Automaton.Basic
import AutomatonGrammar.Log

/-!
# Numbers for the nodes of a diagram

Names are numbered one after another, and one that has a number keeps it. The declared states come first,
in ascending order, then whatever the start state and the transitions use. A numbering is three tables:
the names in the order of their numbers, the number of each name, and which of the names accept. They
belong together (`Numbering.Sound`), because a name is entered into all of them at once:

    n.number? s = some k ↔ n.nodes[k]? = some s                              (Sound.number?_eq_some_iff)
    n.finals = n.nodes.map accepts                                           (Sound.finals_eq)
-/

namespace AutomatonGrammar

structure Numbering where
  /-- The names, each at the place that is its number. -/
  nodes : List State
  /-- The number of each name. -/
  numbers : SortedMap State Nat
  /-- Whether a name accepts, at the place that is its number. -/
  finals : List Bool
deriving DecidableEq

namespace Numbering

def empty : Numbering := ⟨[], ∅, []⟩

/-- The number of a name, if it has one. -/
def number? (n : Numbering) (s : State) : Option Nat := n.numbers.get? s

/-- Gives a name the next number, unless it has one. -/
def add (accepts : State → Bool) (n : Numbering) (s : State) : Numbering :=
  match n.number? s with
  | some _ => n
  | none => ⟨n.nodes ++ [s], n.numbers.insert s n.nodes.length, n.finals ++ [accepts s]⟩

/-! ## Tables that belong together -/

variable {accepts : State → Bool} {n : Numbering} {s : State}

structure Sound (accepts : State → Bool) (n : Numbering) : Prop where
  number?_eq_some_iff : ∀ s k, n.number? s = some k ↔ n.nodes[k]? = some s
  finals_eq : n.finals = n.nodes.map accepts

theorem sound_empty (accepts : State → Bool) : Sound accepts empty := by
  refine ⟨fun s k => ?_, rfl⟩
  simp [number?, empty]

/-- The number of a name is the first place where it stands. -/
theorem Sound.number?_eq_idxOf (h : n.Sound accepts) (hs : s ∈ n.nodes) :
    n.number? s = some (n.nodes.idxOf s) := by
  rw [h.number?_eq_some_iff, List.getElem?_eq_some_iff]
  exact ⟨List.idxOf_lt_length_of_mem hs, List.getElem_idxOf _⟩

theorem Sound.number?_eq_none_iff (h : n.Sound accepts) : n.number? s = none ↔ s ∉ n.nodes := by
  constructor
  · intro hnone hs
    cases hnone.symm.trans (h.number?_eq_idxOf hs)
  · intro hs
    cases hk : n.number? s with
    | none => rfl
    | some k => exact absurd (List.mem_of_getElem? ((h.number?_eq_some_iff s k).1 hk)) hs

theorem Sound.add_of_mem (h : n.Sound accepts) (hs : s ∈ n.nodes) : n.add accepts s = n := by
  rw [add, h.number?_eq_idxOf hs]

theorem Sound.add_of_not_mem (h : n.Sound accepts) (hs : s ∉ n.nodes) : n.add accepts s =
    ⟨n.nodes ++ [s], n.numbers.insert s n.nodes.length, n.finals ++ [accepts s]⟩ := by
  rw [add, h.number?_eq_none_iff.2 hs]

/-- One name more keeps the tables together. -/
theorem Sound.add (h : n.Sound accepts) (s : State) : (n.add accepts s).Sound accepts := by
  by_cases hs : s ∈ n.nodes
  · rwa [h.add_of_mem hs]
  rw [h.add_of_not_mem hs]
  refine ⟨fun t k => ?_, by simp [h.finals_eq]⟩
  have hold := h.number?_eq_some_iff t k
  rw [number?] at hold
  rw [number?, SortedMap.get?_insert, List.getElem?_append]
  by_cases hk : k < n.nodes.length
  · -- an earlier place keeps its name, which is another one
    have hne : n.nodes[k]? ≠ some s := fun hk => hs (List.mem_of_getElem? hk)
    rw [if_pos hk]
    split
    · next ht =>
      subst ht
      exact iff_of_false (fun he => absurd (Option.some.inj he) (by omega)) hne
    · exact hold
  · have hnone : n.nodes[k]? = none := List.getElem?_eq_none (by omega)
    rw [if_neg hk]
    split
    · next ht =>
      subst ht
      rw [Option.some.injEq]
      constructor
      · rintro rfl
        simp
      · intro hlast
        have := (List.getElem?_eq_some_iff.1 hlast).1
        rw [List.length_singleton] at this
        omega
    · next ht =>
      rw [hold, hnone]
      refine iff_of_false (by simp) fun hlast => ht ?_
      exact (List.mem_singleton.1 (List.mem_of_getElem? hlast))

/-- So does a list of names, one after another. -/
theorem Sound.foldl_add (h : n.Sound accepts) (names : List State) :
    (names.foldl (.add accepts) n).Sound accepts := by
  induction names generalizing n with
  | nil => exact h
  | cons s names ih => exact ih (h.add s)

theorem Sound.mem_nodes_add (h : n.Sound accepts) {t : State} :
    t ∈ (n.add accepts s).nodes ↔ t ∈ n.nodes ∨ t = s := by
  by_cases hs : s ∈ n.nodes
  · rw [h.add_of_mem hs]
    exact (or_iff_left_of_imp fun ht => ht ▸ hs).symm
  · simp [h.add_of_not_mem hs]

theorem Sound.mem_nodes_foldl_add (h : n.Sound accepts) {names : List State} {t : State} :
    t ∈ (names.foldl (.add accepts) n).nodes ↔ t ∈ n.nodes ∨ t ∈ names := by
  induction names generalizing n with
  | nil => simp
  | cons s names ih => rw [List.foldl_cons, ih (h.add s), h.mem_nodes_add, or_assoc, List.mem_cons]

end Numbering

namespace Automaton

variable (a : Automaton)

/-- The declared states, numbered. -/
def declaredNumbering : Numbering := a.states.toList.foldl (.add a.isAccepting) .empty

/-- The numbers of the nodes: those of the declared states, and behind them one for each other name that
the start state or a transition uses. An empty start state is none. -/
def numbering : Numbering :=
  let n := a.declaredNumbering
  let n := if a.start = "" then n else n.add a.isAccepting a.start
  a.edges.foldl (fun n e => (n.add a.isAccepting e.source).add a.isAccepting e.target) n

/-- What is logged when the nodes are numbered. -/
def undeclaredNotes : List Log.Entry :=
  (a.numbering.nodes.drop a.declaredNumbering.nodes.length).map fun s =>
    { level := .warn, topic := .diagram, text := "state " ++ s ++ " is used but never declared" }

/-! ## Names that are used -/

/-- The names that the start state and the transitions use, one after another. -/
def mentions : List State :=
  (if a.start = "" then [] else [a.start]) ++ a.edges.flatMap fun e => [e.source, e.target]

/-- The loops over the start state and the transitions are one loop over the names that they use. -/
theorem numbering_eq : a.numbering = a.mentions.foldl (.add a.isAccepting) a.declaredNumbering := by
  rw [mentions, List.foldl_append, List.foldl_flatMap, numbering]
  split
  · rfl
  · rfl

theorem sound_declaredNumbering : a.declaredNumbering.Sound a.isAccepting :=
  (Numbering.sound_empty _).foldl_add _

theorem sound_numbering : a.numbering.Sound a.isAccepting := by
  rw [numbering_eq]
  exact a.sound_declaredNumbering.foldl_add _

/-- Just the names that are declared or used have numbers. -/
theorem mem_nodes_numbering {s : State} :
    s ∈ a.numbering.nodes ↔ s ∈ a.states ∨ s ∈ a.mentions := by
  rw [numbering_eq, a.sound_declaredNumbering.mem_nodes_foldl_add, declaredNumbering,
    (Numbering.sound_empty _).mem_nodes_foldl_add, SortedSet.mem_toList]
  exact or_congr_left (or_iff_right List.not_mem_nil)

variable {a}

theorem start_mem_mentions (h : a.start ≠ "") : a.start ∈ a.mentions := by
  refine List.mem_append_left _ ?_
  rw [if_neg h]
  exact .head _

theorem ends_mem_mentions {e : Edge} (h : e ∈ a.edges) : e.source ∈ a.mentions ∧ e.target ∈ a.mentions := by
  have hends : ∀ s ∈ [e.source, e.target], s ∈ a.mentions := fun s hs =>
    List.mem_append_right _ (List.mem_flatMap.2 ⟨e, h, hs⟩)
  exact ⟨hends _ (.head _), hends _ (.tail _ (.head _))⟩

end Automaton

end AutomatonGrammar
