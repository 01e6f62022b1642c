import AutomatonGrammar.Automaton.Basic
import AutomatonGrammar.Sorted.Position

/-!
# States that no path reaches

A search from the start state through declared states. These are numbered in ascending order, so that a
state is found by its name, and one bit for each of them says whether it has been found. A worklist keeps
those found that are still to be left. A state is put on it when it is found for the first time, so each
is left at most once and the search ends.

    (q.add m).has k = (q.has k || k = m)                                           (Search.has_add)
    q.worklist ≠ [] → (a.round names q).remaining < q.remaining                    (remaining_round_lt)
-/

namespace AutomatonGrammar

/-- How far a search among `n` numbered states has come. -/
structure Search (n : Nat) where
  /-- For each state, whether it has been found. -/
  seen : BitVec n
  /-- The states found that are still to be left, the next one first. -/
  worklist : List (Fin n)
deriving DecidableEq, Repr

namespace Search

variable {n : Nat} (q : Search n) (m : Fin n)

/-- A state has been found. -/
def has : Bool := q.seen[m]

/-- Puts a state on the worklist, unless it has been found before. -/
def add : Search n :=
  if q.has m then q else ⟨q.seen ||| BitVec.twoPow n m, m :: q.worklist⟩

/-- The states that have not been found, in ascending order. -/
def unseen : List (Fin n) := (List.finRange n).filter fun k => !q.has k

/-- How many states may still have to be left. -/
def remaining : Nat := q.unseen.length + q.worklist.length

variable {q m}

theorem add_of_has (h : q.has m = true) : q.add m = q := if_pos h

theorem worklist_add_of_not (h : ¬ q.has m = true) : (q.add m).worklist = m :: q.worklist := by
  rw [add, if_neg h]

/-- One state more has been found. -/
theorem has_add (k : Fin n) : (q.add m).has k = (q.has k || decide (k = m)) := by
  by_cases h : q.has m = true
  · rw [add_of_has h]
    by_cases hk : k = m
    · simp [hk, h]
    · simp [hk]
  · rw [add, if_neg h]
    simp [has, BitVec.getElem_or, BitVec.getElem_twoPow, Fin.ext_iff]

/-- The unseen states without the one that has been found. -/
theorem unseen_add : (q.add m).unseen = q.unseen.filter (· ≠ m) := by
  simp only [unseen, List.filter_filter, has_add, Bool.not_or, decide_not, Bool.and_comm]

/-- What is put on the worklist was unseen before, so no more remains to be done than before. -/
theorem remaining_add_le (q : Search n) (m : Fin n) : (q.add m).remaining ≤ q.remaining := by
  by_cases h : q.has m = true
  · exact Nat.le_of_eq (congrArg remaining (add_of_has h))
  · have hm : m ∈ q.unseen := List.mem_filter.2 ⟨List.mem_finRange m, by simpa using h⟩
    have hlt : (q.add m).unseen.length < q.unseen.length := by
      rw [unseen_add]
      exact List.length_filter_lt_length_iff_exists.2 ⟨m, hm, by simp⟩
    rw [remaining, remaining, worklist_add_of_not h, List.length_cons]
    omega

end Search

namespace Automaton

variable (a : Automaton) (names : Array State)

/-- The name of a state. -/
def name (m : Fin names.size) : State := names[m]

/-- Puts the state of this name on the worklist, if there is one and it has not been found before. -/
def enlist (q : Search names.size) (s : State) : Search names.size :=
  match SortedSet.position? names s with
  | none => q
  | some m => q.add m

/-- The search that has found the start state only. -/
def searchStart : Search names.size := enlist names ⟨0, []⟩ a.start

/-- Leaves the next state of the worklist by each of its transitions. -/
def round (q : Search names.size) : Search names.size :=
  match q.worklist with
  | [] => q
  | m :: rest => (a.successors (name names m)).foldl (enlist names) ⟨q.seen, rest⟩

variable {names}

theorem remaining_enlist_le (q : Search names.size) (s : State) :
    (enlist names q s).remaining ≤ q.remaining := by
  unfold enlist
  split
  · exact Nat.le_refl _
  · exact q.remaining_add_le _

theorem remaining_foldl_enlist_le (ss : List State) (q : Search names.size) :
    (ss.foldl (enlist names) q).remaining ≤ q.remaining := by
  induction ss generalizing q with
  | nil => exact Nat.le_refl _
  | cons s ss ih => exact Nat.le_trans (ih _) (remaining_enlist_le q s)

/-- A round takes one state off the worklist, so the rounds end. -/
theorem remaining_round_lt {q : Search names.size} (h : q.worklist ≠ []) :
    (a.round names q).remaining < q.remaining := by
  obtain ⟨seen, worklist⟩ := q
  cases worklist with
  | nil => exact absurd rfl h
  | cons m rest =>
    refine Nat.lt_of_le_of_lt (remaining_foldl_enlist_le _ _) ?_
    simp only [Search.remaining, Search.unseen, Search.has, List.length_cons]
    omega

variable (names)

/-- The search with all its rounds done. -/
def explore (q : Search names.size) : Search names.size :=
  if q.worklist = [] then q else explore (a.round names q)
termination_by q.remaining
decreasing_by exact a.remaining_round_lt ‹_›

/-- The declared states that no path of declared states reaches from the start state. -/
def unreachable : SortedSet State :=
  let names := a.states.toArray
  .ofList ((a.explore names (a.searchStart names)).unseen.map (name names))

end Automaton

end AutomatonGrammar
