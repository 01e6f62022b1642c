import AutomatonGrammar.Automaton.Reachable
import AutomatonGrammar.Proofs.Automaton.Run
import Mathlib.Data.List.Chain
import Mathlib.Data.List.Induction
import Mathlib.Data.Nat.Init
import Mathlib.Logic.Function.Iterate

/-!
# What the search for unreachable states finds

A state is reachable when a path of declared states leads to it from the start state, on any symbols. The
search numbers the states, and their numbers stand for their names (`found`, `worklist`): a declared state
that is new is put on the worklist, any other name is passed over (`enlist_of_new`, `enlist_of_not`). In
every round the states found so far are reachable, and what leads away from them is on the worklist or
leads to states that have been found (`Explores`). So a search whose worklist is empty has found the
reachable states, and leaves the others:

    s ∈ a.unreachable ↔ s ∈ a.states ∧ ¬ a.Reachable s                  (mem_unreachable_iff)
    a.Reachable s ↔ ∃ path, a.IsPath path s                             (reachable_iff_exists_path)

A round finds the successors that are new (`round_cons`), so no state comes back to the worklist, and
after at most as many rounds as there are states the worklist is empty (`unreachable_exact`).

Runs through declared states stay among the reachable ones, and where all names are declared every
reachable state is the end of a run.
-/

namespace AutomatonGrammar

namespace Automaton

/-- A path of declared states leads from the start state to a state. -/
inductive Reachable (a : Automaton) : State → Prop
  | start (h : a.start ∈ a.states) : Reachable a a.start
  | step {s t : State} (hs : Reachable a s) (hst : t ∈ a.successors s) (ht : t ∈ a.states) :
      Reachable a t

variable {a : Automaton}

theorem mem_successors {s t : State} : t ∈ a.successors s ↔ ∃ x, a.step? s x = some t := by
  show t ∈ (a.transitions.row s).toList.map Prod.snd ↔ ∃ x, (a.transitions.row s).get? x = some t
  simp only [List.mem_map, Prod.exists, SortedMap.mem_toList_iff]
  constructor
  · rintro ⟨x, _, h, rfl⟩
    exact ⟨x, h⟩
  · rintro ⟨x, h⟩
    exact ⟨x, t, h, rfl⟩

theorem Reachable.mem_states {s : State} (h : a.Reachable s) : s ∈ a.states := by
  cases h with
  | start h => exact h
  | step _ _ ht => exact ht

theorem Reachable.start_mem {s : State} (h : a.Reachable s) : a.start ∈ a.states := by
  induction h with
  | start h => exact h
  | step _ _ _ ih => exact ih

/-! ## Paths -/

/-- A path of declared states from the start state to `s`. -/
structure IsPath (a : Automaton) (path : List State) (s : State) : Prop where
  head : path.head? = some a.start
  last : path.getLast? = some s
  declared : ∀ r ∈ path, r ∈ a.states
  steps : path.IsChain fun r t => ∃ x, a.step? r x = some t

theorem Reachable.exists_path {s : State} (h : a.Reachable s) : ∃ path, a.IsPath path s := by
  induction h with
  | start h => exact ⟨[a.start], rfl, rfl, by simpa using h, .singleton _⟩
  | @step s t _ hst ht ih =>
    obtain ⟨path, hp⟩ := ih
    refine ⟨path ++ [t], ?_, by simp, ?_, ?_⟩
    · rw [List.head?_append, hp.head]
      rfl
    · intro r hr
      rcases List.mem_append.1 hr with hr | hr
      · exact hp.declared r hr
      · exact List.mem_singleton.1 hr ▸ ht
    · refine List.isChain_append.2 ⟨hp.steps, .singleton _, ?_⟩
      intro r hr u hu
      cases hp.last.symm.trans hr
      cases hu
      exact mem_successors.1 hst

theorem IsPath.reachable {path : List State} {s : State} (h : a.IsPath path s) : a.Reachable s := by
  induction path using List.reverseRecOn generalizing s with
  | nil => cases h.last
  | append_singleton path t ih =>
    obtain ⟨hhead, hlast, hdeclared, hsteps⟩ := h
    obtain rfl : t = s := by simpa using hlast
    have ht : t ∈ a.states := hdeclared t (by simp)
    cases hpath : path.getLast? with
    | none =>
      obtain rfl := List.getLast?_eq_none_iff.1 hpath
      obtain rfl : t = a.start := by simpa using hhead
      exact .start ht
    | some r =>
      obtain ⟨hsteps, -, hstep⟩ := List.isChain_append.1 hsteps
      have hhead' : path.head? = some a.start := by
        cases path with
        | nil => cases hpath
        | cons => exact hhead
      have hr : a.Reachable r := ih ⟨hhead', hpath, fun u hu => hdeclared u (by simp [hu]), hsteps⟩
      exact .step hr (mem_successors.2 (hstep r hpath t rfl)) ht

theorem reachable_iff_exists_path {s : State} : a.Reachable s ↔ ∃ path, a.IsPath path s :=
  ⟨Reachable.exists_path, fun ⟨_, h⟩ => h.reachable⟩

/-! ## A search by names -/

variable {q : Search a.states.toArray.size} {s : State}

/-- The states that a search has found. -/
def found (a : Automaton) (q : Search a.states.toArray.size) : List State :=
  ((List.finRange _).filter q.has).map (name a.states.toArray)

/-- The states that a search still has to leave, the next one first. -/
def worklist (a : Automaton) (q : Search a.states.toArray.size) : List State :=
  q.worklist.map (name a.states.toArray)

theorem mem_found : s ∈ a.found q ↔ ∃ m, q.has m = true ∧ name a.states.toArray m = s := by
  simp [found]

theorem name_mem_found {m : Fin a.states.toArray.size} :
    name a.states.toArray m ∈ a.found q ↔ q.has m = true := by
  rw [mem_found]
  constructor
  · rintro ⟨k, hk, heq⟩
    rwa [← SortedSet.getElem_toArray_inj.1 heq]
  · exact fun h => ⟨m, h, rfl⟩

/-- A state that is not declared, or that has been found, is passed over. -/
theorem enlist_of_not (h : ¬ (s ∈ a.states ∧ s ∉ a.found q)) : enlist a.states.toArray q s = q := by
  by_cases hs : s ∈ a.states
  · obtain ⟨m, rfl⟩ := SortedSet.exists_getElem_toArray hs
    have hm : q.has m = true := name_mem_found.1 (Decidable.by_contra fun hn => h ⟨hs, hn⟩)
    rw [enlist, SortedSet.position?_eq_some_iff.2 rfl]
    exact Search.add_of_has hm
  · rw [enlist, SortedSet.position?_eq_none_iff.2 hs]

/-- A declared state that has not been found before is found, and put on the worklist. -/
theorem enlist_of_new (hs : s ∈ a.states) (hq : s ∉ a.found q) :
    a.worklist (enlist a.states.toArray q s) = s :: a.worklist q ∧
      ∀ t, t ∈ a.found (enlist a.states.toArray q s) ↔ t = s ∨ t ∈ a.found q := by
  obtain ⟨m, rfl⟩ := SortedSet.exists_getElem_toArray hs
  have hm : ¬ q.has m = true := fun h => hq (name_mem_found.2 h)
  have henlist : enlist a.states.toArray q a.states.toArray[m] = q.add m := by
    rw [enlist, SortedSet.position?_eq_some_iff.2 rfl]
  rw [henlist]
  refine ⟨?_, fun t => ?_⟩
  · exact congrArg (List.map (name a.states.toArray)) (Search.worklist_add_of_not hm)
  · simp only [mem_found, Search.has_add, Bool.or_eq_true, decide_eq_true_iff, or_and_right, exists_or,
      exists_eq_left]
    rw [or_comm, eq_comm (a := t)]
    rfl

/-! ## One round -/

/-- What is put on the worklist is new and declared, and nothing is put there twice. -/
theorem foldl_enlist (ts : List State) (q : Search a.states.toArray.size) : ∃ new,
    a.worklist (ts.foldl (enlist a.states.toArray) q) = new ++ a.worklist q ∧
      (∀ t, t ∈ a.found (ts.foldl (enlist a.states.toArray) q) ↔ t ∈ new ∨ t ∈ a.found q) ∧
      new.Nodup ∧ ∀ t, t ∈ new ↔ t ∈ ts ∧ t ∈ a.states ∧ t ∉ a.found q := by
  induction ts generalizing q with
  | nil => exact ⟨[], rfl, by simp, .nil, by simp⟩
  | cons t ts ih =>
    rw [List.foldl_cons]
    by_cases h : t ∈ a.states ∧ t ∉ a.found q
    · obtain ⟨hworklist, hfound⟩ := enlist_of_new h.1 h.2
      obtain ⟨new, heq, hall, hnodup, hmem⟩ := ih (enlist a.states.toArray q t)
      have ht : t ∉ new := fun hm => ((hmem t).1 hm).2.2 ((hfound t).2 (.inl rfl))
      refine ⟨new ++ [t], ?_, fun r => ?_, ?_, fun r => ?_⟩
      · rw [heq, hworklist]
        simp
      · rw [hall, hfound, List.mem_append, List.mem_singleton, or_assoc]
      · refine List.nodup_append.2 ⟨hnodup, by simp, fun r hr u hu e => ht ?_⟩
        rwa [← List.mem_singleton.1 hu, ← e]
      · rw [List.mem_append, hmem, hfound]
        by_cases hrt : r = t
        · simp [hrt, h]
        · simp [hrt]
    · rw [enlist_of_not h]
      obtain ⟨new, heq, hall, hnodup, hmem⟩ := ih q
      refine ⟨new, heq, hall, hnodup, fun r => ?_⟩
      rw [hmem]
      by_cases hrt : r = t
      · subst hrt
        simp [h]
      · simp [hrt]

theorem round_nil (h : a.worklist q = []) : a.round a.states.toArray q = q := by
  rw [round, List.map_eq_nil_iff.1 h]

/-- A round finds the declared successors of the state it leaves that have not been found before. -/
theorem round_cons {rest : List State} (h : a.worklist q = s :: rest) : ∃ new,
    a.worklist (a.round a.states.toArray q) = new ++ rest ∧
      (∀ t, t ∈ a.found (a.round a.states.toArray q) ↔ t ∈ new ∨ t ∈ a.found q) ∧
      new.Nodup ∧ ∀ t, t ∈ new ↔ t ∈ a.successors s ∧ t ∈ a.states ∧ t ∉ a.found q := by
  obtain ⟨m, ms, hq, rfl, rfl⟩ := List.map_eq_cons_iff.1 h
  rw [round, hq]
  exact foldl_enlist _ ⟨q.seen, ms⟩

/-! ## What holds in every round -/

/-- What holds of a search in every round. -/
structure Explores (a : Automaton) (q : Search a.states.toArray.size) : Prop where
  worklist_nodup : (a.worklist q).Nodup
  mem_found : ∀ s ∈ a.worklist q, s ∈ a.found q
  reachable : ∀ s ∈ a.found q, a.Reachable s
  start_mem : a.start ∈ a.states → a.start ∈ a.found q
  closed : ∀ s ∈ a.found q, s ∉ a.worklist q → ∀ t ∈ a.successors s, t ∈ a.states → t ∈ a.found q

theorem not_mem_found_empty (s : State) : s ∉ a.found ⟨0, []⟩ := by
  simp [found, Search.has]

theorem explores_searchStart (a : Automaton) : a.Explores (a.searchStart a.states.toArray) := by
  rw [searchStart]
  by_cases h : a.start ∈ a.states
  · obtain ⟨hworklist, hfound⟩ := enlist_of_new h (not_mem_found_empty a.start)
    have hfound : ∀ s, s ∈ a.found (enlist a.states.toArray ⟨0, []⟩ a.start) ↔ s = a.start := fun s =>
      (hfound s).trans (or_iff_left (not_mem_found_empty s))
    refine ⟨?_, ?_, fun s hs => ?_, fun _ => (hfound _).2 rfl, fun s hs hn => ?_⟩
    · rw [hworklist]
      exact List.pairwise_singleton _ _
    · intro s hs
      rw [hworklist] at hs
      exact (hfound s).2 (List.mem_singleton.1 hs)
    · rw [(hfound s).1 hs]
      exact .start h
    · rw [hworklist, (hfound s).1 hs] at hn
      exact absurd (.head _) hn
  · rw [enlist_of_not fun hm => h hm.1]
    exact ⟨.nil, fun s hs => absurd hs List.not_mem_nil, fun s hs => absurd hs (not_mem_found_empty s),
      fun hm => absurd hm h, fun s hs => absurd hs (not_mem_found_empty s)⟩

theorem Explores.round (h : a.Explores q) : a.Explores (a.round a.states.toArray q) := by
  cases hw : a.worklist q with
  | nil => rwa [round_nil hw]
  | cons s rest =>
    obtain ⟨new, heq, hfound, hnodup, hmem⟩ := round_cons hw
    have hrest : ∀ t ∈ rest, t ∈ a.found q := fun t ht => h.mem_found t (hw ▸ .tail _ ht)
    refine ⟨?_, fun t ht => ?_, fun t ht => ?_, fun hm => ?_, fun r hr hn t hrt ht => ?_⟩
    · rw [heq]
      refine List.nodup_append.2 ⟨hnodup, (List.nodup_cons.1 (hw ▸ h.worklist_nodup)).2, ?_⟩
      rintro t ht r hr rfl
      exact ((hmem t).1 ht).2.2 (hrest t hr)
    · rw [heq] at ht
      exact (hfound t).2 ((List.mem_append.1 ht).imp_right (hrest t))
    · rcases (hfound t).1 ht with ht | ht
      · obtain ⟨hst, hdeclared, -⟩ := (hmem t).1 ht
        exact .step (h.reachable s (h.mem_found s (hw ▸ .head _))) hst hdeclared
      · exact h.reachable t ht
    · exact (hfound _).2 (.inr (h.start_mem hm))
    · rw [heq, List.mem_append, not_or] at hn
      have hr : r ∈ a.found q := ((hfound r).1 hr).resolve_left hn.1
      by_cases ht' : t ∈ a.found q
      · exact (hfound t).2 (.inr ht')
      · by_cases hrs : r = s
        · subst hrs
          exact (hfound t).2 (.inl ((hmem t).2 ⟨hrt, ht, ht'⟩))
        · have hnr : r ∉ a.worklist q := by simp [hw, hrs, hn.2]
          exact absurd (h.closed r hr hnr t hrt ht) ht'

/-- A search with nothing left to do has found the reachable states. -/
theorem Explores.mem_found_iff (h : a.Explores q) (hw : a.worklist q = []) :
    s ∈ a.found q ↔ a.Reachable s := by
  constructor
  · exact h.reachable s
  · intro hs
    induction hs with
    | start hm => exact h.start_mem hm
    | step _ hst ht ih => exact h.closed _ ih (by simp [hw]) _ hst ht

/-- A state that has been left is not put on the worklist again. -/
theorem left_round (hs : s ∈ a.found q) (hn : s ∉ (a.worklist q).tail) :
    s ∈ a.found (a.round a.states.toArray q) ∧ s ∉ a.worklist (a.round a.states.toArray q) := by
  cases hw : a.worklist q with
  | nil =>
    rw [round_nil hw]
    exact ⟨hs, by simp [hw]⟩
  | cons r rest =>
    obtain ⟨new, heq, hfound, -, hmem⟩ := round_cons hw
    rw [hw] at hn
    refine ⟨(hfound s).2 (.inr hs), fun hm => ?_⟩
    rw [heq] at hm
    rcases List.mem_append.1 hm with hm | hm
    · exact ((hmem s).1 hm).2.2 hs
    · exact hn hm

/-! ## The whole search -/

/-- The search after `n` rounds. -/
def searchAfter (a : Automaton) (n : Nat) : Search a.states.toArray.size :=
  (a.round a.states.toArray)^[n] (a.searchStart a.states.toArray)

theorem searchAfter_succ (a : Automaton) (n : Nat) :
    a.searchAfter (n + 1) = a.round a.states.toArray (a.searchAfter n) :=
  Function.iterate_succ_apply' _ _ _

theorem explores_searchAfter (a : Automaton) (n : Nat) : a.Explores (a.searchAfter n) := by
  induction n with
  | zero => exact explores_searchStart a
  | succ n ih =>
    rw [searchAfter_succ]
    exact ih.round

theorem not_mem_worklist_later {n m : Nat} (hs : s ∈ (a.worklist (a.searchAfter n)).head?)
    (hm : n < m) : s ∉ a.worklist (a.searchAfter m) := by
  have hleft : s ∈ a.found (a.searchAfter m) ∧ s ∉ a.worklist (a.searchAfter m) := by
    induction m, hm using Nat.le_induction with
    | base =>
      obtain ⟨rest, hw⟩ := List.head?_eq_some_iff.1 hs
      have h := explores_searchAfter a n
      rw [searchAfter_succ]
      refine left_round (h.mem_found s (by simp [hw])) ?_
      have hnodup := h.worklist_nodup
      rw [hw] at hnodup ⊢
      exact (List.nodup_cons.1 hnodup).1
    | succ m _ ih =>
      rw [searchAfter_succ]
      exact left_round ih.1 fun hm => ih.2 (List.mem_of_mem_tail hm)
  exact hleft.2

theorem exists_explore_eq (a : Automaton) {names : Array State} (q : Search names.size) :
    ∃ n ≤ q.remaining, a.explore names q = (a.round names)^[n] q ∧ (a.explore names q).worklist = [] := by
  fun_induction explore a names q with
  | case1 q h => exact ⟨0, Nat.zero_le _, rfl, h⟩
  | case2 q h ih =>
    obtain ⟨n, hn, heq, hw⟩ := ih
    exact ⟨n + 1, Nat.lt_of_le_of_lt hn (a.remaining_round_lt h), heq, hw⟩

theorem remaining_searchStart_le (a : Automaton) :
    (a.searchStart a.states.toArray).remaining ≤ a.states.size := by
  refine Nat.le_trans (remaining_enlist_le _ _) ?_
  simp [Search.remaining, Search.unseen, Search.has, SortedSet.size_toArray]

theorem exists_explore_eq_searchAfter (a : Automaton) : ∃ n ≤ a.states.size,
    a.explore a.states.toArray (a.searchStart a.states.toArray) = a.searchAfter n ∧
      a.worklist (a.searchAfter n) = [] := by
  obtain ⟨n, hn, heq, hw⟩ := exists_explore_eq a (a.searchStart a.states.toArray)
  refine ⟨n, Nat.le_trans hn a.remaining_searchStart_le, heq, ?_⟩
  rw [heq] at hw
  exact congrArg (List.map (name a.states.toArray)) hw

/-- The names of the states that have not been found. -/
theorem mem_map_name_unseen : s ∈ q.unseen.map (name a.states.toArray) ↔ s ∈ a.states ∧ s ∉ a.found q := by
  simp only [Search.unseen, List.mem_map, List.mem_filter, List.mem_finRange, true_and, Bool.not_eq_true']
  constructor
  · rintro ⟨m, hm, rfl⟩
    exact ⟨SortedSet.getElem_toArray_mem m, by simp [name_mem_found, hm]⟩
  · rintro ⟨hs, hn⟩
    obtain ⟨m, rfl⟩ := SortedSet.exists_getElem_toArray hs
    exact ⟨m, by simpa using mt name_mem_found.2 hn, rfl⟩

theorem unreachable_eq_filter (a : Automaton) : a.unreachable =
    a.states.filter (· ∉ a.found (a.explore a.states.toArray (a.searchStart a.states.toArray))) := by
  apply SortedSet.ext_iff_mem.2
  intro s
  rw [unreachable, SortedSet.mem_ofList, SortedSet.mem_filter, decide_eq_true_iff]
  exact mem_map_name_unseen

theorem mem_unreachable_iff : s ∈ a.unreachable ↔ s ∈ a.states ∧ ¬ a.Reachable s := by
  obtain ⟨n, -, heq, hw⟩ := exists_explore_eq_searchAfter a
  rw [unreachable_eq_filter, SortedSet.mem_filter, heq, decide_eq_true_iff,
    (explores_searchAfter a n).mem_found_iff hw]

theorem Reachable.not_mem_unreachable (h : a.Reachable s) : s ∉ a.unreachable :=
  fun hm => (mem_unreachable_iff.1 hm).2 h

/-- **Unreachable states.**  The states that are left are the declared ones to which no path of declared
states leads from the start state; all of them, if that is not declared itself. The worklist is empty
after at most as many rounds as there are states, and that ends the search. There are only declared states
on it, none of them twice, and one that has been left is not put there again. -/
theorem unreachable_exact (a : Automaton) :
    (∀ s, s ∈ a.unreachable ↔ s ∈ a.states ∧ ¬ ∃ path, a.IsPath path s) ∧
    (a.start ∉ a.states → a.unreachable = a.states) ∧
    (∃ n ≤ a.states.size, a.worklist (a.searchAfter n) = [] ∧
      a.explore a.states.toArray (a.searchStart a.states.toArray) = a.searchAfter n ∧
      a.unreachable = a.states.filter (· ∉ a.found (a.searchAfter n))) ∧
    ∀ n, (a.worklist (a.searchAfter n)).Nodup ∧ (∀ s ∈ a.worklist (a.searchAfter n), s ∈ a.states) ∧
      ∀ s ∈ (a.worklist (a.searchAfter n)).head?, ∀ m > n, s ∉ a.worklist (a.searchAfter m) := by
  refine ⟨fun s => ?_, fun hstart => ?_, ?_, fun n => ?_⟩
  · rw [mem_unreachable_iff, reachable_iff_exists_path]
  · apply SortedSet.ext_iff_mem.2
    intro s
    rw [mem_unreachable_iff]
    exact and_iff_left_of_imp fun _ hs => hstart hs.start_mem
  · obtain ⟨n, hn, heq, hw⟩ := exists_explore_eq_searchAfter a
    exact ⟨n, hn, hw, heq, by rw [unreachable_eq_filter, heq]⟩
  · have h := explores_searchAfter a n
    refine ⟨h.worklist_nodup, fun s hs => ?_, fun s hs m hm => not_mem_worklist_later hs hm⟩
    exact (h.reachable s (h.mem_found s hs)).mem_states

/-- A state that leads to itself, to a state that leads back to it, and to one that is not declared. -/
def goingRound : Automaton := .ofParts ["s", "t", "u"] ["a", "b"]
  [⟨"s", "a", "s"⟩, ⟨"s", "b", "t"⟩, ⟨"s", "c", "lost"⟩, ⟨"t", "a", "s"⟩, ⟨"lost", "a", "u"⟩] "s" []

theorem unreachable_exact_goingRound :
    (∀ m > 0, "s" ∉ goingRound.worklist (goingRound.searchAfter m)) ∧
    "lost" ∉ { goingRound with start := "lost" }.states ∧
    { goingRound with start := "lost" }.unreachable = goingRound.states := by
  have hfirst : goingRound.worklist (goingRound.searchAfter 0) = ["s"] :=
    (enlist_of_new (a := goingRound) (by decide) (not_mem_found_empty "s")).1
  have hstart : "lost" ∉ { goingRound with start := "lost" }.states := by decide
  refine ⟨((unreachable_exact goingRound).2.2.2 0).2.2 "s" ?_, hstart,
    (unreachable_exact { goingRound with start := "lost" }).2.1 hstart⟩
  rw [hfirst]
  rfl

/-! ## Runs -/

theorem Run.reachable {s t : State} {w : List Symbol} {ss : List State} (h : a.Run s w t ss)
    (hs : a.Reachable s) (hss : ∀ r ∈ ss ++ [t], r ∈ a.states) : a.Reachable t := by
  induction h with
  | nil s => exact hs
  | @cons s s' t x w ss hx hw ih =>
    have hs' : s' ∈ a.states := by
      cases hw with
      | nil => exact hss _ (by simp)
      | cons => exact hss _ (by simp)
    exact ih (.step hs (mem_successors.2 ⟨x, hx⟩) hs') fun r hr => hss r (.tail _ hr)

theorem Run.concat {s t u : State} {x : Symbol} {w : List Symbol} {ss : List State}
    (h : a.Run s w t ss) (hx : a.step? t x = some u) : a.Run s (w ++ [x]) u (ss ++ [t]) := by
  induction h with
  | nil s => exact .cons hx (.nil u)
  | cons hy _ ih => exact .cons hy (ih hx)

theorem Reachable.exists_run {s : State} (h : a.Reachable s) : ∃ w ss, a.Run a.start w s ss := by
  induction h with
  | start => exact ⟨[], [], .nil _⟩
  | step _ hst _ ih =>
    obtain ⟨w, ss, hr⟩ := ih
    obtain ⟨x, hx⟩ := mem_successors.1 hst
    exact ⟨_, _, hr.concat hx⟩

end Automaton

end AutomatonGrammar
