import AutomatonGrammar.Proofs.Automaton.Declared
import AutomatonGrammar.Proofs.Sorted.First

/-!
# The malformation that is reported

Of the names that an automaton uses without declaring them one is reported. `FirstMalformation a m` says
that it is `m`, going through the automaton in a fixed order: states, start state, accepting states, and
then the rows in ascending order, the source of each before its transitions, and of each transition the
symbol before the destination. All that comes before `m` in this order is declared.

    a.validate = .error m ↔ a.FirstMalformation m                        (validate_error_iff)
-/

namespace AutomatonGrammar

namespace Automaton

/-- All that is looked at before the rows is declared. -/
structure DeclaredOutside (a : Automaton) : Prop where
  nonempty : a.states.isEmpty = false
  start_mem : a.start ∈ a.states
  accepting_mem : ∀ s ∈ a.accepting, s ∈ a.states

/-- All that is looked at before the row of `s` is declared. -/
structure DeclaredBeforeRow (a : Automaton) (s : State) : Prop extends a.DeclaredOutside where
  source_mem : ∀ r row, SortedMap.get? a.transitions r = some row → r < s → r ∈ a.states
  symbol_mem : ∀ r y u, a.step? r y = some u → r < s → y ∈ a.alphabet
  target_mem : ∀ r y u, a.step? r y = some u → r < s → u ∈ a.states

/-- All that is looked at before the transition from `s` on `x` is declared. -/
structure DeclaredBefore (a : Automaton) (s : State) (x : Symbol) : Prop
    extends a.DeclaredBeforeRow s where
  own_source_mem : s ∈ a.states
  own_symbol_mem : ∀ y u, a.step? s y = some u → y < x → y ∈ a.alphabet
  own_target_mem : ∀ y u, a.step? s y = some u → y < x → u ∈ a.states

/-- The first name that is used without being declared, or else that there is no state. -/
inductive FirstMalformation (a : Automaton) : Malformation → Prop
  | noStates (h : a.states.isEmpty = true) : FirstMalformation a .noStates
  | unknownStart (hne : a.states.isEmpty = false) (h : a.start ∉ a.states) :
      FirstMalformation a (.unknownStart a.start)
  | unknownAccepting {s : State} (hne : a.states.isEmpty = false) (hstart : a.start ∈ a.states)
      (hs : s ∈ a.accepting) (h : s ∉ a.states) (hleast : ∀ r ∈ a.accepting, r < s → r ∈ a.states) :
      FirstMalformation a (.unknownAccepting s)
  | unknownSource {s : State} {row : Row} (hbefore : a.DeclaredBeforeRow s)
      (hrow : SortedMap.get? a.transitions s = some row) (h : s ∉ a.states) :
      FirstMalformation a (.unknownSource s)
  | unknownSymbol {s t : State} {x : Symbol} (hbefore : a.DeclaredBefore s x)
      (hx : a.step? s x = some t) (h : x ∉ a.alphabet) : FirstMalformation a (.unknownSymbol s x)
  | unknownTarget {s t : State} {x : Symbol} (hbefore : a.DeclaredBefore s x)
      (hx : a.step? s x = some t) (hsymbol : x ∈ a.alphabet) (h : t ∉ a.states) :
      FirstMalformation a (.unknownTarget s x t)

variable {a : Automaton} {m : Malformation}

theorem validate_eq_error_iff : a.validate = .error m ↔ a.malformations.head? = some m := by
  unfold validate
  split
  · next h => simp [h]
  · next h => simp [h]

/-! ## One row -/

theorem step?_of_get? {s : State} {row : Row} (h : SortedMap.get? a.transitions s = some row)
    (x : Symbol) : a.step? s x = row.get? x := by
  show (Transitions.row a.transitions s).get? x = _
  rw [Transitions.row, h]
  rfl

theorem head?_entryMalformations_iff {s t : State} {x : Symbol} :
    (a.entryMalformations s x t).head? = some m ↔
      x ∉ a.alphabet ∧ m = .unknownSymbol s x ∨
      x ∈ a.alphabet ∧ t ∉ a.states ∧ m = .unknownTarget s x t := by
  unfold entryMalformations
  by_cases hx : x ∈ a.alphabet <;> by_cases ht : t ∈ a.states <;> simp [hx, ht, eq_comm]

theorem entryMalformations_eq_nil_iff {s t : State} {x : Symbol} :
    a.entryMalformations s x t = [] ↔ x ∈ a.alphabet ∧ t ∈ a.states := by
  simp [entryMalformations]

/-- What is reported of a row, if anything: its source, or of its first bad transition the symbol or the
destination. -/
theorem head?_rowMalformations_iff {s : State} {row : Row} :
    (a.rowMalformations s row).head? = some m ↔
      s ∉ a.states ∧ m = .unknownSource s ∨
      s ∈ a.states ∧ ∃ x t, row.get? x = some t ∧
        (∀ y u, row.get? y = some u → y < x → y ∈ a.alphabet ∧ u ∈ a.states) ∧
        (a.entryMalformations s x t).head? = some m := by
  unfold rowMalformations
  by_cases hs : s ∈ a.states
  · simp only [hs, ↓reduceIte, List.nil_append, not_true_eq_false, false_and, false_or, true_and,
      SortedMap.head?_flatMap_iff, entryMalformations_eq_nil_iff]
  · simp only [hs, ↓reduceIte, not_false_eq_true, true_and, false_and, or_false, List.cons_append,
      List.head?_cons, Option.some.injEq]
    exact eq_comm

/-! ## All rows -/

theorem DeclaredOutside.beforeRow (h : a.DeclaredOutside) {s : State}
    (hrows : ∀ r row, SortedMap.get? a.transitions r = some row → r < s →
      a.rowMalformations r row = []) : a.DeclaredBeforeRow s := by
  have hrow : ∀ r row, SortedMap.get? a.transitions r = some row → r < s →
      r ∈ a.states ∧ ∀ y u, (y, u) ∈ row.toList → y ∈ a.alphabet ∧ u ∈ a.states :=
    fun r row hr hlt => rowMalformations_eq_nil_iff.1 (hrows r row hr hlt)
  refine ⟨h, fun r row hr hlt => (hrow r row hr hlt).1, fun r y u hy hlt => ?_, fun r y u hy hlt => ?_⟩
  · obtain ⟨row, hr, hyu⟩ := step?_eq_some_iff.1 hy
    exact ((hrow r row (SortedMap.mem_toList_iff.1 hr) hlt).2 y u hyu).1
  · obtain ⟨row, hr, hyu⟩ := step?_eq_some_iff.1 hy
    exact ((hrow r row (SortedMap.mem_toList_iff.1 hr) hlt).2 y u hyu).2

theorem DeclaredBeforeRow.rowMalformations_eq_nil {s r : State} {row : Row}
    (h : a.DeclaredBeforeRow s) (hr : SortedMap.get? a.transitions r = some row) (hlt : r < s) :
    a.rowMalformations r row = [] := by
  refine rowMalformations_eq_nil_iff.2 ⟨h.source_mem r row hr hlt, fun y u hyu => ?_⟩
  have hy : a.step? r y = some u := step?_eq_some_iff.2 ⟨row, SortedMap.mem_toList_iff.2 hr, hyu⟩
  exact ⟨h.symbol_mem r y u hy hlt, h.target_mem r y u hy hlt⟩

/-- What is reported of the whole: a missing state, the start state, an accepting state, or what is
reported of some row. -/
theorem head?_malformations_iff : a.malformations.head? = some m ↔
    a.states.isEmpty = true ∧ m = .noStates ∨
    a.states.isEmpty = false ∧ a.start ∉ a.states ∧ m = .unknownStart a.start ∨
    a.states.isEmpty = false ∧ a.start ∈ a.states ∧
      (∃ s, (a.accepting.toList.filter (· ∉ a.states)).head? = some s ∧ m = .unknownAccepting s) ∨
    a.DeclaredOutside ∧
      (a.transitions.toList.flatMap fun (s, row) => a.rowMalformations s row).head? = some m := by
  unfold malformations
  cases hne : a.states.isEmpty with
  | true =>
    have hout : ¬a.DeclaredOutside := fun h => by simp [h.nonempty] at hne
    simp [hout, eq_comm]
  | false =>
    by_cases hstart : a.start ∈ a.states
    · cases hacc : a.accepting.toList.filter (· ∉ a.states) with
      | nil =>
        have hout : a.DeclaredOutside := by
          refine ⟨hne, hstart, fun s hs => ?_⟩
          simpa using List.filter_eq_nil_iff.1 hacc s hs
        simp [hstart, hout]
      | cons s rest =>
        have hout : ¬a.DeclaredOutside := by
          intro h
          have hs := List.mem_filter.1 (hacc ▸ List.mem_cons_self : s ∈ _)
          exact of_decide_eq_true hs.2 (h.accepting_mem s hs.1)
        simp [hstart, hout, eq_comm]
    · have hout : ¬a.DeclaredOutside := fun h => hstart h.start_mem
      simp [hstart, hout, eq_comm]

/-- What is reported of the transitions from `s`, where all that comes before them is declared. -/
theorem firstMalformation_of_entry {s t : State} {x : Symbol} (hbefore : a.DeclaredBefore s x)
    (hx : a.step? s x = some t) (hm : (a.entryMalformations s x t).head? = some m) :
    a.FirstMalformation m := by
  rcases head?_entryMalformations_iff.1 hm with ⟨h, rfl⟩ | ⟨hsymbol, h, rfl⟩
  · exact .unknownSymbol hbefore hx h
  · exact .unknownTarget hbefore hx hsymbol h

/-- What is reported of the row of `s`, where all that comes before it is declared. -/
theorem firstMalformation_of_row {s : State} {row : Row} (hbefore : a.DeclaredBeforeRow s)
    (hrow : SortedMap.get? a.transitions s = some row)
    (hm : (a.rowMalformations s row).head? = some m) : a.FirstMalformation m := by
  rcases head?_rowMalformations_iff.1 hm with ⟨h, rfl⟩ | ⟨hs, x, t, hx, hentries, hm⟩
  · exact .unknownSource hbefore hrow h
  · rw [← step?_of_get? hrow] at hx
    simp only [← step?_of_get? hrow] at hentries
    refine firstMalformation_of_entry ⟨hbefore, hs, fun y u hy hlt => ?_, fun y u hy hlt => ?_⟩ hx hm
    · exact (hentries y u hy hlt).1
    · exact (hentries y u hy hlt).2

theorem DeclaredBeforeRow.head?_malformations {s : State} {row : Row} (h : a.DeclaredBeforeRow s)
    (hrow : SortedMap.get? a.transitions s = some row)
    (hm : (a.rowMalformations s row).head? = some m) : a.malformations.head? = some m := by
  refine head?_malformations_iff.2 (.inr (.inr (.inr ⟨h.toDeclaredOutside, ?_⟩)))
  exact SortedMap.head?_flatMap_iff.2
    ⟨s, row, hrow, fun _ _ hr hlt => h.rowMalformations_eq_nil hr hlt, hm⟩

theorem DeclaredBefore.head?_malformations {s t : State} {x : Symbol} (h : a.DeclaredBefore s x)
    (hx : a.step? s x = some t) (hm : (a.entryMalformations s x t).head? = some m) :
    a.malformations.head? = some m := by
  obtain ⟨row, hrow, hentry⟩ := step?_eq_some_iff.1 hx
  have hrow := SortedMap.mem_toList_iff.1 hrow
  refine h.toDeclaredBeforeRow.head?_malformations hrow (head?_rowMalformations_iff.2 (.inr ?_))
  refine ⟨h.own_source_mem, x, t, SortedMap.mem_toList_iff.1 hentry, fun y u hy hlt => ?_, hm⟩
  rw [← step?_of_get? hrow] at hy
  exact ⟨h.own_symbol_mem y u hy hlt, h.own_target_mem y u hy hlt⟩

theorem validate_error_iff : a.validate = .error m ↔ a.FirstMalformation m := by
  rw [validate_eq_error_iff]
  constructor
  · rw [head?_malformations_iff, SortedMap.head?_flatMap_iff]
    rintro (⟨h, rfl⟩ | ⟨hne, h, rfl⟩ | ⟨hne, hstart, s, hs, rfl⟩ | ⟨hout, s, row, hrow, hrows, hm⟩)
    · exact .noStates h
    · exact .unknownStart hne h
    · obtain ⟨hacc, h, hleast⟩ := SortedSet.head?_filter_iff.1 hs
      refine .unknownAccepting hne hstart hacc (of_decide_eq_true h) fun r hr hlt => ?_
      simpa using hleast r hr hlt
    · exact firstMalformation_of_row (hout.beforeRow hrows) hrow hm
  · intro h
    cases h with
    | noStates h => exact head?_malformations_iff.2 (.inl ⟨h, rfl⟩)
    | unknownStart hne h => exact head?_malformations_iff.2 (.inr (.inl ⟨hne, h, rfl⟩))
    | unknownAccepting hne hstart hs h hleast =>
      refine head?_malformations_iff.2 (.inr (.inr (.inl ⟨hne, hstart, _, ?_, rfl⟩)))
      refine SortedSet.head?_filter_iff.2 ⟨hs, decide_eq_true h, fun r hr hlt => ?_⟩
      simpa using hleast r hr hlt
    | unknownSource hbefore hrow h =>
      exact hbefore.head?_malformations hrow (head?_rowMalformations_iff.2 (.inl ⟨h, rfl⟩))
    | unknownSymbol hbefore hx h =>
      exact hbefore.head?_malformations hx (head?_entryMalformations_iff.2 (.inl ⟨h, rfl⟩))
    | unknownTarget hbefore hx hsymbol h =>
      exact hbefore.head?_malformations hx (head?_entryMalformations_iff.2 (.inr ⟨hsymbol, h, rfl⟩))

/-- **Validation is exact.**  An automaton passes exactly if it has a state and declares every name it
uses, sources of empty rows among them. Otherwise the first that is missing is reported. -/
theorem validate_exact (a : Automaton) : (a.validate = .ok () ↔ a.Declared) ∧
    ∀ m, a.validate = .error m ↔ a.FirstMalformation m :=
  ⟨validate_ok_iff, fun _ => validate_error_iff⟩

/-- Of several missing names the one that is looked at first is reported: here a source, which comes
before all that its row and later rows use. -/
example : (ofParts ["p", "s"] ["a"] [⟨"q", "b", "r"⟩, ⟨"p", "a", "s"⟩, ⟨"s", "c", "s"⟩] "p" []).validate =
    .error (.unknownSource "q") :=
  validate_eq_error_iff.2 (by decide)

end Automaton

end AutomatonGrammar
