import AutomatonGrammar.Proofs.Automaton.Transitions

/-!
# Automata made of loose parts

Of the parts that an automaton is made of, only the names count, and for each state and symbol the last
edge that leaves the one on the other (`Edge.LastIn`). Two lots of parts make one automaton exactly if they
agree on that (`Parts.automaton_eq_iff`), so edges that are not in each other's way may change places
(`Edge.Reordered`).

An automaton can be taken to pieces and put together again, but for its empty rows, which have no edges
(`Automaton.edges_views`).

    (ofEdges es).get? e.source e.symbol = some e.target ↔ e.LastIn es          (get?_ofEdges_eq_some_iff)
    es.Pairwise Edge.Apart → es.Perm fs → Edge.Reordered es fs                 (Edge.Reordered.of_perm)
    ofEdges t.edges = t ↔ t.NoEmptyRow                                         (ofEdges_edges_eq_iff)
-/

namespace AutomatonGrammar

/-! ## The last edge that leaves a state on a symbol -/

namespace Edge

/-- The edges leave different states, or one state on different symbols. -/
def Apart (e f : Edge) : Prop := ¬(e.source = f.source ∧ e.symbol = f.symbol)

instance (e f : Edge) : Decidable (e.Apart f) := inferInstanceAs (Decidable (¬_))

/-- `e` is among `es`, and no edge behind it leaves the same state on the same symbol. -/
def LastIn (e : Edge) (es : List Edge) : Prop :=
  ∃ front back, es = front ++ e :: back ∧ ∀ f ∈ back, e.Apart f

/-- The same edges in another order: any number of times, two neighbours that are apart have changed
places. -/
inductive Reordered : List Edge → List Edge → Prop
  | nil : Reordered [] []
  | cons (e : Edge) {es fs : List Edge} : Reordered es fs → Reordered (e :: es) (e :: fs)
  | swap {e f : Edge} (es : List Edge) : e.Apart f → Reordered (e :: f :: es) (f :: e :: es)
  | trans {es fs gs : List Edge} : Reordered es fs → Reordered fs gs → Reordered es gs

variable {e f : Edge} {es fs : List Edge}

theorem Apart.symm (h : e.Apart f) : f.Apart e := fun ⟨hs, hx⟩ => h ⟨hs.symm, hx.symm⟩

theorem leaves_eq_false_iff : leaves e.source e.symbol f = false ↔ e.Apart f := by
  rw [Bool.eq_false_iff, ne_eq, leaves_iff]
  exact not_congr (and_congr eq_comm eq_comm)

theorem lastIn_cons_iff : e.LastIn (f :: es) ↔ (e = f ∧ ∀ g ∈ es, e.Apart g) ∨ e.LastIn es := by
  constructor
  · rintro ⟨front, back, heq, hback⟩
    cases front with
    | nil =>
      cases heq
      exact .inl ⟨rfl, hback⟩
    | cons g front =>
      cases heq
      exact .inr ⟨front, back, rfl, hback⟩
  · rintro (⟨rfl, hback⟩ | ⟨front, back, rfl, hback⟩)
    · exact ⟨[], es, rfl, hback⟩
    · exact ⟨f :: front, back, rfl, hback⟩

/-- Two neighbours that are apart may change places. -/
theorem LastIn.swap {g : Edge} (hapart : f.Apart g) (h : e.LastIn (f :: g :: es)) :
    e.LastIn (g :: f :: es) := by
  simp only [lastIn_cons_iff, List.forall_mem_cons] at h ⊢
  rcases h with ⟨rfl, -, hback⟩ | ⟨rfl, hback⟩ | hlast
  · exact .inr (.inl ⟨rfl, hback⟩)
  · exact .inl ⟨rfl, hapart.symm, hback⟩
  · exact .inr (.inr hlast)

theorem find?_reverse_eq_some_iff :
    es.reverse.find? (leaves e.source e.symbol) = some e ↔ e.LastIn es := by
  have hself : leaves e.source e.symbol e = true := leaves_iff.2 ⟨rfl, rfl⟩
  simp only [List.find?_eq_some_iff_append, hself, true_and, Bool.not_eq_true', leaves_eq_false_iff]
  constructor
  · rintro ⟨back, front, heq, hback⟩
    refine ⟨front.reverse, back.reverse, ?_, fun f hf => hback f (List.mem_reverse.1 hf)⟩
    rw [← List.reverse_reverse es, heq]
    simp
  · rintro ⟨front, back, rfl, hback⟩
    exact ⟨back.reverse, front.reverse, by simp, fun f hf => hback f (List.mem_reverse.1 hf)⟩

namespace Reordered

theorem perm (h : Reordered es fs) : es.Perm fs := by
  induction h with
  | nil => exact .nil
  | cons e _ ih => exact ih.cons e
  | swap es _ => exact .swap _ _ es
  | trans _ _ ih₁ ih₂ => exact ih₁.trans ih₂

/-- Edges that are all apart may be reordered in any way. -/
theorem of_perm (hapart : es.Pairwise Apart) (h : es.Perm fs) : Reordered es fs := by
  induction h with
  | nil => exact .nil
  | cons e _ ih => exact .cons e (ih (List.pairwise_cons.1 hapart).2)
  | swap e f es => exact .swap es ((List.pairwise_cons.1 hapart).1 _ (.head _))
  | trans h₁ _ ih₁ ih₂ =>
    exact .trans (ih₁ hapart) (ih₂ ((h₁.pairwise_iff fun h => h.symm).1 hapart))

/-- Which edge is the last one that leaves a state on a symbol does not change. -/
theorem lastIn_iff (h : Reordered es fs) : e.LastIn es ↔ e.LastIn fs := by
  induction h with
  | nil => rfl
  | cons f h ih =>
    rw [lastIn_cons_iff, lastIn_cons_iff, ih]
    simp only [h.perm.mem_iff]
  | swap es h => exact ⟨LastIn.swap h, LastIn.swap h.symm⟩
  | trans _ _ ih₁ ih₂ => exact ih₁.trans ih₂

end Reordered

end Edge

namespace Transitions

/-- Of the edges that leave a state on a symbol the last one counts. -/
theorem get?_ofEdges_eq_some_iff {es : List Edge} {e : Edge} :
    (ofEdges es).get? e.source e.symbol = some e.target ↔ e.LastIn es := by
  rw [get?_ofEdges, ← Edge.find?_reverse_eq_some_iff, Option.map_eq_some_iff]
  constructor
  · rintro ⟨f, hf, htarget⟩
    obtain ⟨hs, hx⟩ := Edge.leaves_iff.1 (List.find?_some hf)
    rwa [show f = e from by cases f; cases hs; cases hx; cases htarget; rfl] at hf
  · exact fun h => ⟨e, h, rfl⟩

theorem get?_ofEdges_eq_none_iff {es : List Edge} {s : State} {x : Symbol} :
    (ofEdges es).get? s x = none ↔ ∀ e ∈ es, ¬(e.source = s ∧ e.symbol = x) := by
  simp only [get?_ofEdges, Option.map_eq_none_iff, List.find?_eq_none, List.mem_reverse,
    Edge.leaves_iff]

theorem ofEdges_eq_iff {es fs : List Edge} :
    ofEdges es = ofEdges fs ↔ ∀ e : Edge, e.LastIn es ↔ e.LastIn fs := by
  constructor
  · intro h e
    rw [← get?_ofEdges_eq_some_iff, h, get?_ofEdges_eq_some_iff]
  · intro h
    refine ext_of_noEmptyRow (noEmptyRow_ofEdges es) (noEmptyRow_ofEdges fs) fun s x => ?_
    apply Option.ext
    intro t
    rw [get?_ofEdges_eq_some_iff (e := ⟨s, x, t⟩), h, ← get?_ofEdges_eq_some_iff]

theorem ofEdges_edges_eq_iff {t : Transitions} : ofEdges t.edges = t ↔ t.NoEmptyRow :=
  ⟨fun h => h ▸ noEmptyRow_ofEdges t.edges, ofEdges_edges⟩

end Transitions

/-! ## Parts -/

/-- What an automaton is made of: names and edges in any order and any number. -/
structure Parts where
  states : List State
  alphabet : List Symbol
  edges : List Edge
  start : State
  accepting : List State

namespace Parts

def automaton (p : Parts) : Automaton :=
  .ofParts p.states p.alphabet p.edges p.start p.accepting

/-- The parts have the same names, in whatever order and however often they stand there. -/
structure SameNames (p q : Parts) : Prop where
  states : ∀ s, s ∈ p.states ↔ s ∈ q.states
  alphabet : ∀ x, x ∈ p.alphabet ↔ x ∈ q.alphabet
  start : p.start = q.start
  accepting : ∀ s, s ∈ p.accepting ↔ s ∈ q.accepting

variable {p q : Parts}

theorem automaton_eq_iff_sameNames :
    p.automaton = q.automaton ↔ p.SameNames q ∧ ∀ e : Edge, e.LastIn p.edges ↔ e.LastIn q.edges := by
  rw [← Transitions.ofEdges_eq_iff]
  constructor
  · intro h
    obtain ⟨hstates, halphabet, hedges, hstart, haccepting⟩ := Automaton.mk.inj h
    exact ⟨⟨SortedSet.ofList_eq_iff.1 hstates, SortedSet.ofList_eq_iff.1 halphabet, hstart,
      SortedSet.ofList_eq_iff.1 haccepting⟩, hedges⟩
  · rintro ⟨h, hedges⟩
    rw [automaton, automaton, Automaton.ofParts, Automaton.ofParts, SortedSet.ofList_eq_iff.2 h.states,
      SortedSet.ofList_eq_iff.2 h.alphabet, hedges, h.start, SortedSet.ofList_eq_iff.2 h.accepting]

/-- **What counts of the parts.**  Two lots of parts make one automaton exactly if they have the same names
and, for every state and symbol, the last edge that leaves the one on the other has the same destination in
both, or there is none in either.  No row of the automaton is empty, and that destination is where the
symbol leads from the state.  So names may be repeated and put in any order, and edges may be reordered that
are apart. -/
theorem automaton_eq_iff (p q : Parts) :
    (p.automaton = q.automaton ↔
      p.SameNames q ∧ ∀ e : Edge, e.LastIn p.edges ↔ e.LastIn q.edges) ∧
    p.automaton.transitions.NoEmptyRow ∧
    (∀ s x t, p.automaton.step? s x = some t ↔ Edge.LastIn ⟨s, x, t⟩ p.edges) ∧
    (∀ s x, p.automaton.step? s x = none ↔ ∀ e ∈ p.edges, ¬(e.source = s ∧ e.symbol = x)) ∧
    (p.SameNames q → Edge.Reordered p.edges q.edges → p.automaton = q.automaton) := by
  refine ⟨automaton_eq_iff_sameNames, Transitions.noEmptyRow_ofEdges p.edges, fun s x t => ?_,
    fun s x => Transitions.get?_ofEdges_eq_none_iff, fun hnames h => ?_⟩
  · exact Transitions.get?_ofEdges_eq_some_iff (e := ⟨s, x, t⟩)
  · exact automaton_eq_iff_sameNames.2 ⟨hnames, fun _ => h.lastIn_iff⟩

/-- The first edge is overridden by the last but one, and the source of the second is not declared. -/
def untidy : Parts where
  states := ["s", "", "s"]
  alphabet := ["ε", "a", "ε"]
  edges := [⟨"s", "a", "s"⟩, ⟨"t", "b", "u"⟩, ⟨"s", "a", ""⟩, ⟨"", "ε", "s"⟩]
  start := "s"
  accepting := ["", ""]

/-- The same names, each once, and the same edges, of which the first has to stay in front. -/
def tidy : Parts where
  states := ["", "s"]
  alphabet := ["a", "ε"]
  edges := [⟨"s", "a", "s"⟩, ⟨"", "ε", "s"⟩, ⟨"s", "a", ""⟩, ⟨"t", "b", "u"⟩]
  start := "s"
  accepting := [""]

theorem automaton_eq_iff_untidy :
    untidy.SameNames tidy ∧ Edge.Reordered untidy.edges tidy.edges ∧
    untidy.automaton = tidy.automaton ∧ untidy.automaton.step? "s" "a" = some "" := by
  have hnames : untidy.SameNames tidy := by
    constructor <;> simp [untidy, tidy, or_comm]
  have hedges : Edge.Reordered untidy.edges tidy.edges :=
    .cons _ (.of_perm (by decide) (by decide))
  obtain ⟨-, -, hlast, -, hreorder⟩ := automaton_eq_iff untidy tidy
  refine ⟨hnames, hedges, hreorder hnames hedges, (hlast "s" "a" "").2 ?_⟩
  exact ⟨[⟨"s", "a", "s"⟩, ⟨"t", "b", "u"⟩], [⟨"", "ε", "s"⟩], rfl, by decide⟩

end Parts

/-! ## Automata taken to pieces -/

namespace Automaton

/-- The parts that make `a` again, if it has no empty row. -/
def parts (a : Automaton) : Parts where
  states := a.states.toList
  alphabet := a.alphabet.toList
  edges := a.edges
  start := a.start
  accepting := a.accepting.toList

theorem automaton_parts (a : Automaton) :
    a.parts.automaton = { a with transitions := .ofEdges a.edges } := by
  simp only [Parts.automaton, parts, ofParts, SortedSet.ofList_toList]

/-- **The views of the transitions agree.**  The edges are strictly ascending by source, then symbol; they
are what the look-ups find, and as many as are counted.  The automaton made of the parts of `a` answers every
look-up as `a` does, and is `a` exactly if `a` has no empty row. -/
theorem edges_views (a : Automaton) :
    a.edges.Pairwise Edge.Before ∧
    (∀ s x t, ⟨s, x, t⟩ ∈ a.edges ↔ a.step? s x = some t) ∧
    a.edges.length = a.edgeCount ∧
    (∀ s x, a.parts.automaton.step? s x = a.step? s x) ∧
    (a.parts.automaton = a ↔ a.transitions.NoEmptyRow) := by
  refine ⟨a.transitions.edges_pairwise, fun s x t => Transitions.mem_edges (e := ⟨s, x, t⟩),
    a.transitions.length_edges, fun s x => ?_, ?_⟩
  · rw [automaton_parts]
    exact Transitions.get?_ofEdges_edges a.transitions s x
  · rw [automaton_parts, ← Transitions.ofEdges_edges_eq_iff]
    constructor
    · exact congrArg transitions
    · intro h
      rw [edges, h]

/-- A state with an empty row is left without one. -/
example : let a : Automaton := ⟨.ofList ["s"], ∅, .ofList [("s", ∅)], "s", ∅⟩
    a.edges = [] ∧ a.parts.automaton = { a with transitions := ∅ } ∧ a.parts.automaton ≠ a := by
  decide

end Automaton

end AutomatonGrammar
