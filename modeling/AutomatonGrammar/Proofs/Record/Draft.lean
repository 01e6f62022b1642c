import AutomatonGrammar.Proofs.Record.RoundTrip
import AutomatonGrammar.Proofs.Record.Value

/-!
# What drafts know

Reading the value of a field fills in that field as it is in some automaton whose field the value shows
(`Draft.reads`). A draft in which every field is known as it is in `a` is complete, and `a` is its
automaton (`Draft.complete_eq_ok_iff`); what the values of its fields show has been listed
(`exists_listing`).
-/

namespace AutomatonGrammar.Record

open Json

/-! ## Values of fields -/

/-- The value of a field as it is in an automaton. -/
def Shows (a : Automaton) : Field → Value → Prop
  | .states, v => IsSet v a.states
  | .alphabet, v => IsSet v a.alphabet
  | .transitions, v => IsMap (IsMap IsName) v a.transitions
  | .start, v => IsName v a.start
  | .accepting, v => IsSet v a.accepting

theorem Reads.fill {α : Type} {read : List Char → Result α} {IsItem : Value → α → Prop}
    (hread : Reads read IsItem) (set : α → Draft) {component : Automaton → α}
    (hcomponent : ∀ x, ∃ a, component a = x) :
    Reads (fun text => (read text).map set) fun v d =>
      ∃ a, IsItem v (component a) ∧ set (component a) = d := by
  intro text d rest
  refine (hread.map set).trans ?_
  constructor
  · rintro ⟨b, v, t, hb, hv, ⟨x, hx, rfl⟩, rfl⟩
    obtain ⟨a, rfl⟩ := hcomponent x
    exact ⟨b, v, t, hb, hv, ⟨a, hx, rfl⟩, rfl⟩
  · rintro ⟨b, v, t, hb, hv, ⟨a, ha, rfl⟩, rfl⟩
    exact ⟨b, v, t, hb, hv, ⟨component a, ha, rfl⟩, rfl⟩

theorem Draft.reads (d : Draft) (f : Field) :
    Reads (d.read f) fun v d' => ∃ a, Shows a f v ∧ d.fill a f = d' := by
  cases f with
  | states => exact reads_names.fill _ fun s => ⟨{ Automaton.empty with states := s }, rfl⟩
  | alphabet => exact reads_names.fill _ fun s => ⟨{ Automaton.empty with alphabet := s }, rfl⟩
  | transitions =>
    exact reads_transitions.fill _ fun t => ⟨{ Automaton.empty with transitions := t }, rfl⟩
  | start => exact reads_name.fill _ fun s => ⟨{ Automaton.empty with start := s }, rfl⟩
  | accepting => exact reads_names.fill _ fun s => ⟨{ Automaton.empty with accepting := s }, rfl⟩

/-! ## What a draft knows -/

/-- A field is known as it is in an automaton. -/
def Draft.Knows (d : Draft) (a : Automaton) : Field → Prop
  | .states => d.states = some a.states
  | .alphabet => d.alphabet = some a.alphabet
  | .transitions => d.transitions = some a.transitions
  | .start => d.start = some a.start
  | .accepting => d.accepting = some a.accepting

section Drafts

variable {a a₀ : Automaton} {d : Draft} {f g : Field}

theorem Draft.Knows.has (h : d.Knows a f) : d.has f = true := by
  cases f <;> exact Option.isSome_iff_exists.2 ⟨_, h⟩

theorem Draft.complete_eq_ok_iff : d.complete = .ok a ↔ ∀ f, d.Knows a f := by
  constructor
  · intro h f
    unfold Draft.complete at h
    split at h <;> cases h
    cases f <;> rfl
  · intro h
    obtain ⟨states, alphabet, transitions, start, accepting⟩ := d
    obtain rfl : states = some a.states := h .states
    obtain rfl : alphabet = some a.alphabet := h .alphabet
    obtain rfl : transitions = some a.transitions := h .transitions
    obtain rfl : start = some a.start := h .start
    obtain rfl : accepting = some a.accepting := h .accepting
    rfl

theorem Draft.knows_fill (d : Draft) (a : Automaton) (f : Field) : (d.fill a f).Knows a f := by
  cases f <;> rfl

theorem Draft.knows_fill_of_ne (h : g ≠ f) : (d.fill a₀ f).Knows a g ↔ d.Knows a g := by
  cases f <;> cases g <;> first | exact .rfl | exact absurd rfl h

/-- What has been filled in is what is known in the end. -/
theorem Shows.of_knows {v : Value} (h : Shows a₀ f v) (hd : (d.fill a₀ f).Knows a f) :
    Shows a f v := by
  cases f <;> simp only [Shows, Draft.Knows, Draft.fill, Option.some.injEq] at h hd ⊢ <;> rwa [← hd]

end Drafts

/-! ## Listings and automata -/

theorem isMap_map {α β : Type} {IsItem : Value → α → Prop} {f : α → β} {v : Value}
    {m : SortedMap String β} :
    IsMap (fun w y => ∃ x, IsItem w x ∧ f x = y) v m ↔
      ∃ es, IsEntries IsItem v es ∧ SortedMap.ofList (es.map fun e => (e.1, f e.2)) = m := by
  constructor
  · rintro ⟨es, ⟨ms, rfl, hms⟩, rfl⟩
    suffices h : ∃ es', List.Forall₂ (IsEntry IsItem) ms es' ∧
        es'.map (fun e => (e.1, f e.2)) = es by
      obtain ⟨es', hes, rfl⟩ := h
      exact ⟨es', ⟨ms, rfl, hes⟩, rfl⟩
    induction hms with
    | nil => exact ⟨[], .nil, rfl⟩
    | @cons m e ms es he _ ih =>
      obtain ⟨hkey, x, hx, hfx⟩ := he
      obtain ⟨es', hes, rfl⟩ := ih
      exact ⟨(e.1, x) :: es', .cons ⟨hkey, hx⟩ hes, by rw [List.map_cons, hfx]⟩
  · rintro ⟨es, ⟨ms, rfl, hms⟩, rfl⟩
    refine ⟨_, ⟨ms, rfl, List.forall₂_map_right_iff.2 ?_⟩, rfl⟩
    exact hms.imp fun m e he => ⟨he.1, e.2, he.2, rfl⟩

theorem Listing.Says.shows {l : Listing} {f : Field} {v : Value} (h : l.Says f v) :
    Shows l.automaton f v := by
  cases f with
  | transitions => exact isMap_map.2 ⟨_, h, rfl⟩
  | start => exact h
  | _ => exact ⟨_, h, rfl⟩

/-- What the fields show has been listed. -/
theorem exists_listing {a : Automaton} {vals : Field → Value} (h : ∀ f, Shows a f (vals f)) :
    ∃ l : Listing, l.automaton = a ∧ ∀ f, l.Says f (vals f) := by
  obtain ⟨states, hs, hstates⟩ := h .states
  obtain ⟨alphabet, hx, halphabet⟩ := h .alphabet
  obtain ⟨transitions, ht, htransitions⟩ := isMap_map.1 (h .transitions)
  obtain ⟨accepting, hq, haccepting⟩ := h .accepting
  refine ⟨⟨states, alphabet, transitions, a.start, accepting⟩, ?_, fun f => ?_⟩
  · rw [Listing.automaton, hstates, halphabet, htransitions, haccepting]
  · cases f with
    | states => exact hs
    | alphabet => exact hx
    | transitions => exact ht
    | start => exact h .start
    | accepting => exact hq

end AutomatonGrammar.Record
