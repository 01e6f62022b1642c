import AutomatonGrammar.Proofs.Json.Grammar
import AutomatonGrammar.Proofs.Sorted.Rebuild
import AutomatonGrammar.Record.Field
import Mathlib.Data.List.Forall2

/-!
# What a record lists

Which JSON values are records, said without a reader. A `Listing` has the contents of a record in the
order in which they are written and as often. `Lists v l` says that the value `v` is a record of `l`: an
object with one member for each field and any others besides, or a list of the five values. There is one
automaton that a listing gives (`Listing.gives_iff`), and all its names are spelled in every record of
the listing (`Lists.names`).
-/

namespace AutomatonGrammar.Record

open Json

/-! ## Names, lists of names, and entries -/

/-- A string that stands for the name `s`. -/
def IsName (v : Value) (s : String) : Prop := ∃ t, v = .string t ∧ Spelling t s.toList

def IsNames (v : Value) (ss : List String) : Prop := ∃ vs, v = .list vs ∧ List.Forall₂ IsName vs ss

variable {α : Type}

/-- A member whose key stands for the key of an entry, and whose value for its value by `IsItem`. -/
def IsEntry (IsItem : Value → α → Prop) (m : List Char × Value) (e : String × α) : Prop :=
  Spelling m.1 e.1.toList ∧ IsItem m.2 e.2

def IsEntries (IsItem : Value → α → Prop) (v : Value) (es : List (String × α)) : Prop :=
  ∃ ms, v = .object ms ∧ List.Forall₂ (IsEntry IsItem) ms es

/-- The value of the last entry with the key `k`. -/
def lastOf (es : List (String × α)) (k : String) : Option α := es.reverse.lookup k

theorem lookup_eq_lookupList (k : String) (es : List (String × α)) :
    es.lookup k = SortedMap.lookupList k es := by
  induction es with
  | nil => rfl
  | cons e es ih =>
    rw [List.lookup_cons, SortedMap.lookupList, ih]
    by_cases h : k = e.1
    · simp [h]
    · simp [h, beq_eq_false_iff_ne.2 h]

/-- Taken as a map, entries are looked up from behind. -/
theorem get?_ofList_eq_lastOf (es : List (String × α)) : (SortedMap.ofList es).get? = lastOf es := by
  funext k
  rw [SortedMap.get?_ofList, lastOf, lookup_eq_lookupList]

theorem mem_of_lastOf {es : List (String × α)} {k : String} {x : α} (h : lastOf es k = some x) :
    (k, x) ∈ es := by
  rw [lastOf, lookup_eq_lookupList] at h
  exact List.mem_reverse.1 (SortedMap.mem_of_lookupList h)

theorem lastOf_map {β : Type} (f : α → β) (es : List (String × α)) (k : String) :
    lastOf (es.map fun e => (e.1, f e.2)) k = (lastOf es k).map f := by
  rw [lastOf, lastOf, ← List.map_reverse]
  induction es.reverse with
  | nil => rfl
  | cons e es ih =>
    rw [List.map_cons, List.lookup_cons, List.lookup_cons, ih]
    cases k == e.1 <;> rfl

/-! ## Records -/

/-- The contents of a record as they are written. -/
structure Listing where
  states : List State
  alphabet : List Symbol
  transitions : List (State × List (Symbol × State))
  start : State
  accepting : List State

namespace Listing

/-- The value `v` of a field says what is listed for it. -/
def Says (l : Listing) : Field → Value → Prop
  | .states, v => IsNames v l.states
  | .alphabet, v => IsNames v l.alphabet
  | .transitions, v => IsEntries (IsEntries IsName) v l.transitions
  | .start, v => IsName v l.start
  | .accepting, v => IsNames v l.accepting

/-- The automaton `a` has just what is listed; of two entries with one key the later counts. -/
structure Gives (l : Listing) (a : Automaton) : Prop where
  states : ∀ s, s ∈ a.states ↔ s ∈ l.states
  alphabet : ∀ x, x ∈ a.alphabet ↔ x ∈ l.alphabet
  transitions : ∀ s, (SortedMap.get? a.transitions s).map SortedMap.get? =
    (lastOf l.transitions s).map lastOf
  start : a.start = l.start
  accepting : ∀ s, s ∈ a.accepting ↔ s ∈ l.accepting

/-- The automaton that is listed. -/
def automaton (l : Listing) : Automaton where
  states := .ofList l.states
  alphabet := .ofList l.alphabet
  transitions := .ofList (l.transitions.map fun e => (e.1, .ofList e.2))
  start := l.start
  accepting := .ofList l.accepting

theorem gives_automaton (l : Listing) : l.Gives l.automaton where
  states _ := SortedSet.mem_ofList
  alphabet _ := SortedSet.mem_ofList
  transitions s := by
    rw [automaton, get?_ofList_eq_lastOf, lastOf_map, Option.map_map]
    congr 1
    funext es
    exact get?_ofList_eq_lastOf es
  start := rfl
  accepting _ := SortedSet.mem_ofList

theorem get?_injective {m n : SortedMap String α} (h : m.get? = n.get?) : m = n :=
  SortedMap.ext_iff_get?.2 (congrFun h)

/-- A listing gives one automaton only, since sets and maps are equal by what is in them. -/
theorem Gives.unique {l : Listing} {a b : Automaton} (ha : l.Gives a) (hb : l.Gives b) : a = b := by
  have hsets : ∀ {s t : SortedSet String} {l : List String}, (∀ x, x ∈ s ↔ x ∈ l) →
      (∀ x, x ∈ t ↔ x ∈ l) → s = t :=
    fun hs ht => SortedSet.ext_iff_mem.2 fun x => (hs x).trans (ht x).symm
  have hrows : a.transitions = b.transitions := by
    apply get?_injective
    funext s
    have hmap := (ha.transitions s).trans (hb.transitions s).symm
    exact Option.map_injective (fun _ _ => get?_injective) hmap
  obtain ⟨_, _, _, _, _⟩ := a
  obtain ⟨_, _, _, _, _⟩ := b
  rw [Automaton.mk.injEq]
  exact ⟨hsets ha.states hb.states, hsets ha.alphabet hb.alphabet, hrows,
    ha.start.trans hb.start.symm, hsets ha.accepting hb.accepting⟩

theorem gives_iff {l : Listing} {a : Automaton} : l.Gives a ↔ a = l.automaton :=
  ⟨fun h => h.unique l.gives_automaton, fun h => h ▸ l.gives_automaton⟩

end Listing

/-- The members with the name of a field. -/
def membersOf (f : Field) (members : List (String × Value)) : List (String × Value) :=
  members.filter (·.1 = f.name)

/-- A value that is a record of `l`. -/
inductive Lists : Value → Listing → Prop
  | object {ms : List (List Char × Value)} {members : List (String × Value)} {l : Listing}
      (hms : List.Forall₂ (IsEntry Eq) ms members)
      (h : ∀ f : Field, ∃ v, membersOf f members = [(f.name, v)] ∧ l.Says f v) :
      Lists (.object ms) l
  | list {vs : List Value} {l : Listing} (h : List.Forall₂ l.Says Field.all vs) :
      Lists (.list vs) l

/-! ## Where the names of an automaton are spelled -/

/-- The names that an automaton is made of. -/
inductive Mentions (a : Automaton) : String → Prop
  | state {s : State} (h : s ∈ a.states) : Mentions a s
  | symbol {x : Symbol} (h : x ∈ a.alphabet) : Mentions a x
  | start : Mentions a a.start
  | accepting {s : State} (h : s ∈ a.accepting) : Mentions a s
  | source {s : State} {row : Row} (h : SortedMap.get? a.transitions s = some row) : Mentions a s
  | label {s : State} {row : Row} {x : Symbol} {q : State}
      (h : SortedMap.get? a.transitions s = some row) (hq : row.get? x = some q) : Mentions a x
  | target {s : State} {row : Row} {x : Symbol} {q : State}
      (h : SortedMap.get? a.transitions s = some row) (hq : row.get? x = some q) : Mentions a q

/-- The literal `t` is a string or a key in a value, at any depth. -/
inductive HasLiteral : Value → List Char → Prop
  | string {t : List Char} : HasLiteral (.string t) t
  | item {vs : List Value} {v : Value} {t : List Char} (hv : v ∈ vs) (h : HasLiteral v t) :
      HasLiteral (.list vs) t
  | key {ms : List (List Char × Value)} {v : Value} {t : List Char} (hm : (t, v) ∈ ms) :
      HasLiteral (.object ms) t
  | member {ms : List (List Char × Value)} {key : List Char} {v : Value} {t : List Char}
      (hm : (key, v) ∈ ms) (h : HasLiteral v t) : HasLiteral (.object ms) t

/-- A literal in the value `v` stands for the name `s`. -/
def Names (v : Value) (s : String) : Prop := ∃ t, HasLiteral v t ∧ Spelling t s.toList

theorem exists_of_forall₂ {β : Type} {R : α → β → Prop} {xs : List α} {ys : List β} {x : α}
    (h : List.Forall₂ R xs ys) (hx : x ∈ xs) : ∃ y ∈ ys, R x y := by
  induction h with
  | nil => cases hx
  | @cons x' y' xs ys hxy _ ih =>
    rcases List.mem_cons.1 hx with rfl | hx
    · exact ⟨y', .head _, hxy⟩
    · obtain ⟨y, hy, hR⟩ := ih hx
      exact ⟨y, .tail _ hy, hR⟩

theorem Names.item {vs : List Value} {v : Value} {s : String} (h : Names v s) (hv : v ∈ vs) :
    Names (.list vs) s := by
  obtain ⟨t, ht, hs⟩ := h
  exact ⟨t, .item hv ht, hs⟩

theorem Names.member {ms : List (List Char × Value)} {key : List Char} {v : Value} {s : String}
    (h : Names v s) (hm : (key, v) ∈ ms) : Names (.object ms) s := by
  obtain ⟨t, ht, hs⟩ := h
  exact ⟨t, .member hm ht, hs⟩

theorem IsName.names {v : Value} {s : String} (h : IsName v s) : Names v s := by
  obtain ⟨t, rfl, ht⟩ := h
  exact ⟨t, .string, ht⟩

theorem IsNames.names {v : Value} {ss : List String} {s : String} (h : IsNames v ss) (hs : s ∈ ss) :
    Names v s := by
  obtain ⟨vs, rfl, hvs⟩ := h
  obtain ⟨w, hw, hname⟩ := exists_of_forall₂ hvs.flip hs
  exact (IsName.names hname).item hw

section Entries

variable {IsItem : Value → α → Prop} {v : Value} {es : List (String × α)} {k : String} {x : α}

theorem IsEntries.names_key (h : IsEntries IsItem v es) (he : (k, x) ∈ es) : Names v k := by
  obtain ⟨ms, rfl, hms⟩ := h
  obtain ⟨m, hm, hkey, -⟩ := exists_of_forall₂ hms.flip he
  exact ⟨m.1, .key hm, hkey⟩

theorem IsEntries.names_value {s : String} (h : IsEntries IsItem v es) (he : (k, x) ∈ es)
    (hx : ∀ w, IsItem w x → Names w s) : Names v s := by
  obtain ⟨ms, rfl, hms⟩ := h
  obtain ⟨m, hm, -, hitem⟩ := exists_of_forall₂ hms.flip he
  exact (hx m.2 hitem).member hm

end Entries

/-- Each row of the automaton stands in the listing, and each of its entries stands in that row. -/
theorem Listing.Gives.exists_row {l : Listing} {a : Automaton} (h : l.Gives a) {s : State}
    {row : Row} (hrow : SortedMap.get? a.transitions s = some row) :
    ∃ es, (s, es) ∈ l.transitions ∧ ∀ {x q}, row.get? x = some q → (x, q) ∈ es := by
  have hmap := h.transitions s
  rw [hrow, Option.map_some, eq_comm, Option.map_eq_some_iff] at hmap
  obtain ⟨es, hes, hlast⟩ := hmap
  refine ⟨es, mem_of_lastOf hes, fun {x q} hq => mem_of_lastOf ?_⟩
  rw [hlast, hq]

/-- A name of the automaton that is listed is spelled wherever its field is said. -/
theorem Listing.Gives.exists_field {l : Listing} {a : Automaton} (h : l.Gives a) {s : String}
    (hs : Mentions a s) : ∃ f : Field, ∀ v, l.Says f v → Names v s := by
  cases hs with
  | state hs => exact ⟨.states, fun v hv => hv.names ((h.states s).1 hs)⟩
  | symbol hs => exact ⟨.alphabet, fun v hv => hv.names ((h.alphabet s).1 hs)⟩
  | start => exact ⟨.start, fun v hv => h.start ▸ hv.names⟩
  | accepting hs => exact ⟨.accepting, fun v hv => hv.names ((h.accepting s).1 hs)⟩
  | source hrow =>
    obtain ⟨es, hes, -⟩ := h.exists_row hrow
    exact ⟨.transitions, fun v hv => hv.names_key hes⟩
  | label hrow hq =>
    obtain ⟨es, hes, hrow⟩ := h.exists_row hrow
    exact ⟨.transitions, fun v hv => hv.names_value hes fun w hw => hw.names_key (hrow hq)⟩
  | target hrow hq =>
    obtain ⟨es, hes, hrow⟩ := h.exists_row hrow
    exact ⟨.transitions, fun v hv => hv.names_value hes fun w hw =>
      hw.names_value (hrow hq) fun _ hq => hq.names⟩

/-- A record spells all names of the automaton that it lists. -/
theorem Lists.names {v : Value} {l : Listing} {a : Automaton} {s : String} (h : Lists v l)
    (ha : l.Gives a) (hs : Mentions a s) : Names v s := by
  obtain ⟨f, hf⟩ := ha.exists_field hs
  cases h with
  | object hms h =>
    obtain ⟨w, honce, hw⟩ := h f
    have hmem := List.mem_of_mem_filter (honce ▸ List.mem_singleton_self (f.name, w))
    obtain ⟨⟨key, w'⟩, hm, -, rfl⟩ := exists_of_forall₂ hms.flip hmem
    exact (hf _ hw).member hm
  | list h =>
    have hmem : f ∈ Field.all := by cases f <;> decide
    obtain ⟨w, hw, hsays⟩ := exists_of_forall₂ h hmem
    exact (hf _ hsays).item hw

end AutomatonGrammar.Record
