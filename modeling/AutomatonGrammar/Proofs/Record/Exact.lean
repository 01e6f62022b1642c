import AutomatonGrammar.Proofs.Json.Comma
import AutomatonGrammar.Proofs.Json.Unambiguous
import AutomatonGrammar.Proofs.Record.Reader

/-!
# Records are read for what they list

A text is read just if it is a record of a listing, and the answer is the automaton that is listed
(`read_eq_ok_iff`). So it makes no difference how a listing is written (`read_of_lists`), and nothing
but a complete record is read (`read_complete_records`).
-/

namespace AutomatonGrammar.Record

open Json

theorem readAll_eq_ok_iff {a : Automaton} {text : List Char} :
    readAll text = .ok a ↔ ∃ v l, Value.Document v text ∧ Lists v l ∧ l.Gives a := by
  constructor
  · intro h
    unfold readAll at h
    split at h
    · cases h
    · next a' rest hr =>
      split at h
      · next hnil =>
        cases h
        obtain ⟨b, v, t, l, hb, hv, hl, ha, rfl⟩ := readRecord_eq_ok_iff.1 hr
        exact ⟨v, l, ⟨b, t, rest, hb, hv, skipBlank_eq_nil_iff.1 hnil, rfl⟩, hl, ha⟩
      · cases h
  · rintro ⟨v, l, ⟨b, t, b', hb, hv, hb', rfl⟩, hl, ha⟩
    rw [readAll, readRecord_eq_ok_iff.2 ⟨b, v, t, l, hb, hv, hl, ha, rfl⟩]
    simp only [skipBlank_eq_nil_iff.2 hb']

theorem read_eq_ok_iff_readAll {a : Automaton} {text : String} :
    read text = .ok a ↔ readAll text.toList = .ok a := by
  rw [read]
  cases readAll text.toList with
  | ok b =>
    show Except.ok b = Except.ok a ↔ Except.ok b = Except.ok a
    rw [Except.ok.injEq, Except.ok.injEq]
  | error e =>
    constructor
    · intro h
      cases h
    · intro h
      cases h

/-- **What is read**: the records, for what they list. -/
theorem read_eq_ok_iff {a : Automaton} {text : String} :
    read text = .ok a ↔ ∃ v l, Value.Document v text.toList ∧ Lists v l ∧ l.Gives a :=
  read_eq_ok_iff_readAll.trans readAll_eq_ok_iff

/-- A text that is read is not read any more if other than blanks follow it. -/
theorem blanks_of_readAll_append {a a' : Automaton} {text extra : List Char}
    (h : readAll text = .ok a) (h' : readAll (text ++ extra) = .ok a') : Blanks extra := by
  obtain ⟨v, l, ⟨b, t, b', hb, hv, hb', rfl⟩, hl, ha⟩ := readAll_eq_ok_iff.1 h
  have hread : readRecord (b ++ (t ++ b') ++ extra) = .ok (a, b' ++ extra) :=
    readRecord_eq_ok_iff.2 ⟨b, v, t, l, hb, hv, hl, ha, by simp⟩
  unfold readAll at h'
  rw [hread] at h'
  cases hskip : skipBlank (b' ++ extra) with
  | nil =>
    intro c hc
    exact skipBlank_eq_nil_iff.1 hskip c (List.mem_append_right b' hc)
  | cons c rest =>
    simp only [hskip] at h'
    cases h'

/-- A text that is not read. -/
def Refused (text : String) : Prop := ∃ fault, read text = .error fault

theorem refused_of_ne_ok {text : String} (h : ∀ a, read text ≠ .ok a) : Refused text := by
  cases hr : read text with
  | ok a => exact absurd hr (h a)
  | error fault => exact ⟨fault, hr⟩

theorem refused_of_not_lists {v : Value} {text : String} (ht : v.Document text.toList)
    (hl : ∀ l, ¬ Lists v l) : Refused text := by
  refine refused_of_ne_ok fun a h => ?_
  obtain ⟨v', l, ht', hl', -⟩ := read_eq_ok_iff.1 h
  exact hl l (ht.unique ht' ▸ hl')

theorem members_unique {ms : List (List Char × Value)} {members members' : List (String × Value)}
    (h : List.Forall₂ (IsEntry Eq) ms members) (h' : List.Forall₂ (IsEntry Eq) ms members') :
    members = members' := by
  induction h generalizing members' with
  | nil =>
    cases h'
    rfl
  | cons he _ ih =>
    obtain _ | ⟨he', h'⟩ := h'
    rw [ih h', Prod.ext (String.toList_inj.1 (he.1.unique he'.1)) (he.2.symm.trans he'.2)]

/-- In an object that is a record each field has one member. -/
theorem Lists.length_membersOf {ms : List (List Char × Value)} {members : List (String × Value)}
    {l : Listing} (h : Lists (.object ms) l) (hms : List.Forall₂ (IsEntry Eq) ms members)
    (f : Field) : (membersOf f members).length = 1 := by
  cases h with
  | object hms' h =>
    obtain rfl := members_unique hms hms'
    obtain ⟨v, hone, -⟩ := h f
    rw [hone]
    rfl

/-- **A record is read for what it lists**, in whatever order its members stand, whichever others stand
between them, and however its strings are spelled. -/
theorem read_of_lists (l : Listing) : ∃ a, l.Gives a ∧
    ∀ (v : Value) (text : String), Lists v l → v.Document text.toList → read text = .ok a :=
  ⟨l.automaton, l.gives_automaton, fun v _ hl ht =>
    read_eq_ok_iff.2 ⟨v, l, ht, hl, l.gives_automaton⟩⟩

/-- A record with an escape in a key, with another member, and with names that are listed twice. -/
def handWritten : String :=
  "\x7b\"\\u0073tates\": [\"q\",\"q\"],\"note\":[null],\n\"start_state\":\"q\",\"alphabet\":[]," ++
  "\"transitions\":\x7b\"q\":\x7b\x7d,\"q\":\x7b\"x\":\"q\"\x7d\x7d,\"accept_states\":[]\x7d"

/-- The value of `handWritten`. -/
def handValue : Value :=
  .object [("\\u0073tates".toList, .list [.string ['q'], .string ['q']]),
    ("note".toList, .list [.null]), ("start_state".toList, .string ['q']),
    ("alphabet".toList, .list []),
    ("transitions".toList, .object [(['q'], .object []), (['q'], .object [(['x'], .string ['q'])])]),
    ("accept_states".toList, .list [])]

/-- What `handWritten` lists. -/
def handListing : Listing where
  states := ["q", "q"]
  alphabet := []
  transitions := [("q", []), ("q", [("x", "q")])]
  start := "q"
  accepting := []

theorem spelling_escapedKey : Spelling "\\u0073tates".toList "states".toList := by
  have hunit : Hex ['0', '0', '7', '3'] (((0 * 16 + 0) * 16 + 7) * 16 + 3) :=
    .mk (.inl rfl) (.inl rfl) (.inl rfl) (.inl rfl)
  have htail : Spelling "tates".toList "tates".toList := spelling_iff_readString.2 (by cbv)
  exact .escape (.unit (c := 's') hunit) htail

theorem lists_handValue : Lists handValue handListing := by
  have hplain : ∀ s : String, readString (s.toList ++ ['"']) = .ok (s.toList, []) →
      Spelling s.toList s.toList := fun s h => spelling_iff_readString.2 h
  have hq : Spelling ['q'] "q".toList := hplain "q" (by cbv)
  have hx : Spelling ['x'] "x".toList := hplain "x" (by cbv)
  have hname : IsName (.string ['q']) "q" := ⟨['q'], rfl, hq⟩
  refine @Lists.object _ [("states", _), ("note", _), ("start_state", _), ("alphabet", _),
    ("transitions", _), ("accept_states", _)] _
    (.cons ⟨spelling_escapedKey, rfl⟩ (.cons ⟨hplain "note" (by cbv), rfl⟩
      (.cons ⟨hplain "start_state" (by cbv), rfl⟩ (.cons ⟨hplain "alphabet" (by cbv), rfl⟩
        (.cons ⟨hplain "transitions" (by cbv), rfl⟩
          (.cons ⟨hplain "accept_states" (by cbv), rfl⟩ .nil)))))) fun f => ?_
  cases f with
  | states => exact ⟨_, rfl, _, rfl, .cons hname (.cons hname .nil)⟩
  | alphabet => exact ⟨_, rfl, _, rfl, .nil⟩
  | transitions =>
    refine ⟨_, rfl, _, rfl, .cons ⟨hq, _, rfl, .nil⟩ (.cons ⟨hq, _, rfl, ?_⟩ .nil)⟩
    exact .cons ⟨hx, hname⟩ .nil
  | start => exact ⟨_, rfl, hname⟩
  | accepting => exact ⟨_, rfl, _, rfl, .nil⟩

theorem document_handWritten : handValue.Document handWritten.toList := by
  have hplain : ∀ s : String, readString (s.toList ++ ['"']) = .ok (s.toList, []) →
      Literal s.toList := fun s h => (spelling_iff_readString.2 h).literal
  have hcomma : Lead false [','] := .next .nil .nil
  have hspace : Blanks [' '] := by simp [Blanks]
  have hline : Lead false [',', '\n'] := .next .nil (by simp [Blanks])
  have hq : Literal ['q'] := hplain "q" (by cbv)
  have hx : Literal ['x'] := hplain "x" (by cbv)
  have hnil : Value.Spells (.list []) _ := .list (.closed .nil)
  have hnote : Value.Spells (.list [.null]) _ :=
    .list (.item (.first .nil) Value.Spells.null (.closed .nil))
  have hstates : Value.Spells (.list [.string ['q'], .string ['q']]) _ :=
    .list (.item (.first .nil) (Value.Spells.string hq)
      (.item hcomma (Value.Spells.string hq) (.closed .nil)))
  have hrow : Value.Spells (.object [(['x'], .string ['q'])]) _ :=
    .object (.item (.first .nil) (Entry.mk hx .nil .nil (.string hq)) (.closed .nil))
  have hrows : Value.Spells (.object [(['q'], .object []), (['q'], .object [(['x'], .string ['q'])])])
      _ :=
    .object (.item (.first .nil) (Entry.mk hq .nil .nil (.object (.closed .nil)))
      (.item hcomma (Entry.mk hq .nil .nil hrow) (.closed .nil)))
  have hvalue : handValue.Spells _ :=
    .object (.item (.first .nil) (Entry.mk spelling_escapedKey.literal .nil hspace hstates)
      (.item hcomma (Entry.mk (hplain "note" (by cbv)) .nil .nil hnote)
      (.item hline (Entry.mk (hplain "start_state" (by cbv)) .nil .nil (.string hq))
      (.item hcomma (Entry.mk (hplain "alphabet" (by cbv)) .nil .nil hnil)
      (.item hcomma (Entry.mk (hplain "transitions" (by cbv)) .nil .nil hrows)
      (.item hcomma (Entry.mk (hplain "accept_states" (by cbv)) .nil .nil hnil) (.closed .nil)))))))
  exact ⟨[], _, [], .nil, hvalue, .nil, by decide +kernel⟩

theorem read_handWritten : read handWritten = .ok handListing.automaton := by
  obtain ⟨a, ha, hread⟩ := read_of_lists handListing
  rw [← Listing.gives_iff.1 ha]
  exact hread handValue handWritten lists_handValue document_handWritten

/-- **Only complete records are read.** What is read is a record, and the automaton is what it lists,
under names that are spelled there. Other values are refused, among them objects in which a field is
missing or repeated; so is a comma in front of a closing bracket; and of a text and the same text with
more than blanks behind it one is refused. -/
theorem read_complete_records (text : String) :
    (∀ a, read text = .ok a → ∃ v l, Value.Document v text.toList ∧ Lists v l ∧ l.Gives a ∧
      ∀ s, Mentions a s → Names v s) ∧
    (∀ v : Value, v.Document text.toList → (∀ l, ¬ Lists v l) → Refused text) ∧
    (∀ ms members f, Value.Document (.object ms) text.toList →
      List.Forall₂ (IsEntry Eq) ms members → (membersOf f members).length ≠ 1 → Refused text) ∧
    (trailingComma .outside text.toList = true → Refused text) ∧
    ∀ extra : String, ¬ Blanks extra.toList → Refused text ∨ Refused (text ++ extra) := by
  refine ⟨fun a h => ?_, fun v => refused_of_not_lists, fun ms members f ht hms hne => ?_,
    fun hcomma => refused_of_ne_ok fun a h => ?_, fun extra hextra => ?_⟩
  · obtain ⟨v, l, ht, hl, ha⟩ := read_eq_ok_iff.1 h
    exact ⟨v, l, ht, hl, ha, fun s => hl.names ha⟩
  · exact refused_of_not_lists ht fun l hl => hne (hl.length_membersOf hms f)
  · obtain ⟨v, l, ht, -, -⟩ := read_eq_ok_iff.1 h
    rw [ht.trailingComma_eq_false] at hcomma
    cases hcomma
  · cases hr : read text with
    | error fault => exact .inl ⟨fault, hr⟩
    | ok a =>
      refine .inr (refused_of_ne_ok fun a' h' => hextra ?_)
      have happend := read_eq_ok_iff_readAll.1 h'
      rw [String.toList_append] at happend
      exact blanks_of_readAll_append (read_eq_ok_iff_readAll.1 hr) happend

theorem read_complete_records_handWritten :
    (∃ v l, Value.Document v handWritten.toList ∧ Lists v l ∧ l.Gives handListing.automaton ∧
      Names v "q" ∧ Names v "x") ∧
    Refused "[]" ∧ Refused "\x7b\x7d" ∧ Refused "[[],]" ∧ Refused "[[],[],\x7b\x7d,\"\",[]" := by
  have hhand : read handWritten = .ok handListing.automaton :=
    read_eq_ok_iff.2 ⟨_, _, document_handWritten, lists_handValue, handListing.gives_automaton⟩
  have hread : read "[[],[],\x7b\x7d,\"\",[]]" = .ok Automaton.empty := by cbv
  have hlist : Value.Document (.list []) "[]".toList :=
    ⟨[], _, [], .nil, .list (.closed .nil), .nil, rfl⟩
  have hobject : Value.Document (.object []) "\x7b\x7d".toList :=
    ⟨[], _, [], .nil, .object (.closed .nil), .nil, rfl⟩
  refine ⟨?_, (read_complete_records _).2.1 _ hlist fun l h => ?_,
    (read_complete_records _).2.2.1 _ [] .states hobject .nil (by decide),
    (read_complete_records "[[],]").2.2.2.1 rfl, ?_⟩
  · obtain ⟨v, l, hv, hl, ha, hnames⟩ := (read_complete_records _).1 _ hhand
    have hrow : SortedMap.get? handListing.automaton.transitions "q" = some (.ofList [("x", "q")]) := by
      decide
    exact ⟨v, l, hv, hl, ha, hnames _ .start, hnames _ (.label hrow (q := "q") (by decide))⟩
  · cases h with
    | list h => cases h
  · have hbracket : ¬ Blanks "]".toList := by simp [Blanks]
    refine ((read_complete_records _).2.2.2.2 "]" hbracket).resolve_right ?_
    rintro ⟨fault, h⟩
    have happend : "[[],[],\x7b\x7d,\"\",[]" ++ "]" = "[[],[],\x7b\x7d,\"\",[]]" := rfl
    rw [happend, hread] at h
    cases h

end AutomatonGrammar.Record
