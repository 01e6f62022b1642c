import AutomatonGrammar.Command.Basic
import AutomatonGrammar.Proofs.Form.Joined
import Mathlib.Data.List.Pairwise
import Mathlib.Data.Set.List

/-!
# Repeated texts of transitions

The transitions of a source are given as texts, which its form joins. Each text by itself gives a map, and
the texts can be read together exactly if the maps do not contradict each other (`Transitions.Compatible`).
What is read is then the union of the maps (`Transitions.IsUnion`).

    (∃ u ∈ us, u.get? s x = some q) ↔ ∃ l ∈ said vs, Denotes l ⟨s, x, q⟩             (exists_get?_iff)
-/

namespace AutomatonGrammar

/-! ## Maps that go together -/

namespace Transitions

/-- No state and symbol has different destinations in the two maps. -/
def Compatible (t u : Transitions) : Prop :=
  ∀ s x q q', t.get? s x = some q → u.get? s x = some q' → q = q'

/-- The sources and the transitions of `t` are those of all the maps. -/
structure IsUnion (us : List Transitions) (t : Transitions) : Prop where
  mem_keys_iff : ∀ s, s ∈ SortedMap.keys t ↔ ∃ u ∈ us, s ∈ SortedMap.keys u
  get?_iff : ∀ s x q, t.get? s x = some q ↔ ∃ u ∈ us, u.get? s x = some q

theorem Compatible.refl (t : Transitions) : t.Compatible t :=
  fun _ _ _ _ hq hq' => Option.some.inj (hq.symm.trans hq')

instance : Std.Symm Compatible := ⟨fun _ _ h s x q q' hq hq' => (h s x q' q hq' hq).symm⟩

theorem NoEmptyRow.mem_keys_iff {t : Transitions} (h : t.NoEmptyRow) {s : State} :
    s ∈ SortedMap.keys t ↔ ∃ x q, t.get? s x = some q := by
  rw [SortedMap.mem_keys, h.get?_eq]
  by_cases hrow : t.row s = ∅
  · rw [if_pos hrow]
    refine iff_of_false (by simp) ?_
    rintro ⟨x, q, hq⟩
    rw [Transitions.get?, hrow] at hq
    cases hq
  · rw [if_neg hrow]
    refine iff_of_true rfl ?_
    by_contra hnone
    refine hrow (SortedMap.ext_iff_get?.2 fun x => ?_)
    exact Option.eq_none_iff_forall_ne_some.2 fun q hq => hnone ⟨x, q, hq⟩

end Transitions

namespace Form

open Text

/-! ## The maps that the texts give -/

section Maps

variable {vs : List String} {us : List Transitions} (hus : vs.map readTransitions = us.map .ok)

include hus

theorem exists_text_of_mem {u : Transitions} (hu : u ∈ us) : ∃ v ∈ vs, readTransitions v = .ok u :=
  List.mem_map.1 (hus ▸ List.mem_map_of_mem hu)

theorem exists_map_of_mem {v : String} (hv : v ∈ vs) : ∃ u ∈ us, readTransitions v = .ok u := by
  obtain ⟨u, hu, heq⟩ := List.mem_map.1 (hus ▸ List.mem_map_of_mem (f := readTransitions) hv)
  exact ⟨u, hu, heq.symm⟩

/-- The maps that the texts give have the transitions that the lines of the texts denote. -/
theorem exists_get?_iff (s : State) (x : Symbol) (q : State) :
    (∃ u ∈ us, u.get? s x = some q) ↔ ∃ l ∈ said vs, Denotes l ⟨s, x, q⟩ := by
  constructor
  · rintro ⟨u, hu, hq⟩
    obtain ⟨v, hv, hread⟩ := exists_text_of_mem hus hu
    obtain ⟨l, hl, hdenotes⟩ := ((collects_of_readTransitions hread).get?_iff ⟨s, x, q⟩).1 hq
    exact ⟨l, List.mem_flatMap.2 ⟨v, hv, hl⟩, hdenotes⟩
  · rintro ⟨l, hl, hdenotes⟩
    obtain ⟨v, hv, hl⟩ := List.mem_flatMap.1 hl
    obtain ⟨u, hu, hread⟩ := exists_map_of_mem hus hv
    exact ⟨u, hu, ((collects_of_readTransitions hread).get?_iff ⟨s, x, q⟩).2 ⟨l, hl, hdenotes⟩⟩

theorem agree_said_of_pairwise (hpair : us.Pairwise Transitions.Compatible) : Agree (said vs) := by
  constructor
  · intro l hl hne
    obtain ⟨v, hv, hl⟩ := List.mem_flatMap.1 hl
    obtain ⟨u, -, hread⟩ := exists_map_of_mem hus hv
    exact (collects_of_readTransitions hread).denotes l hl hne
  · intro l hl l' hl' s x q q' hq hq'
    obtain ⟨u, hu, hget⟩ := (exists_get?_iff hus s x q).2 ⟨l, hl, hq⟩
    obtain ⟨u', hu', hget'⟩ := (exists_get?_iff hus s x q').2 ⟨l', hl', hq'⟩
    exact hpair.forall_of_forall (fun u _ => .refl u) hu hu' s x q q' hget hget'

theorem Agree.pairwise_compatible (hagree : Agree (said vs)) : us.Pairwise Transitions.Compatible := by
  refine List.pairwise_of_forall_mem_list fun u hu u' hu' s x q q' hget hget' => ?_
  obtain ⟨l, hl, hq⟩ := (exists_get?_iff hus s x q).1 ⟨u, hu, hget⟩
  obtain ⟨l', hl', hq'⟩ := (exists_get?_iff hus s x q').1 ⟨u', hu', hget'⟩
  exact hagree.unique l hl l' hl' s x q q' hq hq'

theorem Collects.isUnion {t : Transitions} (h : Collects (said vs) t) : Transitions.IsUnion us t := by
  have hget : ∀ s x q, t.get? s x = some q ↔ ∃ u ∈ us, u.get? s x = some q := fun s x q =>
    (h.get?_iff ⟨s, x, q⟩).trans (exists_get?_iff hus s x q).symm
  refine ⟨fun s => ?_, hget⟩
  rw [h.noEmptyRow.mem_keys_iff]
  constructor
  · rintro ⟨x, q, hq⟩
    obtain ⟨u, hu, hq⟩ := (hget s x q).1 hq
    obtain ⟨v, -, hread⟩ := exists_text_of_mem hus hu
    exact ⟨u, hu, (collects_of_readTransitions hread).noEmptyRow.mem_keys_iff.2 ⟨x, q, hq⟩⟩
  · rintro ⟨u, hu, hs⟩
    obtain ⟨v, -, hread⟩ := exists_text_of_mem hus hu
    obtain ⟨x, q, hq⟩ := (collects_of_readTransitions hread).noEmptyRow.mem_keys_iff.1 hs
    exact ⟨x, q, (hget s x q).2 ⟨u, hu, hq⟩⟩

end Maps

/-- Texts whose lines agree can each be read. -/
theorem Agree.exists_maps {vs : List String} (h : Agree (said vs)) :
    ∃ us : List Transitions, vs.map readTransitions = us.map .ok := by
  have hread : vs.map readTransitions ∈ Set.range (List.map Except.ok) := by
    rw [Set.range_list_map]
    intro result hresult
    obtain ⟨v, hv, rfl⟩ := List.mem_map.1 hresult
    have hsub : lines v.toList ⊆ said vs := fun l hl => List.mem_flatMap.2 ⟨v, hv, hl⟩
    obtain ⟨u, hu⟩ := collects_nil.exists_addLines_iff.2 (h.mono hsub)
    exact ⟨u, hu.symm⟩
  obtain ⟨us, hus⟩ := hread
  exact ⟨us, hus.symm⟩

theorem read_eq_ok_iff {f : Form} {a : Automaton} :
    f.read = .ok a ↔ ∃ t, readTransitions f.transitions = .ok t ∧
      { states := .ofList (readNames f.states), alphabet := .ofList (readNames f.alphabet),
        transitions := t, start := .ofList (trim f.start.toList),
        accepting := .ofList (readNames f.accepting) } = a := by
  unfold read
  cases readTransitions f.transitions <;> simp

end Form

/-! ## The transitions of a source -/

namespace Source

open Form Text

/-- **Repeated texts of transitions are read like one list of lines.**  They are read exactly if each is
and no two of the maps that they give contradict each other, and give the union of these maps; so their
order does not matter. Otherwise the first line of the first text that is malformed or contradicts a line
in front of it, in its own text or in an earlier one, is reported: its number is that within its text,
after one for each earlier text and for each line feed in these. If no text has a line feed in it, this is
the position of the text. -/
theorem readTransitions_repeated (source : Source) :
    let texts := source.transitions
    let joined := readTransitions source.form.transitions
    ((∃ t, joined = .ok t) ↔ ∃ us : List Transitions,
      texts.map readTransitions = us.map .ok ∧ us.Pairwise Transitions.Compatible) ∧
    (∀ t us, joined = .ok t → texts.map readTransitions = us.map .ok → Transitions.IsUnion us t) ∧
    (∀ vs, texts.Perm vs → ∀ a,
      { source with transitions := vs }.form.read = .ok a ↔ source.form.read = .ok a) ∧
    (∀ r, joined = .error r ↔ ∃ before v after earlier line later,
      texts = before ++ v :: after ∧ lines v.toList = earlier ++ line :: later ∧
      r.number = height before + (earlier.length + 1) ∧
      Agree (said before ++ earlier) ∧ Offends (said before ++ earlier) line r.fault) ∧
    ((∀ v ∈ texts, '\n' ∉ v.toList) → ∀ r, joined = .error r ↔ ∃ before v after,
      texts = before ++ v :: after ∧ r.number = before.length + 1 ∧
      Agree (said before) ∧ Offends (said before) v.toList r.fault) := by
  intro texts joined
  refine ⟨?_, fun t us ht hus => (readTransitions_join_iff.1 ht).isUnion hus, fun vs hperm a => ?_,
    fun r => readTransitions_join_eq_error_iff,
    fun hsingle r => readTransitions_join_eq_error_iff_of_single hsingle⟩
  · rw [show joined = readTransitions ("\n".intercalate texts) from rfl, exists_readTransitions_join_iff]
    constructor
    · intro hagree
      obtain ⟨us, hus⟩ := hagree.exists_maps
      exact ⟨us, hus, hagree.pairwise_compatible hus⟩
    · rintro ⟨us, hus, hpair⟩
      exact agree_said_of_pairwise hus hpair
  · have hread := readTransitions_join_perm hperm
    rw [Form.read_eq_ok_iff, Form.read_eq_ok_iff]
    exact exists_congr fun t => and_congr_left fun _ => hread t

/-- Texts that end with a line feed, with nothing, and with a carriage return alone. -/
def seams : List String := ["s,a->t\n", "", "t,b->s\r", "u,a->s\r\n\r\ns,a->t"]

/-- The same, but for the third line of the last text: it contradicts the first text. -/
def clash : List String := ["s,a->t\n", "", "t,b->s\r", "u,a->s\r\n\r\ns,a->u\nt"]

theorem readTransitions_repeated_seams :
    (∃ t, readTransitions (form { transitions := seams }).transitions = .ok t ∧
      ∃ us, seams.map readTransitions = us.map .ok ∧ us.Pairwise Transitions.Compatible ∧
        Transitions.IsUnion us t) ∧
    (form { transitions := seams.reverse }).read = .ok (.ofParts [] []
      [⟨"t", "b", "s"⟩, ⟨"u", "a", "s"⟩, ⟨"s", "a", "t"⟩] "" []) ∧
    (∃ before v after earlier line later, clash = before ++ v :: after ∧
      lines v.toList = earlier ++ line :: later ∧ 7 = height before + (earlier.length + 1) ∧
      Agree (said before ++ earlier) ∧
      Offends (said before ++ earlier) line (.contradiction "s" "a" "t")) ∧
    ∃ before v after, ["s,a->t\r", "", "t"] = before ++ v :: after ∧ 3 = before.length + 1 ∧
      Agree (said before) ∧ Offends (said before) v.toList .noArrow := by
  obtain ⟨hok, hunion, hperm, -, -⟩ := readTransitions_repeated { transitions := seams }
  obtain ⟨-, -, -, herror, -⟩ := readTransitions_repeated { transitions := clash }
  obtain ⟨-, -, -, -, hsingle⟩ := readTransitions_repeated { transitions := ["s,a->t\r", "", "t"] }
  have hread : readTransitions (form { transitions := seams }).transitions =
      .ok (.ofEdges [⟨"t", "b", "s"⟩, ⟨"u", "a", "s"⟩, ⟨"s", "a", "t"⟩]) := by
    decide +kernel
  obtain ⟨us, hus, hpair⟩ := hok.1 ⟨_, hread⟩
  refine ⟨⟨_, hread, us, hus, hpair, hunion _ us hread hus⟩, ?_, ?_, ?_⟩
  · exact (hperm _ (List.reverse_perm _).symm _).2 (read_eq_ok_iff.2 ⟨_, hread, rfl⟩)
  · exact (herror ⟨7, .contradiction "s" "a" "t"⟩).1 (by decide +kernel)
  · exact (hsingle (by decide) ⟨3, .noArrow⟩).1 (by decide +kernel)

end Source

end AutomatonGrammar
