import AutomatonGrammar.Proofs.Form.Line
import AutomatonGrammar.Form.Basic

/-!
# What a text of transitions says

A line denotes a transition (`Denotes`), or it is malformed in one of three ways (`Malformed`), of which
the first that is looked for is reported. Lines of which none is malformed, blank ones apart, and of which
no two denote different destinations for one state and symbol can be read together (`Agree`). Reading
them one after the other collects what they denote (`Collects`), and ends at the first line that is
malformed or contradicts those in front of it (`Offends`).

    Denotes line e ↔ readEdge line = .ok e                                          (denotes_iff)
    Malformed line f ↔ readEdge line = .error f                                     (malformed_iff)
-/

namespace AutomatonGrammar.Form

open Text

/-! ## One line -/

/-- The line is `before`, an arrow and `behind`, and the arrow is the first one in it. -/
structure FirstArrow (line before behind : List Char) : Prop where
  eq : line = before ++ '-' :: '>' :: behind
  first : ∀ p q, line = p ++ '-' :: '>' :: q → before.length ≤ p.length

/-- The line denotes a transition: in front of the first arrow there is one comma, and none of the three
names is blank. -/
def Denotes (line : List Char) (e : Edge) : Prop :=
  ∃ left right behind, FirstArrow line (left ++ ',' :: right) behind ∧ ',' ∉ left ∧ ',' ∉ right ∧
    trim left ≠ [] ∧ trim right ≠ [] ∧ trim behind ≠ [] ∧
    e = ⟨.ofList (trim left), .ofList (trim right), .ofList (trim behind)⟩

/-- The line denotes no transition: the first of the three things that may be wrong with it. -/
inductive Malformed (line : List Char) : LineFault → Prop
  | noArrow (h : ¬HasArrow line) : Malformed line .noArrow
  | commaCount {before behind : List Char} (h : FirstArrow line before behind)
      (hcount : before.count ',' ≠ 1) : Malformed line .commaCount
  | emptyPart {left right behind : List Char} (h : FirstArrow line (left ++ ',' :: right) behind)
      (hleft : ',' ∉ left) (hright : ',' ∉ right)
      (hempty : trim left = [] ∨ trim right = [] ∨ trim behind = []) : Malformed line .emptyPart

theorem firstArrow_iff {line before behind : List Char} :
    FirstArrow line before behind ↔ cutArrow line = some (before, behind) := by
  rw [cutArrow_eq_some_iff]
  constructor
  · rintro ⟨rfl, hfirst⟩
    refine ⟨rfl, fun ⟨p, q, hpq⟩ => ?_⟩
    have hlen := hfirst p (q ++ '-' :: '>' :: behind) (by simp [← hpq])
    simp only [← hpq, List.length_append, List.length_cons] at hlen
    omega
  · rintro ⟨rfl, hbefore⟩
    refine ⟨rfl, fun p q hpq => Nat.le_of_not_lt fun hlt => hbefore ?_⟩
    -- an arrow that starts inside `before` also ends there, since `before` is followed by a dash
    obtain ⟨r, rfl, hr⟩ | ⟨r, rfl, -⟩ := List.append_eq_append_iff.1 hpq.symm
    · match r, hr with
      | [], hr => simp at hlt
      | [_], hr => simp at hr
      | _ :: _ :: r, hr =>
        simp only [List.cons_append, List.cons.injEq] at hr
        obtain ⟨rfl, rfl, -⟩ := hr
        exact ⟨p, r, by simp⟩
    · rw [List.length_append] at hlt
      omega

theorem denotes_iff {line : List Char} {e : Edge} : Denotes line e ↔ readEdge line = .ok e := by
  rw [readEdge_eq_ok_iff, Denotes]
  refine exists_congr fun left => exists_congr fun right => exists_congr fun behind => ?_
  rw [firstArrow_iff, cutArrow_eq_some_iff, and_assoc]

theorem malformed_iff {line : List Char} {f : LineFault} :
    Malformed line f ↔ readEdge line = .error f := by
  constructor
  · intro h
    cases h with
    | noArrow h => rw [readEdge, cutArrow_eq_none_iff.2 h]
    | @commaCount before behind h hcount =>
      rw [readEdge, firstArrow_iff.1 h]
      have hlength := length_split ',' before
      simp only
      split
      · next hsplit =>
        simp only [hsplit, List.length_cons, List.length_nil] at hlength
        omega
      · rfl
    | emptyPart h hleft hright hempty =>
      rw [readEdge, firstArrow_iff.1 h]
      simp only [split_eq_pair_iff.2 ⟨rfl, hleft, hright⟩, if_pos hempty]
  · intro h
    unfold readEdge at h
    split at h
    · next hcut =>
      cases h
      exact .noArrow (cutArrow_eq_none_iff.1 hcut)
    · next before behind hcut =>
      split at h
      · next left right hsplit =>
        obtain ⟨rfl, hleft, hright⟩ := split_eq_pair_iff.1 hsplit
        simp only at h
        split at h
        · next hempty =>
          cases h
          exact .emptyPart (firstArrow_iff.2 hcut) hleft hright hempty
        · cases h
      · next hsplit =>
        cases h
        refine .commaCount (firstArrow_iff.2 hcut) fun hcount => ?_
        have hlength := length_split ',' before
        rw [hcount] at hlength
        obtain ⟨left, right, heq⟩ := List.length_eq_two.1 hlength
        exact hsplit left right heq

/-- A line denotes one transition or is malformed in one way. -/
theorem denotes_or_malformed (line : List Char) : (∃ e, Denotes line e) ∨ ∃ f, Malformed line f := by
  cases h : readEdge line with
  | error f => exact .inr ⟨f, malformed_iff.2 h⟩
  | ok e => exact .inl ⟨e, denotes_iff.2 h⟩

theorem Denotes.not_malformed {line : List Char} {e : Edge} (h : Denotes line e) (f : LineFault) :
    ¬Malformed line f := by
  intro hf
  cases (denotes_iff.1 h).symm.trans (malformed_iff.1 hf)

theorem Denotes.unique {line : List Char} {e e' : Edge} (h : Denotes line e) (h' : Denotes line e') :
    e = e' :=
  Except.ok.inj ((denotes_iff.1 h).symm.trans (denotes_iff.1 h'))

/-- A line that denotes a transition is not blank: the arrow is in it. -/
theorem Denotes.not_blank {line : List Char} {e : Edge} (h : Denotes line e) : trim line ≠ [] := by
  obtain ⟨left, right, behind, harrow, -⟩ := h
  intro hnil
  have hdash := trim_eq_nil_iff.1 hnil '-' (by simp [harrow.eq])
  exact absurd hdash (by decide)

/-! ## Lines one after the other -/

/-- Each of the lines is blank or denotes a transition, and no two denote different destinations for one
state and symbol. -/
structure Agree (ls : List (List Char)) : Prop where
  denotes : ∀ l ∈ ls, trim l ≠ [] → ∃ e, Denotes l e
  unique : ∀ l ∈ ls, ∀ l' ∈ ls, ∀ s x q q', Denotes l ⟨s, x, q⟩ → Denotes l' ⟨s, x, q'⟩ → q = q'

/-- What is wrong with a line behind lines that agree. -/
inductive Offends (earlier : List (List Char)) (line : List Char) : LineFault → Prop
  | malformed {f : LineFault} (hblank : trim line ≠ []) (h : Malformed line f) : Offends earlier line f
  | contradiction {e : Edge} {other : State} (h : Denotes line e)
      (hearlier : ∃ l ∈ earlier, Denotes l ⟨e.source, e.symbol, other⟩) (hne : other ≠ e.target) :
      Offends earlier line (.contradiction e.source e.symbol other)

/-- The transitions are those that the lines denote. -/
structure Collects (ls : List (List Char)) (t : Transitions) : Prop where
  denotes : ∀ l ∈ ls, trim l ≠ [] → ∃ e, Denotes l e
  noEmptyRow : t.NoEmptyRow
  get?_iff : ∀ e, t.get? e.source e.symbol = some e.target ↔ ∃ l ∈ ls, Denotes l e

theorem Agree.not_offends {front back : List (List Char)} {line : List Char}
    (h : Agree (front ++ line :: back)) (f : LineFault) : ¬Offends front line f := by
  intro hf
  cases hf with
  | malformed hblank hf =>
    obtain ⟨e, he⟩ := h.denotes line (by simp) hblank
    exact he.not_malformed f hf
  | contradiction he hearlier hne =>
    obtain ⟨l, hl, hother⟩ := hearlier
    exact hne (h.unique l (by simp [hl]) line (by simp) _ _ _ _ hother he)

theorem collects_nil : Collects [] ∅ :=
  ⟨by simp, Transitions.noEmptyRow_empty, fun e => iff_of_false (by intro h; cases h) (by simp)⟩

theorem Collects.agree {ls : List (List Char)} {t : Transitions} (h : Collects ls t) : Agree ls := by
  refine ⟨h.denotes, fun l hl l' hl' s x q q' hq hq' => ?_⟩
  have hget := (h.get?_iff ⟨s, x, q⟩).2 ⟨l, hl, hq⟩
  exact Option.some.inj (hget.symm.trans ((h.get?_iff ⟨s, x, q'⟩).2 ⟨l', hl', hq'⟩))

/-- Put together in any order and however often, the transitions that the lines denote are these. -/
theorem Collects.ofEdges_eq {ls : List (List Char)} {t : Transitions} (h : Collects ls t)
    {es : List Edge} (hes : ∀ e, e ∈ es ↔ ∃ l ∈ ls, Denotes l e) : Transitions.ofEdges es = t := by
  have hsub : ∀ e ∈ es, e ∈ t.edges := fun e he =>
    Transitions.mem_edges.2 ((h.get?_iff e).2 ((hes e).1 he))
  refine Transitions.ext_of_noEmptyRow (Transitions.noEmptyRow_ofEdges es) h.noEmptyRow fun s x => ?_
  apply Option.ext
  intro q
  rw [Transitions.get?_ofEdges_of_subset hsub (e := ⟨s, x, q⟩), hes, ← h.get?_iff]

/-- Blank lines say nothing. -/
theorem Collects.blank {ls : List (List Char)} {t : Transitions} (h : Collects ls t)
    {line : List Char} (hblank : trim line = []) : Collects (ls ++ [line]) t := by
  refine ⟨fun l hl hne => ?_, h.noEmptyRow, fun e => ?_⟩
  · rcases List.mem_append.1 hl with hl | hl
    · exact h.denotes l hl hne
    · exact absurd (List.mem_singleton.1 hl ▸ hblank) hne
  · have hnot : ¬Denotes line e := fun he => he.not_blank hblank
    simp [h.get?_iff, or_and_right, exists_or, hnot]

/-- One more line, whose transition is not contradicted. -/
theorem Collects.concat {ls : List (List Char)} {t u : Transitions} (h : Collects ls t)
    {line : List Char} {e : Edge} (he : Denotes line e) (hu : u.NoEmptyRow)
    (hget : ∀ f, u.get? f.source f.symbol = some f.target ↔
      t.get? f.source f.symbol = some f.target ∨ f = e) : Collects (ls ++ [line]) u := by
  refine ⟨fun l hl hne => ?_, hu, fun f => ?_⟩
  · rcases List.mem_append.1 hl with hl | hl
    · exact h.denotes l hl hne
    · exact ⟨e, List.mem_singleton.1 hl ▸ he⟩
  · have hline : Denotes line f ↔ f = e := ⟨fun hf => hf.unique he, fun hf => hf ▸ he⟩
    simp [hget, h.get?_iff, or_and_right, exists_or, hline]

/-! ## Reading line by line -/

theorem addEdge_eq_error_iff {t : Transitions} {e : Edge} {f : LineFault} :
    addEdge t e = .error f ↔ ∃ other, t.get? e.source e.symbol = some other ∧ other ≠ e.target ∧
      f = .contradiction e.source e.symbol other := by
  unfold addEdge
  cases hget : t.get? e.source e.symbol with
  | none => simp
  | some other =>
    by_cases hsame : other = e.target
    · simp [hsame]
    · simp [hsame, eq_comm]

theorem Collects.addEdge {ls : List (List Char)} {t u : Transitions} (h : Collects ls t)
    {line : List Char} {e : Edge} (he : Denotes line e) (hu : addEdge t e = .ok u) :
    Collects (ls ++ [line]) u := by
  unfold Form.addEdge at hu
  split at hu
  · next hnew =>
    cases hu
    refine h.concat he (h.noEmptyRow.put e) fun f => ?_
    obtain ⟨s, x, q⟩ := f
    rw [Transitions.get?_put]
    split
    · next hkey =>
      obtain ⟨rfl, rfl⟩ := hkey
      rw [hnew, or_iff_right (by simp), Option.some.injEq]
      constructor
      · rintro rfl
        rfl
      · exact fun heq => congrArg Edge.target heq.symm
    · next hkey => exact (or_iff_left fun heq => hkey (by rw [← heq]; exact ⟨rfl, rfl⟩)).symm
  · next other hget =>
    split at hu
    · next hsame =>
      -- the line repeats an earlier one, and nothing is added
      cases hu
      subst hsame
      refine h.concat he h.noEmptyRow fun f => (or_iff_left_of_imp fun heq => ?_).symm
      rw [heq]
      exact hget
    · cases hu

theorem Collects.addLine {ls : List (List Char)} {t u : Transitions} (h : Collects ls t)
    {line : List Char} (hu : addLine t line = .ok u) : Collects (ls ++ [line]) u := by
  unfold Form.addLine at hu
  split at hu
  · next hblank =>
    cases hu
    exact h.blank hblank
  · split at hu
    · cases hu
    · next e he => exact h.addEdge (denotes_iff.2 he) hu

theorem Collects.addLine_eq_error_iff {ls : List (List Char)} {t : Transitions} (h : Collects ls t)
    {line : List Char} {f : LineFault} : Form.addLine t line = .error f ↔ Offends ls line f := by
  unfold Form.addLine
  by_cases hblank : trim line = []
  · rw [if_pos hblank]
    refine iff_of_false (by simp) fun hf => ?_
    cases hf with
    | malformed hne _ => exact hne hblank
    | contradiction he _ _ => exact he.not_blank hblank
  rw [if_neg hblank]
  rcases denotes_or_malformed line with ⟨e, he⟩ | ⟨g, hg⟩
  · simp only [denotes_iff.1 he, addEdge_eq_error_iff]
    constructor
    · rintro ⟨other, hother, hne, rfl⟩
      exact .contradiction he ((h.get?_iff ⟨_, _, other⟩).1 hother) hne
    · intro hf
      cases hf with
      | malformed _ hf => exact absurd hf (he.not_malformed f)
      | @contradiction e' other he' hother hne =>
        cases he.unique he'
        exact ⟨other, (h.get?_iff ⟨_, _, other⟩).2 hother, hne, rfl⟩
  · simp only [malformed_iff.1 hg, Except.error.injEq]
    constructor
    · rintro rfl
      exact .malformed hblank hg
    · intro hf
      cases hf with
      | malformed _ hf => exact Except.error.inj ((malformed_iff.1 hg).symm.trans (malformed_iff.1 hf))
      | contradiction he _ _ => exact absurd hg (he.not_malformed g)

/-- Lines that are read add what they denote to what the lines in front of them denote. -/
theorem Collects.addLines {front ls : List (List Char)} {t u : Transitions} (h : Collects front t)
    {number : Nat} (hu : addLines t number ls = .ok u) : Collects (front ++ ls) u := by
  induction ls generalizing front t number with
  | nil =>
    cases hu
    rwa [List.append_nil]
  | cons line ls ih =>
    unfold Form.addLines at hu
    split at hu
    · cases hu
    · next t' ht' => simpa using ih (h.addLine ht') hu

/-- Lines are refused at the first one that offends those in front of it. -/
theorem Collects.addLines_eq_error_iff {front ls : List (List Char)} {t : Transitions}
    (h : Collects front t) {number : Nat} {r : RefusedLine} :
    Form.addLines t number ls = .error r ↔ ∃ earlier line later, ls = earlier ++ line :: later ∧
      r.number = number + earlier.length ∧ Agree (front ++ earlier) ∧
      Offends (front ++ earlier) line r.fault := by
  induction ls generalizing front t number with
  | nil => simp [Form.addLines]
  | cons l ls ih =>
    unfold Form.addLines
    cases hl : Form.addLine t l with
    | error f =>
      have hf := h.addLine_eq_error_iff.1 hl
      constructor
      · intro hr
        cases hr
        exact ⟨[], l, ls, rfl, rfl, by simpa using h.agree, by simpa using hf⟩
      · rintro ⟨earlier, line, later, heq, hnumber, hagree, hoffends⟩
        cases earlier with
        | nil =>
          cases heq
          have hr := h.addLine_eq_error_iff.2 (by simpa using hoffends)
          obtain ⟨n, g⟩ := r
          cases hnumber
          cases hl.symm.trans hr
          rfl
        | cons l' earlier =>
          -- the line that offends stands among those that are said to agree
          cases heq
          exact absurd hf (hagree.not_offends f)
    | ok t' =>
      rw [ih (h.addLine hl)]
      constructor
      · rintro ⟨earlier, line, later, rfl, hnumber, hagree, hoffends⟩
        refine ⟨l :: earlier, line, later, rfl, ?_, by simpa using hagree, by simpa using hoffends⟩
        rw [hnumber, List.length_cons]
        omega
      · rintro ⟨earlier, line, later, heq, hnumber, hagree, hoffends⟩
        cases earlier with
        | nil =>
          cases heq
          cases hl.symm.trans (h.addLine_eq_error_iff.2 (by simpa using hoffends))
        | cons l' earlier =>
          cases heq
          refine ⟨earlier, line, later, rfl, ?_, by simpa using hagree, by simpa using hoffends⟩
          rw [hnumber, List.length_cons]
          omega

theorem Collects.exists_addLines_iff {front ls : List (List Char)} {t : Transitions}
    (h : Collects front t) {number : Nat} :
    (∃ u, Form.addLines t number ls = .ok u) ↔ Agree (front ++ ls) := by
  constructor
  · rintro ⟨u, hu⟩
    exact (h.addLines hu).agree
  · intro hagree
    cases hr : Form.addLines t number ls with
    | ok u => exact ⟨u, rfl⟩
    | error r =>
      obtain ⟨earlier, line, later, rfl, -, -, hoffends⟩ := h.addLines_eq_error_iff.1 hr
      rw [← List.append_assoc] at hagree
      exact absurd hoffends (hagree.not_offends r.fault)

/-! ## A whole text -/

/-- **A text of transitions is read exactly if its lines agree.** It then gives what the lines denote and
nothing else, and the same as any automaton that is put together from these transitions, in whatever
order. Otherwise the first line that is malformed or contradicts those in front of it is reported by its
number, blank lines counted. -/
theorem readTransitions_exact (text : String) :
    ((∃ t, readTransitions text = .ok t) ↔ Agree (lines text.toList)) ∧
    (∀ t, readTransitions text = .ok t → t.NoEmptyRow ∧
      (∀ s x q, t.get? s x = some q ↔ ∃ l ∈ lines text.toList, Denotes l ⟨s, x, q⟩) ∧
      ∀ es : List Edge, (∀ e, e ∈ es ↔ ∃ l ∈ lines text.toList, Denotes l e) →
        ∀ states alphabet start accepting,
          (Automaton.ofParts states alphabet es start accepting).transitions = t) ∧
    ∀ r, readTransitions text = .error r ↔
      ∃ earlier line later, lines text.toList = earlier ++ line :: later ∧
        r.number = earlier.length + 1 ∧ Agree earlier ∧ Offends earlier line r.fault := by
  refine ⟨collects_nil.exists_addLines_iff, fun t ht => ?_, fun r => ?_⟩
  · have hcollects : Collects (lines text.toList) t := collects_nil.addLines ht
    exact ⟨hcollects.noEmptyRow, fun s x q => hcollects.get?_iff ⟨s, x, q⟩,
      fun es hes _ _ _ _ => hcollects.ofEdges_eq hes⟩
  · simp only [Nat.add_comm _ 1]
    exact collects_nil.addLines_eq_error_iff

/-- A text with a blank line, carriage returns and a transition that is repeated, and one whose third line
contradicts the first. -/
theorem readTransitions_exact_repeated :
    let text := " s , a -> t\r\n\r\ns,a->t\nt,b->->s"
    let refused := "s,a->t\n \ns,a->u\nt"
    (Agree (lines text.toList) ∧ ∃ t, readTransitions text = .ok t ∧
      (∀ s x q, t.get? s x = some q ↔ ∃ l ∈ lines text.toList, Denotes l ⟨s, x, q⟩) ∧
      (Automaton.ofParts [] [] [⟨"t", "b", "->s"⟩, ⟨"s", "a", "t"⟩] "" []).transitions = t) ∧
    ∃ earlier line later, lines refused.toList = earlier ++ line :: later ∧ earlier.length = 2 ∧
      Agree earlier ∧ Offends earlier line (.contradiction "s" "a" "t") := by
  have hread : readTransitions " s , a -> t\r\n\r\ns,a->t\nt,b->->s" =
      .ok (.ofEdges [⟨"t", "b", "->s"⟩, ⟨"s", "a", "t"⟩]) := by
    decide +kernel
  have hrefused : readTransitions "s,a->t\n \ns,a->u\nt" = .error ⟨3, .contradiction "s" "a" "t"⟩ := by
    decide +kernel
  obtain ⟨hok, hmeaning, -⟩ := readTransitions_exact " s , a -> t\r\n\r\ns,a->t\nt,b->->s"
  obtain ⟨-, -, herror⟩ := readTransitions_exact "s,a->t\n \ns,a->u\nt"
  obtain ⟨earlier, line, later, heq, hnumber, hagree, hoffends⟩ := (herror _).1 hrefused
  exact ⟨⟨hok.1 ⟨_, hread⟩, _, hread, (hmeaning _ hread).2.1, rfl⟩,
    earlier, line, later, heq, (Nat.succ.inj hnumber).symm, hagree, hoffends⟩

end AutomatonGrammar.Form
