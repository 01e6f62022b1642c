import AutomatonGrammar.Form.Line
import AutomatonGrammar.Proofs.Automaton.Transitions
import AutomatonGrammar.Proofs.Text.Split
import AutomatonGrammar.Proofs.Text.Trim

/-!
# Lines that denote transitions

The arrow that counts is the first one, so nothing in front of it may contain another, while the
destination may. `readEdge_eq_ok_iff` says what a line has to look like, and `IsEdge` which transitions
can be written as a line that is read back. The text of transitions without contradictions is read line
by line; what it gives has no empty row and only transitions that can be written (`Written`).

    cutArrow t = some (b, e) ↔ t = b ++ '-' :: '>' :: e ∧ ¬HasArrow b            (cutArrow_eq_some_iff)
    IsEdge e → readEdge (edgeLine e).toList = .ok e                              (readEdge_edgeLine)
-/

namespace AutomatonGrammar.Form

open Text

/-! ## The first arrow -/

def HasArrow (t : List Char) : Prop := ['-', '>'] <:+: t

theorem not_hasArrow_nil : ¬HasArrow [] := by
  simp [HasArrow]

theorem hasArrow_cons_iff {c : Char} {t : List Char} :
    HasArrow (c :: t) ↔ (c = '-' ∧ ∃ u, t = '>' :: u) ∨ HasArrow t := by
  unfold HasArrow
  rw [List.infix_cons_iff, List.cons_prefix_cons]
  constructor
  · rintro (⟨rfl, u, hu⟩ | h)
    · exact Or.inl ⟨rfl, u, hu.symm⟩
    · exact Or.inr h
  · rintro (⟨rfl, u, rfl⟩ | h)
    · exact Or.inl ⟨rfl, u, rfl⟩
    · exact Or.inr h

/-- An arrow does not reach across a comma. -/
theorem not_hasArrow_comma {p q : List Char} (hp : ¬HasArrow p) (hq : ¬HasArrow q) :
    ¬HasArrow (p ++ ',' :: q) := by
  induction p with
  | nil =>
    intro h
    rcases hasArrow_cons_iff.1 h with ⟨hc, -⟩ | h
    · cases hc
    · exact hq h
  | cons c p ih =>
    rw [hasArrow_cons_iff, not_or] at hp
    intro h
    rcases hasArrow_cons_iff.1 h with ⟨rfl, u, hu⟩ | h
    · cases p with
      | nil => cases hu
      | cons d p =>
        cases hu
        exact hp.1 ⟨rfl, p, rfl⟩
    · exact ih hp.2 h

/-- A line is cut at its first arrow. -/
theorem cutArrow_eq_some_iff {t b e : List Char} :
    cutArrow t = some (b, e) ↔ t = b ++ '-' :: '>' :: e ∧ ¬HasArrow b := by
  constructor
  · intro h
    fun_induction cutArrow t generalizing b e with
    | case1 => cases h
    | case2 text =>
      cases h
      exact ⟨rfl, not_hasArrow_nil⟩
    | case3 c text hne ih =>
      obtain ⟨⟨b', e'⟩, hcut, heq⟩ := Option.map_eq_some_iff.1 h
      cases heq
      obtain ⟨rfl, hb⟩ := ih hcut
      refine ⟨rfl, fun ha => ?_⟩
      rcases hasArrow_cons_iff.1 ha with ⟨rfl, u, rfl⟩ | ha
      · exact hne _ rfl rfl
      · exact hb ha
  · rintro ⟨rfl, hb⟩
    induction b with
    | nil => rfl
    | cons c b ih =>
      rw [hasArrow_cons_iff, not_or] at hb
      rw [List.cons_append, cutArrow]
      · rw [ih hb.2]
        rfl
      · -- no arrow starts at `c`, whether the next character is in `b` or behind it
        rintro text rfl htext
        cases b with
        | nil => cases htext
        | cons d b =>
          cases htext
          exact hb.1 ⟨rfl, b, rfl⟩

theorem cutArrow_eq_none_iff {t : List Char} : cutArrow t = none ↔ ¬HasArrow t := by
  fun_induction cutArrow t with
  | case1 => exact iff_of_true rfl not_hasArrow_nil
  | case2 text => exact iff_of_false (by simp) (not_not_intro (hasArrow_cons_iff.2 (.inl ⟨rfl, _, rfl⟩)))
  | case3 c text hne ih =>
    rw [Option.map_eq_none_iff, ih, hasArrow_cons_iff, not_or]
    exact (and_iff_right fun ⟨hc, u, hu⟩ => hne u hc hu).symm

/-! ## One line -/

/-- A line that is read has one comma in front of its first arrow, and a name on each side of both. -/
theorem readEdge_eq_ok_iff {line : List Char} {e : Edge} :
    readEdge line = .ok e ↔ ∃ left right behind,
      line = (left ++ ',' :: right) ++ '-' :: '>' :: behind ∧ ¬HasArrow (left ++ ',' :: right) ∧
      ',' ∉ left ∧ ',' ∉ right ∧ trim left ≠ [] ∧ trim right ≠ [] ∧ trim behind ≠ [] ∧
      e = ⟨.ofList (trim left), .ofList (trim right), .ofList (trim behind)⟩ := by
  constructor
  · intro h
    unfold readEdge at h
    split at h
    · cases h
    · next before behind hcut =>
      obtain ⟨rfl, harrow⟩ := cutArrow_eq_some_iff.1 hcut
      split at h
      · next left right hsplit =>
        obtain ⟨rfl, hl, hr⟩ := split_eq_pair_iff.1 hsplit
        simp only at h
        split at h
        · cases h
        · next hne =>
          rw [not_or, not_or] at hne
          cases h
          exact ⟨left, right, behind, rfl, harrow, hl, hr, hne.1, hne.2.1, hne.2.2, rfl⟩
      · cases h
  · rintro ⟨left, right, behind, rfl, harrow, hl, hr, h₁, h₂, h₃, rfl⟩
    have hcut : cutArrow ((left ++ ',' :: right) ++ '-' :: '>' :: behind) =
        some (left ++ ',' :: right, behind) := cutArrow_eq_some_iff.2 ⟨rfl, harrow⟩
    have hsplit : split ',' (left ++ ',' :: right) = [left, right] :=
      split_eq_pair_iff.2 ⟨rfl, hl, hr⟩
    simp only [readEdge, hcut, hsplit]
    rw [if_neg (by simp [h₁, h₂, h₃])]

/-! ## Transitions that can be written -/

/-- A name that can stand in a list of names. -/
structure IsListName (s : String) : Prop where
  ne_empty : s ≠ ""
  trimmed : trim s.toList = s.toList
  no_comma : ',' ∉ s.toList

/-- A name that can stand in front of the arrow of a line. -/
structure IsKeyName (s : String) : Prop extends IsListName s where
  no_newline : '\n' ∉ s.toList
  no_arrow : ¬HasArrow s.toList

/-- A name that can stand behind the arrow of a line. -/
structure IsTargetName (s : String) : Prop where
  ne_empty : s ≠ ""
  trimmed : trim s.toList = s.toList
  no_newline : '\n' ∉ s.toList

/-- A transition that can be written as a line. -/
structure IsEdge (e : Edge) : Prop where
  source : IsKeyName e.source
  symbol : IsKeyName e.symbol
  target : IsTargetName e.target

theorem toList_ne_nil {s : String} (h : s ≠ "") : s.toList ≠ [] := by
  simpa [String.toList_eq_nil_iff] using h

theorem toList_edgeLine (e : Edge) : (edgeLine e).toList =
    (e.source.toList ++ ',' :: e.symbol.toList) ++ '-' :: '>' :: e.target.toList := by
  simp [edgeLine]

/-- The line of a transition is read back as that transition. -/
theorem readEdge_edgeLine {e : Edge} (h : IsEdge e) : readEdge (edgeLine e).toList = .ok e := by
  obtain ⟨s, x, q⟩ := e
  obtain ⟨hs, hx, hq⟩ := h
  refine readEdge_eq_ok_iff.2 ⟨s.toList, x.toList, q.toList, toList_edgeLine _,
    not_hasArrow_comma hs.no_arrow hx.no_arrow, hs.no_comma, hx.no_comma, ?_⟩
  simp only [hs.trimmed, hx.trimmed, hq.trimmed, String.ofList_toList]
  exact ⟨toList_ne_nil hs.ne_empty, toList_ne_nil hx.ne_empty, toList_ne_nil hq.ne_empty, trivial⟩

theorem isEdge_of_readEdge {line : List Char} {e : Edge} (h : readEdge line = .ok e)
    (hn : '\n' ∉ line) : IsEdge e := by
  obtain ⟨left, right, behind, rfl, harrow, hl, hr, h₁, h₂, h₃, rfl⟩ := readEdge_eq_ok_iff.1 h
  simp only [List.mem_append, List.mem_cons, not_or] at hn
  have key : ∀ {piece}, piece <:+: left ++ ',' :: right → ',' ∉ piece → '\n' ∉ piece →
      trim piece ≠ [] → IsKeyName (.ofList (trim piece)) := by
    intro piece hin hcomma hnewline hne
    have hsub := (isInfix_trim piece).subset
    constructor
    · constructor
      · simpa using hne
      · simp [trim_trim]
      · simpa using fun hm => hcomma (hsub hm)
    · simpa using fun hm => hnewline (hsub hm)
    · simpa using fun ha => harrow (ha.trans ((isInfix_trim piece).trans hin))
  constructor
  · exact key (List.prefix_append _ _).isInfix hl hn.1.1 h₁
  · exact key ((List.suffix_cons _ _).trans (List.suffix_append _ _)).isInfix hr hn.1.2.2 h₂
  · constructor
    · simpa using h₃
    · simp [trim_trim]
    · simpa using fun hm => hn.2.2.2 ((isInfix_trim behind).subset hm)

theorem isLine_edgeLine {e : Edge} (h : IsEdge e) : IsLine (edgeLine e).toList := by
  have hq := toList_ne_nil h.target.ne_empty
  rw [toList_edgeLine]
  constructor
  · simp
  · simp [h.source.no_newline, h.symbol.no_newline, h.target.no_newline]
  · intro hlast
    have hlast' : e.target.toList.getLast? = some '\r' := by
      simpa [List.getLast?_append, List.getLast?_cons, List.getLast?_eq_some_getLast hq] using hlast
    have hblank := (trim_eq_self_iff.1 h.target.trimmed).2 '\r' hlast'
    exact absurd hblank (by decide)

theorem addLine_edgeLine (t : Transitions) {e : Edge} (h : IsEdge e) :
    addLine t (edgeLine e).toList = addEdge t e := by
  have hne : trim (edgeLine e).toList ≠ [] := by
    intro hnil
    have hblank := trim_eq_nil_iff.1 hnil
    have harrow := hblank '-' (by simp [toList_edgeLine])
    exact absurd harrow (by decide)
  rw [addLine, if_neg hne, readEdge_edgeLine h]

/-! ## Whole texts -/

/-- Transitions that can be written as lines, row by row. -/
structure Written (t : Transitions) : Prop where
  noEmptyRow : t.NoEmptyRow
  isEdge : ∀ e ∈ t.edges, IsEdge e

theorem written_empty : Written ∅ := ⟨Transitions.noEmptyRow_empty, by simp [Transitions.edges]⟩

theorem Written.put {t : Transitions} (h : Written t) {e : Edge} (he : IsEdge e) :
    Written (t.put e) := by
  refine ⟨h.noEmptyRow.put e, fun f hf => ?_⟩
  rw [Transitions.mem_edges, Transitions.get?_put] at hf
  split at hf
  · next hkey =>
    obtain ⟨hs, hx⟩ := hkey
    have hq := Option.some.inj hf
    exact ⟨hs ▸ he.source, hx ▸ he.symbol, hq ▸ he.target⟩
  · exact h.isEdge f (Transitions.mem_edges.2 hf)

theorem Written.addLine {t u : Transitions} (h : Written t) {line : List Char} (hn : '\n' ∉ line)
    (hu : addLine t line = .ok u) : Written u := by
  unfold Form.addLine at hu
  split at hu
  · cases hu
    exact h
  · cases he : readEdge line with
    | error fault =>
      rw [he] at hu
      cases hu
    | ok e =>
      simp only [he] at hu
      unfold addEdge at hu
      split at hu
      · cases hu
        exact h.put (isEdge_of_readEdge he hn)
      · split at hu
        · cases hu
          exact h
        · cases hu

theorem Written.addLines {t u : Transitions} (h : Written t) {number : Nat}
    {ls : List (List Char)} (hn : ∀ l ∈ ls, '\n' ∉ l) (hu : addLines t number ls = .ok u) :
    Written u := by
  induction ls generalizing t number with
  | nil =>
    cases hu
    exact h
  | cons l ls ih =>
    unfold Form.addLines at hu
    cases hl : Form.addLine t l with
    | error fault =>
      rw [hl] at hu
      cases hu
    | ok t' =>
      rw [hl] at hu
      exact ih (h.addLine (hn l (.head _)) hl) (fun l' hm => hn l' (.tail _ hm)) hu

/-- Lines of transitions of which no two say different things are all added. -/
theorem addLines_edgeLines {es : List Edge} (hes : ∀ e ∈ es, IsEdge e)
    (hkeys : es.Pairwise Edge.Before) {t : Transitions}
    (hnew : ∀ e ∈ es, t.get? e.source e.symbol = none) (number : Nat) :
    addLines t number (es.map fun e => (edgeLine e).toList) = .ok (es.foldl .put t) := by
  induction es generalizing t number with
  | nil => rfl
  | cons e es ih =>
    have ⟨hbefore, hkeys⟩ := List.pairwise_cons.1 hkeys
    have hadd : addLine t (edgeLine e).toList = .ok (t.put e) := by
      rw [addLine_edgeLine t (hes e (.head _)), addEdge, hnew e (.head _)]
    rw [List.map_cons, addLines, hadd]
    refine ih (fun f hf => hes f (.tail _ hf)) hkeys (fun f hf => ?_) _
    rw [Transitions.get?_put, if_neg (hbefore f hf).not_leaves]
    exact hnew f (.tail _ hf)

theorem Written.of_readTransitions {text : String} {t : Transitions}
    (h : readTransitions text = .ok t) : Written t :=
  written_empty.addLines (fun _ hl => not_mem_of_mem_lines hl) h

theorem readTransitions_written {t : Transitions} (h : Written t) :
    readTransitions ("\n".intercalate (t.edges.map edgeLine)) = .ok t := by
  have hlines : lines ("\n".intercalate (t.edges.map edgeLine)).toList =
      t.edges.map fun e => (edgeLine e).toList := by
    rw [String.toList_intercalate, List.map_map]
    refine lines_intercalate fun l hl => ?_
    obtain ⟨e, he, rfl⟩ := List.mem_map.1 hl
    exact isLine_edgeLine (h.isEdge e he)
  rw [readTransitions, hlines,
    addLines_edgeLines h.isEdge t.edges_pairwise (fun e _ => rfl) 1]
  exact congrArg _ (Transitions.ofEdges_edges h.noEmptyRow)

end AutomatonGrammar.Form
