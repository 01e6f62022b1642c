import AutomatonGrammar.Proofs.Form.Denotation
import AutomatonGrammar.Proofs.Text.Joined

/-!
# Texts of transitions that are joined

Texts of any number of lines, joined by line feeds, are one text of transitions. A text that is followed by
a line feed may get a blank line or lose a carriage return at its end. Neither says anything, so the joined
text is read as the texts are, one after the other (`addTexts`): it collects what the lines of the texts
denote, whatever their order, or is refused at the first line that offends those in front of it.

    addLines t n (lines (join vs).toList) = addTexts t n vs                          (addLines_join)
    readTransitions (join vs) = .ok t ↔ Collects (said vs) t                (readTransitions_join_iff)
-/

namespace AutomatonGrammar.Form

open Text

/-! ## A line feed behind a text -/

theorem cutArrow_concat {c : Char} (hc : c ≠ '>') (t : List Char) :
    cutArrow (t ++ [c]) = (cutArrow t).map fun (before, behind) => (before, behind ++ [c]) := by
  fun_induction cutArrow t with
  | case1 => simp [cutArrow]
  | case2 text => rfl
  | case3 d text hne ih =>
    rw [List.cons_append, cutArrow]
    · rw [ih]
      cases cutArrow text <;> rfl
    · -- an arrow that starts at `d` would have to end at `c`
      rintro rest rfl hrest
      cases text with
      | nil => exact hc (List.cons.inj hrest).1
      | cons e text => exact hne text rfl (by rw [(List.cons.inj hrest).1])

theorem readEdge_concat_blank {c : Char} (hc : isBlank c = true) (l : List Char) :
    readEdge (l ++ [c]) = readEdge l := by
  have hne : c ≠ '>' := by
    rintro rfl
    exact absurd hc (by decide)
  have hblank : ∀ d ∈ [c], isBlank d = true := by simpa using hc
  unfold readEdge
  rw [cutArrow_concat hne]
  cases cutArrow l with
  | none => rfl
  | some cut => simp only [Option.map_some, trim_append_blank hblank]

/-- The carriage return that belongs to the end of a line says nothing. -/
theorem addLine_dropReturn (t : Transitions) (l : List Char) : addLine t (dropReturn l) = addLine t l := by
  have hblank : isBlank '\r' = true := by decide
  rcases dropReturn_eq_or l with h | h
  · rw [h]
  · generalize dropReturn l = k at h
    subst h
    rw [addLine, addLine, trim_append_blank (by simpa using hblank), readEdge_concat_blank hblank]

theorem addLines_append (t : Transitions) (number : Nat) (ls more : List (List Char)) :
    addLines t number (ls ++ more) =
      (addLines t number ls).bind fun u => addLines u (number + ls.length) more := by
  induction ls generalizing t number with
  | nil => rfl
  | cons l ls ih =>
    rw [List.cons_append, addLines, addLines]
    cases addLine t l with
    | error f => rfl
    | ok u =>
      simp only [ih, List.length_cons]
      congr
      funext u
      rw [Nat.add_right_comm, Nat.add_assoc]

theorem addLines_lines_of_not_mem {l : List Char} (hl : '\n' ∉ l) (t : Transitions) (number : Nat) :
    addLines t number (lines l) = addLines t number [dropReturn l] := by
  cases l with
  | nil => rfl
  | cons c l => rw [lines_eq_singleton (by simp) hl, addLines, addLines, addLine_dropReturn]

/-- A text in front of a line feed is read as it is read by itself. -/
theorem addLines_lines_newline (t : Transitions) (number : Nat) (v u : List Char) :
    addLines t number (lines (v ++ '\n' :: u)) =
      (addLines t number (lines v)).bind fun t' =>
        addLines t' (number + (1 + v.count '\n')) (lines u) := by
  obtain ⟨front, last, hlength, hlast, hlines, happend⟩ := exists_last_line v
  rw [happend, hlines, ← List.singleton_append, ← List.append_assoc, addLines_append, addLines_append,
    addLines_append]
  cases addLines t number front with
  | error r => rfl
  | ok t' =>
    simp only [Except.bind, addLines_lines_of_not_mem hlast, List.length_append, hlength,
      List.length_singleton, Nat.add_comm 1]

/-! ## Text after text -/

/-- The lines of all the texts. -/
def said (vs : List String) : List (List Char) := vs.flatMap fun v => lines v.toList

/-- The number of lines that the texts take up with a line feed behind each of them. -/
def height (vs : List String) : Nat := vs.foldr (fun v n => 1 + v.toList.count '\n' + n) 0

@[simp] theorem said_nil : said [] = [] := rfl

@[simp] theorem said_cons (v : String) (vs : List String) :
    said (v :: vs) = lines v.toList ++ said vs := rfl

@[simp] theorem height_nil : height [] = 0 := rfl

@[simp] theorem height_cons (v : String) (vs : List String) :
    height (v :: vs) = 1 + v.toList.count '\n' + height vs := rfl

/-- Adds what the texts say, of which the first starts at the line of the given number. -/
def addTexts (t : Transitions) (number : Nat) : List String → Except RefusedLine Transitions
  | [] => .ok t
  | v :: vs =>
    match addLines t number (lines v.toList) with
    | .error refused => .error refused
    | .ok t => addTexts t (number + (1 + v.toList.count '\n')) vs

theorem addTexts_append (t : Transitions) (number : Nat) (vs ws : List String) :
    addTexts t number (vs ++ ws) =
      (addTexts t number vs).bind fun u => addTexts u (number + height vs) ws := by
  induction vs generalizing t number with
  | nil => rfl
  | cons v vs ih =>
    rw [List.cons_append, addTexts, addTexts]
    cases addLines t number (lines v.toList) with
    | error r => rfl
    | ok u => simp only [ih, height_cons, Nat.add_assoc]

/-- The joined text is read as the texts one after the other. -/
theorem addLines_join (t : Transitions) (number : Nat) (vs : List String) :
    addLines t number (lines ("\n".intercalate vs).toList) = addTexts t number vs := by
  rw [String.toList_intercalate, show "\n".toList = ['\n'] from rfl]
  induction vs generalizing t number with
  | nil => rfl
  | cons v vs ih =>
    rw [addTexts]
    cases vs with
    | nil =>
      rw [List.map_singleton, List.intercalate_singleton]
      split
      · next h => exact h
      · next h => exact h
    | cons w vs =>
      rw [List.map_cons, List.map_cons, List.intercalate_cons_cons, List.append_assoc,
        List.singleton_append, addLines_lines_newline, ← List.map_cons]
      cases addLines t number (lines v.toList) with
      | error r => rfl
      | ok t' => exact ih t' _

theorem Collects.addTexts {front : List (List Char)} {t u : Transitions} (h : Collects front t)
    {number : Nat} {vs : List String} (hu : addTexts t number vs = .ok u) :
    Collects (front ++ said vs) u := by
  induction vs generalizing front t number with
  | nil =>
    cases hu
    rwa [said_nil, List.append_nil]
  | cons v vs ih =>
    unfold Form.addTexts at hu
    split at hu
    · cases hu
    · next t' ht' =>
      have hrest := ih (h.addLines ht') hu
      rwa [List.append_assoc] at hrest

theorem Collects.exists_of_addTexts_eq_error {front : List (List Char)} {t : Transitions}
    (h : Collects front t) {number : Nat} {vs : List String} {r : RefusedLine}
    (hr : Form.addTexts t number vs = .error r) : ∃ before v after earlier line later,
      vs = before ++ v :: after ∧ lines v.toList = earlier ++ line :: later ∧
      r.number = number + height before + earlier.length ∧
      Agree (front ++ said before ++ earlier) ∧ Offends (front ++ said before ++ earlier) line r.fault := by
  induction vs generalizing front t number with
  | nil => cases hr
  | cons v vs ih =>
    unfold Form.addTexts at hr
    split at hr
    · next hv =>
      cases hr
      obtain ⟨earlier, line, later, heq, hnumber, hagree, hoffends⟩ := h.addLines_eq_error_iff.1 hv
      exact ⟨[], v, vs, earlier, line, later, rfl, heq, hnumber, by simpa using hagree,
        by simpa using hoffends⟩
    · next hv =>
      obtain ⟨before, w, after, earlier, line, later, rfl, heq, hnumber, hagree, hoffends⟩ :=
        ih (h.addLines hv) hr
      refine ⟨v :: before, w, after, earlier, line, later, rfl, heq, ?_, by simpa using hagree,
        by simpa using hoffends⟩
      rw [hnumber, height_cons]
      omega

theorem Collects.exists_addTexts_iff {front : List (List Char)} {t : Transitions}
    (h : Collects front t) {number : Nat} {vs : List String} :
    (∃ u, Form.addTexts t number vs = .ok u) ↔ Agree (front ++ said vs) := by
  constructor
  · rintro ⟨u, hu⟩
    exact (h.addTexts hu).agree
  · intro hagree
    cases hr : Form.addTexts t number vs with
    | ok u => exact ⟨u, rfl⟩
    | error r =>
      obtain ⟨before, v, after, earlier, line, later, rfl, hv, -, -, hoffends⟩ :=
        h.exists_of_addTexts_eq_error hr
      have hwhole : Agree (front ++ said before ++ earlier ++ line :: (later ++ said after)) := by
        simpa [said, hv] using hagree
      exact absurd hoffends (hwhole.not_offends _)

theorem Agree.mono {ls ls' : List (List Char)} (h : Agree ls) (hsub : ls' ⊆ ls) : Agree ls' :=
  ⟨fun l hl => h.denotes l (hsub hl), fun l hl l' hl' => h.unique l (hsub hl) l' (hsub hl')⟩

/-- Texts are refused at the first line that offends those in front of it, in its own text and in earlier
ones. -/
theorem Collects.addTexts_eq_error_iff {front : List (List Char)} {t : Transitions}
    (h : Collects front t) {number : Nat} {vs : List String} {r : RefusedLine} :
    Form.addTexts t number vs = .error r ↔ ∃ before v after earlier line later,
      vs = before ++ v :: after ∧ lines v.toList = earlier ++ line :: later ∧
      r.number = number + height before + earlier.length ∧
      Agree (front ++ said before ++ earlier) ∧ Offends (front ++ said before ++ earlier) line r.fault := by
  refine ⟨h.exists_of_addTexts_eq_error, ?_⟩
  rintro ⟨before, v, after, earlier, line, later, rfl, heq, hnumber, hagree, hoffends⟩
  -- the texts in front are read, so the one with the line that offends is reached
  obtain ⟨u, hu⟩ := h.exists_addTexts_iff.2 (hagree.mono (List.subset_append_left _ earlier))
  have hv : Form.addLines u (number + height before) (lines v.toList) = .error r :=
    (h.addTexts hu).addLines_eq_error_iff.2 ⟨earlier, line, later, heq, hnumber, hagree, hoffends⟩
  rw [addTexts_append, hu]
  show Form.addTexts u (number + height before) (v :: after) = .error r
  rw [Form.addTexts, hv]

/-! ## The joined text -/

theorem Collects.unique {ls : List (List Char)} {t u : Transitions} (ht : Collects ls t)
    (hu : Collects ls u) : t = u := by
  refine Transitions.ext_of_noEmptyRow ht.noEmptyRow hu.noEmptyRow fun s x => Option.ext fun q => ?_
  exact (ht.get?_iff ⟨s, x, q⟩).trans (hu.get?_iff ⟨s, x, q⟩).symm

/-- It does not matter where the lines stand. -/
theorem Collects.congr {ls ls' : List (List Char)} {t : Transitions} (h : Collects ls t)
    (hmem : ∀ l, l ∈ ls ↔ l ∈ ls') : Collects ls' t :=
  ⟨fun l hl => h.denotes l ((hmem l).2 hl), h.noEmptyRow, fun e => by simp only [h.get?_iff, hmem]⟩

theorem collects_of_readTransitions {text : String} {t : Transitions}
    (h : readTransitions text = .ok t) : Collects (lines text.toList) t :=
  collects_nil.addLines h

theorem readTransitions_join (vs : List String) :
    readTransitions ("\n".intercalate vs) = addTexts ∅ 1 vs := addLines_join ∅ 1 vs

theorem exists_readTransitions_join_iff {vs : List String} :
    (∃ t, readTransitions ("\n".intercalate vs) = .ok t) ↔ Agree (said vs) := by
  rw [readTransitions_join]
  exact collects_nil.exists_addTexts_iff

theorem readTransitions_join_iff {vs : List String} {t : Transitions} :
    readTransitions ("\n".intercalate vs) = .ok t ↔ Collects (said vs) t := by
  constructor
  · intro h
    rw [readTransitions_join] at h
    exact collects_nil.addTexts h
  · intro h
    obtain ⟨u, hu⟩ := exists_readTransitions_join_iff.2 h.agree
    rw [readTransitions_join] at hu ⊢
    rwa [h.unique (collects_nil.addTexts hu)]

/-- The order of the texts does not matter if they are read at all. -/
theorem readTransitions_join_perm {vs vs' : List String} (h : vs.Perm vs') (t : Transitions) :
    readTransitions ("\n".intercalate vs') = .ok t ↔ readTransitions ("\n".intercalate vs) = .ok t := by
  have hsaid : ∀ l, l ∈ said vs' ↔ l ∈ said vs := fun l => (h.flatMap_right _).mem_iff.symm
  rw [readTransitions_join_iff, readTransitions_join_iff]
  exact ⟨fun hc => hc.congr hsaid, fun hc => hc.congr fun l => (hsaid l).symm⟩

theorem readTransitions_join_eq_error_iff {vs : List String} {r : RefusedLine} :
    readTransitions ("\n".intercalate vs) = .error r ↔ ∃ before v after earlier line later,
      vs = before ++ v :: after ∧ lines v.toList = earlier ++ line :: later ∧
      r.number = height before + (earlier.length + 1) ∧
      Agree (said before ++ earlier) ∧ Offends (said before ++ earlier) line r.fault := by
  have hnumber : ∀ before earlier : Nat, 1 + before + earlier = before + (earlier + 1) := by omega
  rw [readTransitions_join, collects_nil.addTexts_eq_error_iff]
  simp only [List.nil_append, hnumber]

theorem height_eq_length {vs : List String} (h : ∀ v ∈ vs, '\n' ∉ v.toList) : height vs = vs.length := by
  induction vs with
  | nil => rfl
  | cons v vs ih =>
    rw [height_cons, List.count_eq_zero_of_not_mem (h v (.head _)), ih fun w hw => h w (.tail _ hw),
      List.length_cons]
    omega

theorem Offends.ne_nil {earlier : List (List Char)} {line : List Char} {f : LineFault}
    (h : Offends earlier line f) : line ≠ [] := by
  rintro rfl
  cases h with
  | malformed hne _ => exact hne rfl
  | contradiction he _ _ => exact he.not_blank rfl

/-- Texts of one line each are refused at the position of the text. -/
theorem readTransitions_join_eq_error_iff_of_single {vs : List String} (h : ∀ v ∈ vs, '\n' ∉ v.toList)
    {r : RefusedLine} :
    readTransitions ("\n".intercalate vs) = .error r ↔ ∃ before v after, vs = before ++ v :: after ∧
      r.number = before.length + 1 ∧ Agree (said before) ∧ Offends (said before) v.toList r.fault := by
  rw [readTransitions_join_eq_error_iff]
  constructor
  · rintro ⟨before, v, after, earlier, line, later, rfl, hlines, hnumber, hagree, hoffends⟩
    have hne : v.toList ≠ [] := by
      intro hnil
      simp [hnil, lines] at hlines
    rw [lines_eq_singleton hne (h v (by simp)), List.singleton_eq_append_iff] at hlines
    obtain ⟨rfl, hline⟩ | ⟨-, hnone⟩ := hlines
    · cases hline
      rw [height_eq_length fun w hw => h w (by simp [hw])] at hnumber
      exact ⟨before, v, after, rfl, hnumber, by simpa using hagree, by simpa using hoffends⟩
    · cases hnone
  · rintro ⟨before, v, after, rfl, hnumber, hagree, hoffends⟩
    refine ⟨before, v, after, [], v.toList, [], rfl, ?_, ?_, by simpa using hagree,
      by simpa using hoffends⟩
    · exact lines_eq_singleton hoffends.ne_nil (h v (by simp))
    · rw [height_eq_length fun w hw => h w (by simp [hw]), hnumber, List.length_nil]

end AutomatonGrammar.Form
