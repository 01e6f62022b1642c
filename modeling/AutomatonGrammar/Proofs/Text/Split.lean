import AutomatonGrammar.Text.Split

/-!
# Pieces and lines

Cutting a text at a character is the splitting of lists, so joining and cutting undo each other where
the character does not occur in the pieces. A text of lines is read as these lines if none of them has
a line feed in it, a carriage return at its end, or nothing in it.

    split c t = t.splitOn c                                                    (split_eq_splitOn)
    split c (t ++ c :: u) = split c t ++ split c u                             (split_append)
    split c t = [p, q] ↔ t = p ++ c :: q ∧ c ∉ p ∧ c ∉ q                       (split_eq_pair_iff)
    lines (['\n'].intercalate ls) = ls                                         (lines_intercalate)
-/

namespace AutomatonGrammar.Text

/-! ## Pieces -/

theorem split_eq_splitOn (c : Char) (t : List Char) : split c t = t.splitOn c := by
  induction t with
  | nil => rfl
  | cons d t ih =>
    rw [split, ih, List.splitOn_cons_eq_if_modifyHead]
    by_cases h : d = c
    · simp [h]
    · rw [if_neg h, if_neg (by simpa using h)]
      cases hs : t.splitOn c with
      | nil => exact absurd hs (List.splitOn_ne_nil c t)
      | cons piece pieces => rfl

/-- Texts with the character between them are cut each by itself. -/
theorem split_append (c : Char) (t u : List Char) : split c (t ++ c :: u) = split c t ++ split c u := by
  simp only [split_eq_splitOn, List.splitOn_append_cons_self]

theorem split_of_not_mem {c : Char} {t : List Char} (h : c ∉ t) : split c t = [t] := by
  rw [split_eq_splitOn, List.splitOn_eq_singleton h]

theorem split_intercalate {c : Char} {ps : List (List Char)} (hne : ps ≠ []) (h : ∀ p ∈ ps, c ∉ p) :
    split c (List.intercalate [c] ps) = ps := by
  rw [split_eq_splitOn, List.splitOn_intercalate c h hne]

theorem intercalate_split (c : Char) (t : List Char) : List.intercalate [c] (split c t) = t := by
  rw [split_eq_splitOn, List.intercalate_splitOn]

theorem not_mem_of_mem_split {c : Char} {t p : List Char} (h : p ∈ split c t) : c ∉ p := by
  induction t generalizing p with
  | nil => simp_all [split]
  | cons d t ih =>
    by_cases hd : d = c
    · rw [split, if_pos hd] at h
      rcases List.mem_cons.1 h with rfl | h
      · simp
      · exact ih h
    · rw [split, if_neg hd] at h
      cases hs : split c t with
      | nil => exact absurd hs (split_ne_nil c t)
      | cons piece pieces =>
        rw [hs] at h ih
        rcases List.mem_cons.1 h with rfl | h
        · simpa [Ne.symm hd] using ih (.head _)
        · exact ih (.tail _ h)

/-- There is one piece more than there are occurrences. -/
theorem length_split (c : Char) (t : List Char) : (split c t).length = t.count c + 1 := by
  induction t with
  | nil => rfl
  | cons d t ih =>
    by_cases h : d = c
    · rw [split, if_pos h, List.length_cons, ih, h, List.count_cons_self]
    · rw [split, if_neg h, List.count_cons_of_ne h, ← ih]
      cases hs : split c t with
      | nil => exact absurd hs (split_ne_nil c t)
      | cons piece pieces => rfl

/-- A text has two pieces exactly if the character occurs once. -/
theorem split_eq_pair_iff {c : Char} {t p q : List Char} :
    split c t = [p, q] ↔ t = p ++ c :: q ∧ c ∉ p ∧ c ∉ q := by
  constructor
  · intro h
    refine ⟨?_, not_mem_of_mem_split (by rw [h]; simp), not_mem_of_mem_split (by rw [h]; simp)⟩
    rw [← intercalate_split c t, h, List.intercalate_cons_cons, List.intercalate_singleton]
    simp
  · rintro ⟨rfl, hp, hq⟩
    have h := @split_intercalate c [p, q] (by simp) (by simp [hp, hq])
    rwa [List.intercalate_cons_cons, List.intercalate_singleton, List.append_assoc] at h

/-! ## Lines -/

theorem not_mem_of_mem_lines {t l : List Char} (h : l ∈ lines t) : '\n' ∉ l := by
  fun_induction lines t generalizing l with
  | case1 => simp at h
  | case2 t ih =>
    rcases List.mem_cons.1 h with rfl | h
    · simp
    · exact ih h
  | case3 t ih =>
    rcases List.mem_cons.1 h with rfl | h
    · simp
    · exact ih h
  | case4 c t hn _ hs ih =>
    rw [List.mem_singleton.1 h]
    simpa using fun e => hn e.symm
  | case5 c t hn _ line rest hs ih =>
    rw [hs] at ih
    rcases List.mem_cons.1 h with rfl | h
    · intro hm
      rcases List.mem_cons.1 hm with e | hm
      · exact hn e.symm
      · exact ih (.head _) hm
    · exact ih (.tail _ h)

/-- A text that is one line: there is something in it, and nothing that ends a line. -/
structure IsLine (l : List Char) : Prop where
  ne_nil : l ≠ []
  not_mem : '\n' ∉ l
  last_ne : l.getLast? ≠ some '\r'

/-- One more character in front of the first line, if it does not end that line. -/
theorem lines_cons {c : Char} {t line : List Char} {rest : List (List Char)} (hn : c ≠ '\n')
    (hr : c = '\r' → t.head? ≠ some '\n') (h : lines t = line :: rest) :
    lines (c :: t) = (c :: line) :: rest := by
  rw [lines]
  · rw [h]
  · exact hn
  · rintro text rfl rfl
    exact hr rfl rfl

theorem lines_append {l : List Char} (hn : '\n' ∉ l) (hr : l.getLast? ≠ some '\r') (t : List Char) :
    lines (l ++ '\n' :: t) = l :: lines t := by
  induction l with
  | nil => rfl
  | cons c l ih =>
    have ⟨hc, hl⟩ := not_or.1 (mt List.mem_cons.2 hn)
    cases l with
    | nil =>
      refine lines_cons (Ne.symm hc) (fun e => ?_) rfl
      subst e
      exact absurd rfl hr
    | cons d l =>
      refine lines_cons (Ne.symm hc) (fun _ e => ?_) (ih hl (by simpa using hr))
      cases e
      exact hl (.head _)

theorem lines_eq_singleton {l : List Char} (hne : l ≠ []) (hn : '\n' ∉ l) : lines l = [l] := by
  induction l with
  | nil => exact absurd rfl hne
  | cons c l ih =>
    have ⟨hc, hl⟩ := not_or.1 (mt List.mem_cons.2 hn)
    cases l with
    | nil =>
      rw [lines]
      · rfl
      · exact Ne.symm hc
      · rintro text rfl ⟨⟩
    | cons d l =>
      refine lines_cons (Ne.symm hc) (fun _ e => ?_) (ih (by simp) hl)
      cases e
      exact hl (.head _)

theorem lines_intercalate {ls : List (List Char)} (h : ∀ l ∈ ls, IsLine l) :
    lines (List.intercalate ['\n'] ls) = ls := by
  induction ls with
  | nil => rfl
  | cons l ls ih =>
    have hl := h l (.head _)
    cases ls with
    | nil =>
      rw [List.intercalate_singleton]
      exact lines_eq_singleton hl.ne_nil hl.not_mem
    | cons l' ls =>
      rw [List.intercalate_cons_cons, List.append_assoc, List.singleton_append,
        lines_append hl.not_mem hl.last_ne, ih fun l'' hm => h l'' (.tail _ hm)]

end AutomatonGrammar.Text
