import AutomatonGrammar.Text.Blank
import Mathlib.Data.List.DropRight

/-!
# Trimmed texts

Trimming takes the blanks off both ends of a text and nothing else: what is left stands in the text in
one piece, starts and ends with no blank, and is left alone by a second trimming. Blanks put at the ends
of a text make no difference to what is left.

    trim t = t ↔ (∀ c ∈ t.head?, isBlank c = false) ∧ ∀ c ∈ t.getLast?, isBlank c = false
                                                                              (trim_eq_self_iff)
    trim (trim t) = trim t                                                    (trim_trim)
    trim t = [] ↔ ∀ c ∈ t, isBlank c = true                                   (trim_eq_nil_iff)
    trim (t ++ r) = trim t, if r is blank                                     (trim_append_blank)
-/

namespace AutomatonGrammar.Text

theorem trimEnd_eq_rdropWhile (t : List Char) : trimEnd t = t.rdropWhile isBlank := rfl

theorem trimStart_suffix (t : List Char) : trimStart t <:+ t := List.dropWhile_suffix _

theorem isPrefix_trim (t : List Char) : trim t <+: trimStart t := List.rdropWhile_prefix _ _

/-- What is left stands in the text in one piece. -/
theorem isInfix_trim (t : List Char) : trim t <:+: t :=
  (isPrefix_trim t).isInfix.trans (trimStart_suffix t).isInfix

theorem head?_trim {t : List Char} {c : Char} (h : c ∈ (trim t).head?) : isBlank c = false := by
  obtain ⟨more, hmore⟩ := isPrefix_trim t
  have hc : (trimStart t).head? = some c := by
    rw [← hmore, List.head?_append, Option.mem_def.1 h]
    rfl
  have hnot := List.head?_dropWhile_not isBlank t
  rw [show t.dropWhile isBlank = trimStart t from rfl, hc] at hnot
  exact hnot

theorem getLast?_trim {t : List Char} {c : Char} (h : c ∈ (trim t).getLast?) :
    isBlank c = false := by
  have hne : trim t ≠ [] := by
    intro e
    rw [e] at h
    cases h
  have hlast := List.rdropWhile_last_not isBlank (trimStart t) hne
  rw [List.getLast?_eq_some_getLast hne] at h
  cases h
  exact Bool.eq_false_iff.2 hlast

/-- A text is left as it is just if neither of its ends is blank. -/
theorem trim_eq_self_iff {t : List Char} :
    trim t = t ↔ (∀ c ∈ t.head?, isBlank c = false) ∧ ∀ c ∈ t.getLast?, isBlank c = false := by
  constructor
  · intro h
    constructor
    · intro c hc
      exact head?_trim (h.symm ▸ hc)
    · intro c hc
      exact getLast?_trim (h.symm ▸ hc)
  · rintro ⟨hhead, hlast⟩
    have hstart : trimStart t = t := by
      cases t with
      | nil => rfl
      | cons c t => exact List.dropWhile_cons_of_neg (by simp [hhead c rfl])
    rw [trim, hstart, trimEnd_eq_rdropWhile, List.rdropWhile_eq_self_iff]
    intro hne
    simp [hlast _ (List.getLast?_eq_some_getLast hne)]

theorem trim_trim (t : List Char) : trim (trim t) = trim t :=
  trim_eq_self_iff.2 ⟨fun _ h => head?_trim h, fun _ h => getLast?_trim h⟩

/-- Nothing is left of blank texts only. -/
theorem trim_eq_nil_iff {t : List Char} : trim t = [] ↔ ∀ c ∈ t, isBlank c = true := by
  have hend : trim t = [] ↔ ∀ c ∈ trimStart t, isBlank c = true := by
    rw [trim, trimEnd_eq_rdropWhile, List.rdropWhile_eq_nil_iff]
  rw [hend]
  constructor
  · intro h c hc
    rw [← List.takeWhile_append_dropWhile (p := isBlank) (l := t)] at hc
    rcases List.mem_append.1 hc with hc | hc
    · exact List.mem_takeWhile_imp hc
    · exact h c hc
  · intro h c hc
    exact h c ((trimStart_suffix t).subset hc)

theorem trim_blank_append {l : List Char} (hl : ∀ c ∈ l, isBlank c = true) (t : List Char) :
    trim (l ++ t) = trim t := by
  rw [trim, trim, trimStart, List.dropWhile_append_of_pos hl]
  rfl

theorem trimEnd_append_blank {r : List Char} (hr : ∀ c ∈ r, isBlank c = true) (t : List Char) :
    trimEnd (t ++ r) = trimEnd t := by
  have hr' : ∀ c ∈ r.reverse, isBlank c = true := fun c hc => hr c (List.mem_reverse.1 hc)
  rw [trimEnd, trimEnd, List.reverse_append, List.dropWhile_append_of_pos hr']

/-- Blanks behind a text change nothing. -/
theorem trim_append_blank {r : List Char} (hr : ∀ c ∈ r, isBlank c = true) (t : List Char) :
    trim (t ++ r) = trim t := by
  have hstart : trimStart r = [] := List.dropWhile_eq_nil_iff.2 hr
  rw [trim, trim, trimStart, List.dropWhile_append]
  split
  · next h =>
    rw [show r.dropWhile isBlank = [] from hstart, show trimStart t = [] from List.isEmpty_iff.1 h]
  · exact trimEnd_append_blank hr _

/-- A text is what is left of it by trimming, with blanks at both ends. -/
theorem exists_eq_blank_trim_blank (t : List Char) : ∃ l r, (∀ c ∈ l, isBlank c = true) ∧
    (∀ c ∈ r, isBlank c = true) ∧ t = l ++ trim t ++ r := by
  refine ⟨t.takeWhile isBlank, (trimStart t).rtakeWhile isBlank, ?_, ?_, ?_⟩
  · exact fun c hc => List.mem_takeWhile_imp hc
  · exact fun c hc => List.mem_rtakeWhile_imp hc
  · rw [List.append_assoc, trim, trimEnd_eq_rdropWhile, List.rdropWhile_append_rtakeWhile]
    exact List.takeWhile_append_dropWhile.symm

end AutomatonGrammar.Text
