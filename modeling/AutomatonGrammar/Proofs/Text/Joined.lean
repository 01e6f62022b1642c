import AutomatonGrammar.Proofs.Text.Split

/-!
# Lines of a text in front of a line feed

A text that is followed by a line feed keeps its lines, but for the last one: that is now ended by the
line feed, with the carriage return in front of it if there is one, and is there even with nothing in it.
So a text in front of a line feed has one line more than it has line feeds.

    lines (l ++ '\n' :: t) = dropReturn l :: lines t,  if '\n' ∉ l             (lines_append_newline)
-/

namespace AutomatonGrammar.Text

/-- A line without the carriage return that belongs to the end of the line. -/
def dropReturn (l : List Char) : List Char := if l.getLast? = some '\r' then l.dropLast else l

theorem dropReturn_eq_or (l : List Char) : dropReturn l = l ∨ l = dropReturn l ++ ['\r'] := by
  unfold dropReturn
  split
  · next h =>
    obtain ⟨k, rfl⟩ := List.getLast?_eq_some_iff.1 h
    exact .inr (by rw [List.dropLast_concat])
  · exact .inl rfl

theorem lines_append_return {l : List Char} (hn : '\n' ∉ l) (t : List Char) :
    lines (l ++ '\r' :: '\n' :: t) = l :: lines t := by
  induction l with
  | nil => rfl
  | cons c l ih =>
    have ⟨hc, hl⟩ := not_or.1 (mt List.mem_cons.2 hn)
    refine lines_cons (Ne.symm hc) (fun _ e => ?_) (ih hl)
    cases l with
    | nil => cases e
    | cons d l =>
      cases e
      exact hl (.head _)

theorem lines_append_newline {l : List Char} (hn : '\n' ∉ l) (t : List Char) :
    lines (l ++ '\n' :: t) = dropReturn l :: lines t := by
  unfold dropReturn
  split
  · next hr =>
    obtain ⟨k, rfl⟩ := List.getLast?_eq_some_iff.1 hr
    rw [List.dropLast_concat, List.append_assoc]
    exact lines_append_return (fun h => hn (List.mem_append_left _ h)) t
  · next hr => exact lines_append hn hr t

/-- What is behind the last line feed of a text is all that a further line feed changes. -/
theorem exists_last_line (t : List Char) :
    ∃ front last, front.length = t.count '\n' ∧ '\n' ∉ last ∧ lines t = front ++ lines last ∧
      ∀ u, lines (t ++ '\n' :: u) = front ++ dropReturn last :: lines u := by
  by_cases h : '\n' ∈ t
  · obtain ⟨l, rest, heq, hl⟩ := List.eq_append_cons_of_mem h
    have hless : rest.length < t.length := by
      rw [heq, List.length_append, List.length_cons]
      omega
    obtain ⟨front, last, hlength, hlast, hlines, happend⟩ := exists_last_line rest
    subst heq
    refine ⟨dropReturn l :: front, last, ?_, hlast, ?_, fun u => ?_⟩
    · rw [List.length_cons, hlength, List.count_append, List.count_eq_zero_of_not_mem hl,
        List.count_cons_self, Nat.zero_add]
    · rw [lines_append_newline hl, hlines, List.cons_append]
    · rw [List.append_assoc, List.cons_append, lines_append_newline hl, happend, List.cons_append]
  · exact ⟨[], t, (List.count_eq_zero_of_not_mem h).symm, h, rfl, lines_append_newline h⟩
termination_by t.length

end AutomatonGrammar.Text
