import AutomatonGrammar.Proofs.Json.Quoted
import AutomatonGrammar.Record.Printer
import AutomatonGrammar.Record.Reader

/-!
# Reading back blocks

A block is written as its opening bracket, its items on lines of their own, and its closing bracket.
Behind an item come the other items, each with a comma in front (`behind`). What a reader meets next in
that text is the next item with all that follows it, or the end of the block (`upNext`), whatever the
depth of the block, so lists and objects are read back by one induction on the items.

    nextItem bracket false (behind depth bracket.closing items ++ rest)
      = .ok (upNext bracket depth rest items)                          (nextItem_behind)
-/

namespace AutomatonGrammar.Record

open Json

/-! ## Blanks -/

theorem skipBlank_of_not_blank {c : Char} (h : isBlank c = false) (text : List Char) :
    skipBlank (c :: text) = c :: text := by
  simp [skipBlank, h]

theorem skipBlank_newLine (depth : Nat) (text : List Char) :
    skipBlank (newLine depth ++ text) = skipBlank text := by
  have hspaces : ∀ n, skipBlank (List.replicate n ' ' ++ text) = skipBlank text := by
    intro n
    induction n with
    | zero => rfl
    | succ n ih =>
      rw [List.replicate_succ, List.cons_append, ← ih]
      rfl
  rw [← hspaces (4 * depth)]
  rfl

theorem openValue_space (wanted : Wanted) (opening : Char) (text : List Char) :
    openValue wanted opening (' ' :: text) = openValue wanted opening text := rfl

theorem openValue_opening (wanted : Wanted) {opening : Char} (h : isBlank opening = false)
    (text : List Char) : openValue wanted opening (opening :: text) = .ok text := by
  rw [openValue, skipBlank_of_not_blank h]
  exact if_pos rfl

/-! ## What comes next in a block -/

/-- What is written behind an item of a block that stands inside `depth` others. -/
def behind (depth : Nat) (closing : Char) : List (List Char) → List Char
  | [] => newLine depth ++ [closing]
  | item :: items => ',' :: (newLine (depth + 1) ++ (item ++ behind depth closing items))

theorem block_cons (depth : Nat) (opening closing : Char) (item : List Char)
    (items : List (List Char)) : block depth opening closing (item :: items) =
      opening :: (newLine (depth + 1) ++ (item ++ behind depth closing items)) := by
  have hjoin : ∀ item, List.intercalate (',' :: newLine (depth + 1)) (item :: items) ++
      (newLine depth ++ [closing]) = item ++ behind depth closing items := by
    induction items with
    | nil =>
      intro item
      rw [List.intercalate_singleton]
      rfl
    | cons item' items ih =>
      intro item
      rw [List.intercalate_cons_cons, List.append_assoc, ih item', behind]
      simp
  rw [← hjoin item]
  simp [block]

/-- What a reader meets in a block of which `items` are left. -/
def upNext (bracket : Bracket) (depth : Nat) (rest : List Char) : List (List Char) → Next
  | [] => .closed rest
  | item :: items => .item (item ++ (behind depth bracket.closing items ++ rest))

/-- Items that start with a quote: names, and members with their keys in front. -/
def Quoted (items : List (List Char)) : Prop := ∀ item ∈ items, ∃ text, item = '"' :: text

theorem isBlank_closing (bracket : Bracket) : isBlank bracket.closing = false := by
  cases bracket <;> rfl

theorem quote_ne_closing (bracket : Bracket) : '"' ≠ bracket.closing := by
  cases bracket <;> decide

theorem comma_ne_closing (bracket : Bracket) : ',' ≠ bracket.closing := by
  cases bracket <;> decide

/-- The closing bracket is found behind blanks, in front of the first item as behind any other. -/
theorem nextItem_closing (bracket : Bracket) (isFirst : Bool) {text rest : List Char}
    (h : skipBlank text = bracket.closing :: rest) :
    nextItem bracket isFirst text = .ok (.closed rest) := by
  rw [nextItem, h]
  exact if_pos rfl

/-- Behind an item comes a comma and the next one, or the closing bracket. -/
theorem nextItem_behind (bracket : Bracket) (depth : Nat) {items : List (List Char)}
    (h : Quoted items) (rest : List Char) :
    nextItem bracket false (behind depth bracket.closing items ++ rest) =
      .ok (upNext bracket depth rest items) := by
  cases items with
  | nil =>
    apply nextItem_closing
    rw [behind, List.append_assoc, skipBlank_newLine, List.singleton_append,
      skipBlank_of_not_blank (isBlank_closing bracket)]
  | cons item items =>
    obtain ⟨text, rfl⟩ := h item (.head _)
    rw [behind, List.cons_append, nextItem, skipBlank_of_not_blank rfl]
    show (if ',' = bracket.closing then _ else _) = _
    rw [if_neg (comma_ne_closing bracket)]
    simp only [Bool.false_eq_true, ↓reduceIte, List.append_assoc]
    rw [skipBlank_newLine, List.cons_append, skipBlank_of_not_blank rfl]
    show (if '"' = bracket.closing then _ else _) = _
    rw [if_neg (quote_ne_closing bracket)]
    simp [upNext]

/-- Behind the opening bracket of a block its first item comes next. -/
theorem nextItem_block (bracket : Bracket) (depth : Nat) (opening : Char)
    {items : List (List Char)} (h : Quoted items) (rest : List Char) :
    ∃ text, block depth opening bracket.closing items ++ rest = opening :: text ∧
      nextItem bracket true text = .ok (upNext bracket depth rest items) := by
  cases items with
  | nil =>
    refine ⟨bracket.closing :: rest, rfl, ?_⟩
    exact nextItem_closing _ _ (skipBlank_of_not_blank (isBlank_closing bracket) _)
  | cons item items =>
    obtain ⟨text, rfl⟩ := h item (.head _)
    rw [block_cons, List.cons_append, List.append_assoc]
    refine ⟨_, rfl, ?_⟩
    rw [nextItem, skipBlank_newLine, List.cons_append, List.cons_append,
      skipBlank_of_not_blank rfl]
    show (if '"' = bracket.closing then _ else _) = _
    rw [if_neg (quote_ne_closing bracket)]
    simp [upNext]

/-! ## Lists and objects -/

section Values

variable {α : Type} {read : List Char → Result α} {shrinks : Shrinks read}

theorem readItems_closed {isFirst : Bool} {text rest : List Char}
    (h : nextItem .list isFirst text = .ok (.closed rest)) :
    readItems read shrinks isFirst text = .ok ([], rest) := by
  rw [readItems]
  split
  · next hn => rw [h] at hn; cases hn
  · next hn => rw [h] at hn; cases hn; rfl
  · next hn => rw [h] at hn; cases hn

/-- The step of reading a list. -/
theorem readItems_item {isFirst : Bool} {text item rest : List Char} {x : α}
    (h : nextItem .list isFirst text = .ok (.item item)) (hx : read item = .ok (x, rest)) :
    readItems read shrinks isFirst text = (readItems read shrinks false rest).map (x :: ·) := by
  rw [readItems]
  split
  · next hn => rw [h] at hn; cases hn
  · next hn => rw [h] at hn; cases hn
  · next hn =>
    rw [h] at hn
    cases hn
    split
    · next hr => rw [hx] at hr; cases hr
    · next hr =>
      rw [hx] at hr
      cases hr
      cases readItems read shrinks false rest <;> rfl

theorem readMembers_closed {isFirst : Bool} {text rest : List Char}
    (h : nextItem .object isFirst text = .ok (.closed rest)) :
    readMembers read shrinks isFirst text = .ok ([], rest) := by
  rw [readMembers]
  split
  · next hn => rw [h] at hn; cases hn
  · next hn => rw [h] at hn; cases hn; rfl
  · next hn => rw [h] at hn; cases hn

/-- The step of reading an object. -/
theorem readMembers_member {isFirst : Bool} {text member rest₁ value rest : List Char}
    {key : String} {x : α} (h : nextItem .object isFirst text = .ok (.item member))
    (hk : readKey member = .ok (key, rest₁)) (hc : skipColon rest₁ = .ok value)
    (hx : read value = .ok (x, rest)) : readMembers read shrinks isFirst text =
      (readMembers read shrinks false rest).map ((key, x) :: ·) := by
  rw [readMembers]
  split
  · next hn => rw [h] at hn; cases hn
  · next hn => rw [h] at hn; cases hn
  · next hn =>
    rw [h] at hn
    cases hn
    split
    · next hr => rw [hk] at hr; cases hr
    · next hr =>
      rw [hk] at hr
      cases hr
      split
      · next hr => rw [hc] at hr; cases hr
      · next hr =>
        rw [hc] at hr
        cases hr
        split
        · next hr => rw [hx] at hr; cases hr
        · next hr =>
          rw [hx] at hr
          cases hr
          cases readMembers read shrinks false rest <;> rfl

end Values

end AutomatonGrammar.Record
