import AutomatonGrammar.Proofs.Json.Grammar

/-!
# Trailing commas

No JSON text has a comma with nothing but blanks between it and a closing bracket, strings apart
(`Value.Document.trailingComma_eq_false`). Such a comma is found by walking through the text with a
`Place` in mind; what a value is spelled with can be walked through from any place outside strings, and
leaves no comma pending (`Value.Spells.unmarked`).
-/

namespace AutomatonGrammar.Json

/-- Where a character stands: outside strings, with a comma and blanks in front of it or without, in a
string, or behind a backslash there. -/
inductive Place where
  | outside
  | behindComma
  | quoted
  | escaped
deriving DecidableEq

/-- The place of the character behind `c`. -/
def Place.next (p : Place) (c : Char) : Place :=
  match p with
  | quoted => if c = '"' then outside else if c = '\\' then escaped else quoted
  | escaped => quoted
  | p =>
    if c = '"' then quoted
    else if c = ',' then behindComma
    else if c = ' ' ∨ c = '\n' ∨ c = '\t' ∨ c = '\r' then p
    else outside

/-- Whether a bracket closes behind a comma and blanks, in a text that starts at the place `p`. -/
def trailingComma (p : Place) : List Char → Bool
  | [] => false
  | c :: text =>
    (p = .behindComma && (c = ']' || c = '\x7d')) || trailingComma (p.next c) text

def Place.IsOutside (p : Place) : Prop := p = .outside ∨ p = .behindComma

/-- A text that leaves no comma pending and no quote open. -/
def Unmarked (t : List Char) : Prop :=
  ∀ p rest, Place.IsOutside p → trailingComma p (t ++ rest) = trailingComma .outside rest

/-! ## Characters, blanks and strings -/

/-- A character that is neither a blank nor a quote nor a comma, and closes no bracket. -/
def Inert (c : Char) : Prop := c ∉ ['"', ',', ' ', '\n', '\t', '\r', ']', '\x7d']

/-- Behind an inert character no comma is pending. -/
theorem trailingComma_inert {p : Place} (hp : p.IsOutside) {c : Char} (hc : Inert c)
    (rest : List Char) : trailingComma p (c :: rest) = trailingComma .outside rest := by
  simp only [Inert, List.mem_cons, List.not_mem_nil, or_false, not_or] at hc
  rcases hp with rfl | rfl <;> simp [trailingComma, Place.next, hc]

theorem unmarked_of_inert {t : List Char} (hne : t ≠ []) (h : ∀ c ∈ t, Inert c) : Unmarked t := by
  have houtside : ∀ rest, trailingComma .outside (t ++ rest) = trailingComma .outside rest := by
    intro rest
    clear hne
    induction t with
    | nil => rfl
    | cons c t ih =>
      rw [List.cons_append, trailingComma_inert (.inl rfl) (h c (.head _))]
      exact ih fun d hd => h d (.tail _ hd)
  intro p rest hp
  cases t with
  | nil => exact absurd rfl hne
  | cons c t =>
    rw [← houtside rest, List.cons_append, trailingComma_inert hp (h c (.head _)),
      trailingComma_inert (.inl rfl) (h c (.head _))]

theorem trailingComma_blanks {b : List Char} (hb : Blanks b) {p : Place} (hp : p.IsOutside)
    (rest : List Char) : trailingComma p (b ++ rest) = trailingComma p rest := by
  induction b with
  | nil => rfl
  | cons c b ih =>
    have hc := hb c (.head _)
    rw [List.cons_append, trailingComma, ← ih fun d hd => hb d (.tail _ hd)]
    rcases hp with rfl | rfl <;> rcases hc with rfl | rfl | rfl | rfl <;> rfl

theorem HexDigit.plain {c : Char} {n : Nat} (h : HexDigit c n) : c ≠ '"' ∧ c ≠ '\\' := by
  have hall : ∀ d ∈ "0123456789abcdef".toList ++ "0123456789ABCDEF".toList, d ≠ '"' ∧ d ≠ '\\' := by
    simp
  refine hall c (List.mem_append.2 ?_)
  exact h.imp List.mem_of_getElem? List.mem_of_getElem?

/-- A string is passed over to its closing quote, since each quote in it has a backslash in front of it.
A comma or a bracket in it does not count. -/
theorem trailingComma_literal {t : List Char} (h : Literal t) (rest : List Char) :
    trailingComma .quoted (t ++ '"' :: rest) = trailingComma .outside rest := by
  induction h with
  | nil => rfl
  | plain hc _ ih => simp [trailingComma, Place.next, hc.1, hc.2.1, ih]
  | letter _ _ ih => simp [trailingComma, Place.next, ih]
  | unit hn _ ih =>
    obtain ⟨hp, hq, hr, hs⟩ := hn
    simp [trailingComma, Place.next, hp.plain, hq.plain, hr.plain, hs.plain, ih]

theorem trailingComma_quoted {t : List Char} (h : Literal t) {p : Place} (hp : p.IsOutside)
    (rest : List Char) :
    trailingComma p ('"' :: (t ++ '"' :: rest)) = trailingComma .outside rest := by
  rw [← trailingComma_literal h rest]
  rcases hp with rfl | rfl <;> rfl

/-! ## Values -/

theorem Digits.inert {t : List Char} (h : Digits t) : ∀ c ∈ t, Inert c := by
  have hnot : ∀ d ∈ ['"', ',', ' ', '\n', '\t', '\r', ']', '\x7d'], d.isDigit = false := by simp
  intro c hc hm
  have hdigit := h.2 c hc
  rw [hnot c hm] at hdigit
  cases hdigit

theorem Number.inert {t : List Char} (h : Number t) : ∀ c ∈ t, Inert c := by
  obtain ⟨hs, hw, hf, he⟩ := h
  simp only [List.forall_mem_append]
  refine ⟨?_, ?_, ?_, ?_⟩
  · rcases hs with rfl | rfl <;> simp [Inert]
  · cases hw with
    | zero => simp [Inert]
    | digits _ h => exact h.inert
  · cases hf with
    | none => simp [Inert]
    | digits h => exact List.forall_mem_cons.2 ⟨by simp [Inert], h.inert⟩
  · cases he with
    | none => simp [Inert]
    | digits hc hs h =>
      refine List.forall_mem_cons.2 ⟨?_, List.forall_mem_append.2 ⟨?_, h.inert⟩⟩
      · rcases hc with rfl | rfl <;> simp [Inert]
      · rcases hs with rfl | rfl | rfl <;> simp [Inert]

/-- What stands between brackets leaves no comma pending, if no item does. The induction is on the items. -/
theorem trailingComma_between {α : Type} {Item : α → List Char → Prop}
    (hitem : ∀ {x t}, Item x t → Unmarked t) {closing : Char} (hc : closing = ']' ∨ closing = '\x7d')
    {isFirst : Bool} {xs : List α} {t : List Char} (h : Between closing Item isFirst xs t)
    (rest : List Char) : trailingComma .outside (t ++ rest) = trailingComma .outside rest := by
  induction h with
  | closed hb =>
    rw [List.append_assoc, trailingComma_blanks hb (.inl rfl)]
    rcases hc with rfl | rfl <;> rfl
  | item hp hx _ ih =>
    rw [List.append_assoc, List.append_assoc, ← ih]
    cases hp with
    | first hb =>
      rw [trailingComma_blanks hb (.inl rfl)]
      exact hitem hx _ _ (.inl rfl)
    | @next b b' hb hb' =>
      rw [List.append_assoc, trailingComma_blanks hb (.inl rfl)]
      show trailingComma .behindComma (b' ++ _) = _
      rw [trailingComma_blanks hb' (.inr rfl)]
      exact hitem hx _ _ (.inr rfl)

/-- No value has a comma in front of a closing bracket, at any depth. The induction is on the value. -/
theorem Value.Spells.unmarked {v : Value} {t : List Char} (h : v.Spells t) : Unmarked t := by
  refine h.induct (P := fun _ t => Unmarked t) ?_ ?_ ?_ ?_ ?_ ?_ ?_
  · exact unmarked_of_inert (List.cons_ne_nil _ _) (by simp [Inert])
  · exact unmarked_of_inert (List.cons_ne_nil _ _) (by simp [Inert])
  · exact unmarked_of_inert (List.cons_ne_nil _ _) (by simp [Inert])
  · intro t hn
    obtain ⟨c, u, rfl, -⟩ := hn.exists_head
    exact unmarked_of_inert (List.cons_ne_nil _ _) hn.inert
  · intro t ht p rest hp
    rw [List.cons_append, List.append_assoc]
    exact trailingComma_quoted ht hp rest
  · intro vs t hvs p rest hp
    rw [List.cons_append, trailingComma_inert hp (by simp [Inert])]
    exact trailingComma_between (fun hv => hv.2) (.inl rfl) hvs rest
  · intro ms t hms p rest hp
    rw [List.cons_append, trailingComma_inert hp (by simp [Inert])]
    refine trailingComma_between (fun hm => ?_) (.inr rfl) hms rest
    intro p rest hp
    obtain ⟨hk, hb, hb', hv⟩ := hm
    simp only [List.cons_append, List.append_assoc]
    rw [trailingComma_quoted hk hp, trailingComma_blanks hb (.inl rfl),
      trailingComma_inert (.inl rfl) (by simp [Inert]), trailingComma_blanks hb' (.inl rfl)]
    exact hv.2 _ _ (.inl rfl)

theorem Value.Document.trailingComma_eq_false {v : Value} {text : List Char} (h : v.Document text) :
    trailingComma .outside text = false := by
  obtain ⟨b, t, b', hb, hv, hb', rfl⟩ := h
  rw [trailingComma_blanks hb (.inl rfl), hv.unmarked _ _ (.inl rfl), ← List.append_nil b',
    trailingComma_blanks hb' (.inl rfl)]
  rfl

end AutomatonGrammar.Json
