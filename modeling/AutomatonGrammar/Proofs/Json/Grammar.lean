/-!
# JSON texts

Which texts are JSON, said without a reader. A `Value` is a JSON text up to the blanks between its
tokens: numbers and strings are kept as they are spelled, and an object keeps its members in the order
in which they stand there, with repeated keys. `Value.Spells v t` says that `t` is a text of `v`, and
`Value.Document v t` allows for blanks around it.

A string that is read is more than a literal: `Spelling t s` says which characters the literal `t`
stands for. There is none for half a surrogate pair, which is a literal all the same.
-/

namespace AutomatonGrammar.Json

/-! ## Blanks -/

/-- A text of nothing but the four characters that may stand between tokens. -/
def Blanks (t : List Char) : Prop := ∀ c ∈ t, c = ' ' ∨ c = '\n' ∨ c = '\t' ∨ c = '\r'

theorem Blanks.nil : Blanks [] := by
  intro c h
  cases h

theorem Blanks.append {b b' : List Char} (h : Blanks b) (h' : Blanks b') : Blanks (b ++ b') := by
  intro c hc
  exact (List.mem_append.1 hc).elim (h c) (h' c)

/-! ## Strings -/

/-- A character that stands for itself in a string. -/
def Plain (c : Char) : Prop := c ≠ '"' ∧ c ≠ '\\' ∧ 0x20 ≤ c.toNat

/-- The letters of the short escapes, each with the character that it stands for. -/
def shortEscapes : List (Char × Char) :=
  [('"', '"'), ('\\', '\\'), ('/', '/'), ('b', '\x08'), ('f', '\x0c'), ('n', '\n'), ('r', '\r'),
    ('t', '\t')]

/-- The hexadecimal digit of a number below sixteen, in either case. -/
def HexDigit (c : Char) (n : Nat) : Prop :=
  "0123456789abcdef".toList[n]? = some c ∨ "0123456789ABCDEF".toList[n]? = some c

/-- Four hexadecimal digits and the code unit that they stand for. -/
inductive Hex : List Char → Nat → Prop
  | mk {p q r s : Char} {i j k l : Nat} (hp : HexDigit p i) (hq : HexDigit q j) (hr : HexDigit r k)
      (hs : HexDigit s l) : Hex [p, q, r, s] (((i * 16 + j) * 16 + k) * 16 + l)

/-- An escape and the character that it stands for: a letter, a code unit, or the two code units of a
surrogate pair. -/
inductive Escape : List Char → Char → Prop
  | letter {l c : Char} (h : (l, c) ∈ shortEscapes) : Escape ['\\', l] c
  | unit {ds : List Char} {c : Char} (h : Hex ds c.toNat) : Escape ('\\' :: 'u' :: ds) c
  | pair {ds ds' : List Char} {m n : Nat} {c : Char} (h : Hex ds m) (h' : Hex ds' n)
      (hm : 0xD800 ≤ m ∧ m ≤ 0xDBFF) (hn : 0xDC00 ≤ n ∧ n ≤ 0xDFFF)
      (hc : c.toNat = 0x10000 + (m - 0xD800) * 0x400 + (n - 0xDC00)) :
      Escape ('\\' :: 'u' :: (ds ++ '\\' :: 'u' :: ds')) c

/-- What stands between the quotes of a string, and the characters that it stands for. -/
inductive Spelling : List Char → List Char → Prop
  | nil : Spelling [] []
  | plain {c : Char} {t s : List Char} (hc : Plain c) (h : Spelling t s) :
      Spelling (c :: t) (c :: s)
  | escape {e t s : List Char} {c : Char} (he : Escape e c) (h : Spelling t s) :
      Spelling (e ++ t) (c :: s)

/-- What may stand between the quotes of a string, whether or not it stands for characters. -/
inductive Literal : List Char → Prop
  | nil : Literal []
  | plain {c : Char} {t : List Char} (hc : Plain c) (h : Literal t) : Literal (c :: t)
  | letter {l c : Char} {t : List Char} (hc : (l, c) ∈ shortEscapes) (h : Literal t) :
      Literal ('\\' :: l :: t)
  | unit {ds t : List Char} {n : Nat} (hn : Hex ds n) (h : Literal t) :
      Literal ('\\' :: 'u' :: (ds ++ t))

theorem Spelling.literal {t s : List Char} (h : Spelling t s) : Literal t := by
  induction h with
  | nil => exact .nil
  | plain hc _ ih => exact .plain hc ih
  | escape he _ ih =>
    cases he with
    | letter h => exact .letter h ih
    | unit h => exact .unit h ih
    | pair h h' =>
      simp only [List.cons_append, List.append_assoc]
      exact .unit h (.unit h' ih)

/-! ## Numbers -/

/-- One digit or more. -/
def Digits (t : List Char) : Prop := t ≠ [] ∧ ∀ c ∈ t, c.isDigit = true

/-- The part of a number in front of the point; only a zero alone starts with zero. -/
inductive WholePart : List Char → Prop
  | zero : WholePart ['0']
  | digits {c : Char} {t : List Char} (hc : c ≠ '0') (h : Digits (c :: t)) : WholePart (c :: t)

inductive FractionPart : List Char → Prop
  | none : FractionPart []
  | digits {t : List Char} (h : Digits t) : FractionPart ('.' :: t)

inductive ExponentPart : List Char → Prop
  | none : ExponentPart []
  | digits {c : Char} {sign t : List Char} (hc : c = 'e' ∨ c = 'E')
      (hs : sign = [] ∨ sign = ['+'] ∨ sign = ['-']) (h : Digits t) :
      ExponentPart (c :: (sign ++ t))

/-- A number as it is spelled. -/
inductive Number : List Char → Prop
  | mk {sign whole fraction exponent : List Char} (hs : sign = [] ∨ sign = ['-'])
      (hw : WholePart whole) (hf : FractionPart fraction) (he : ExponentPart exponent) :
      Number (sign ++ (whole ++ (fraction ++ exponent)))

/-! ## Values -/

/-- A JSON text up to the blanks between its tokens. -/
inductive Value where
  | null
  | boolean (value : Bool)
  | number (spelled : List Char)
  | string (spelled : List Char)
  | list (items : List Value)
  | object (members : List (List Char × Value))

/-- What stands in front of an item: blanks, and a comma unless the item is the first. -/
inductive Lead : Bool → List Char → Prop
  | first {b : List Char} (hb : Blanks b) : Lead true b
  | next {b b' : List Char} (hb : Blanks b) (hb' : Blanks b') : Lead false (b ++ ',' :: b')

/-- More blanks in front of an item change nothing. -/
theorem Lead.blanks {isFirst : Bool} {p b : List Char} (h : Lead isFirst p) (hb : Blanks b) :
    Lead isFirst (p ++ b) := by
  cases h with
  | first hp => exact .first (hp.append hb)
  | next hp hp' =>
    rw [List.append_assoc, List.cons_append]
    exact .next hp (hp'.append hb)

/-- Items with commas between them and the closing bracket behind them, blanks allowed everywhere. -/
inductive Between {α : Type} (closing : Char) (Item : α → List Char → Prop) :
    Bool → List α → List Char → Prop
  | closed {isFirst : Bool} {b : List Char} (hb : Blanks b) :
      Between closing Item isFirst [] (b ++ [closing])
  | item {isFirst : Bool} {x : α} {xs : List α} {p t u : List Char} (hp : Lead isFirst p)
      (hx : Item x t) (h : Between closing Item false xs u) :
      Between closing Item isFirst (x :: xs) (p ++ (t ++ u))

/-- A key between quotes, a colon and an item. -/
inductive Entry {α : Type} (Item : α → List Char → Prop) : List Char × α → List Char → Prop
  | mk {key b b' t : List Char} {x : α} (hk : Literal key) (hb : Blanks b) (hb' : Blanks b')
      (hx : Item x t) : Entry Item (key, x) ('"' :: (key ++ '"' :: (b ++ ':' :: (b' ++ t))))

namespace Value

/-- A text of a value, from its first token to its last. -/
inductive Spells : Value → List Char → Prop
  | null : Spells .null ['n', 'u', 'l', 'l']
  | isTrue : Spells (.boolean true) ['t', 'r', 'u', 'e']
  | isFalse : Spells (.boolean false) ['f', 'a', 'l', 's', 'e']
  | number {t : List Char} (h : Number t) : Spells (.number t) t
  | string {t : List Char} (h : Literal t) : Spells (.string t) ('"' :: (t ++ ['"']))
  | list {vs : List Value} {t : List Char} (h : Between ']' Spells true vs t) :
      Spells (.list vs) ('[' :: t)
  | object {ms : List (List Char × Value)} {t : List Char}
      (h : Between '\x7d' (Entry Spells) true ms t) : Spells (.object ms) ('\x7b' :: t)

/-- A text of a value and nothing else but blanks. -/
def Document (v : Value) (text : List Char) : Prop :=
  ∃ b t b', Blanks b ∧ v.Spells t ∧ Blanks b' ∧ text = b ++ (t ++ b')

/-- Induction on the text of a value, with what is known of the items beside their texts. -/
theorem Spells.induct {P : Value → List Char → Prop} (null : P .null ['n', 'u', 'l', 'l'])
    (isTrue : P (.boolean true) ['t', 'r', 'u', 'e'])
    (isFalse : P (.boolean false) ['f', 'a', 'l', 's', 'e'])
    (number : ∀ t, Number t → P (.number t) t)
    (string : ∀ t, Literal t → P (.string t) ('"' :: (t ++ ['"'])))
    (list : ∀ vs t, Between ']' (fun v u => v.Spells u ∧ P v u) true vs t → P (.list vs) ('[' :: t))
    (object : ∀ ms t, Between '\x7d' (Entry fun v u => v.Spells u ∧ P v u) true ms t →
      P (.object ms) ('\x7b' :: t))
    {v : Value} {t : List Char} (h : v.Spells t) : P v t := by
  refine @Spells.rec (fun v t _ => P v t)
    (fun isFirst vs t _ => Between ']' (fun v u => v.Spells u ∧ P v u) isFirst vs t)
    (fun isFirst ms t _ => Between '\x7d' (Entry fun v u => v.Spells u ∧ P v u) isFirst ms t)
    (fun m t _ => Entry (fun v u => v.Spells u ∧ P v u) m t)
    null isTrue isFalse (number _) (string _) (fun _ => list _ _) (fun _ => object _ _)
    ?_ ?_ ?_ ?_ ?_ v t h
  · intro _ _ hb
    exact .closed hb
  · intro _ _ _ _ _ _ hp hx _ ihx ih
    exact .item hp ⟨hx, ihx⟩ ih
  · intro _ _ hb
    exact .closed hb
  · intro _ _ _ _ _ _ hp _ _ ihx ih
    exact .item hp ihx ih
  · intro _ _ _ _ _ hk hb hb' hx ih
    exact .mk hk hb hb' ⟨hx, ih⟩

end Value

/-! ## Where a value begins and ends -/

/-- Characters that stand between values and never begin one. -/
def betweenValues : List Char := [' ', '\n', '\t', '\r', ',', ':', ']', '\x7d']

/-- A text that starts as values and keys do. -/
def Starts (t : List Char) : Prop := ∃ c u, t = c :: u ∧ c ∉ betweenValues

theorem Starts.append {t : List Char} (h : Starts t) (r : List Char) : Starts (t ++ r) := by
  obtain ⟨c, u, rfl, hc⟩ := h
  exact ⟨c, u ++ r, rfl, hc⟩

theorem Number.exists_head {t : List Char} (h : Number t) :
    ∃ c u, t = c :: u ∧ (c = '-' ∨ c.isDigit = true) := by
  obtain ⟨hs, hw, hf, he⟩ := h
  rcases hs with rfl | rfl
  · cases hw with
    | zero => exact ⟨'0', _, rfl, .inr rfl⟩
    | digits hc h => exact ⟨_, _, rfl, .inr (h.2 _ (.head _))⟩
  · exact ⟨'-', _, rfl, .inl rfl⟩

/-- A value starts with a character that cannot stand between values. -/
theorem Value.Spells.starts {v : Value} {t : List Char} (h : v.Spells t) : Starts t := by
  cases h with
  | null => exact ⟨'n', _, rfl, by decide⟩
  | isTrue => exact ⟨'t', _, rfl, by decide⟩
  | isFalse => exact ⟨'f', _, rfl, by decide⟩
  | string => exact ⟨'"', _, rfl, by decide⟩
  | list => exact ⟨'[', _, rfl, by decide⟩
  | object => exact ⟨'\x7b', _, rfl, by decide⟩
  | number h =>
    obtain ⟨c, u, rfl, hc⟩ := h.exists_head
    refine ⟨c, u, rfl, fun hm => ?_⟩
    have hdigits : ∀ d ∈ betweenValues, d ≠ '-' ∧ d.isDigit = false := by
      simp [betweenValues]
    obtain ⟨hne, hnot⟩ := hdigits c hm
    rcases hc with rfl | hc
    · exact hne rfl
    · rw [hc] at hnot
      cases hnot

theorem Entry.starts {α : Type} {Item : α → List Char → Prop} {m : List Char × α}
    {t : List Char} (h : Entry Item m t) : Starts t := by
  cases h with
  | mk => exact ⟨'"', _, rfl, by decide⟩

/-- A text with which no number goes on. -/
def Ends (t : List Char) : Prop :=
  ∀ c u, t = c :: u → c.isDigit = false ∧ c ≠ '.' ∧ c ≠ 'e' ∧ c ≠ 'E'

theorem ends_of_mem_betweenValues {c : Char} (h : c ∈ betweenValues) (t : List Char) :
    Ends (c :: t) := by
  rintro d u hd
  cases hd
  have hall : ∀ d ∈ betweenValues, d.isDigit = false ∧ d ≠ '.' ∧ d ≠ 'e' ∧ d ≠ 'E' := by
    simp [betweenValues]
  exact hall c h

theorem mem_betweenValues_of_blank {b : List Char} (h : Blanks b) {c : Char} (hc : c ∈ b) :
    c ∈ betweenValues := by
  rcases h c hc with rfl | rfl | rfl | rfl <;> decide

theorem Blanks.ends {b t : List Char} (hb : Blanks b) (ht : Ends t) : Ends (b ++ t) := by
  cases b with
  | nil => exact ht
  | cons c b => exact ends_of_mem_betweenValues (mem_betweenValues_of_blank hb (.head _)) _

theorem Lead.next_ends {p : List Char} (h : Lead false p) (rest : List Char) : Ends (p ++ rest) := by
  obtain _ | ⟨hb, hb'⟩ := h
  rw [List.append_assoc]
  exact hb.ends (ends_of_mem_betweenValues (by decide) _)

/-- Behind an item there is a comma or a bracket, with blanks in front of it, so a number ends there. -/
theorem Between.ends {α : Type} {closing : Char} {Item : α → List Char → Prop} {xs : List α}
    {t : List Char} (h : Between closing Item false xs t) (hc : closing ∈ betweenValues)
    (rest : List Char) : Ends (t ++ rest) := by
  cases h with
  | closed hb =>
    rw [List.append_assoc]
    exact hb.ends (ends_of_mem_betweenValues hc _)
  | item hp hx h =>
    rw [List.append_assoc]
    exact hp.next_ends _

end AutomatonGrammar.Json
