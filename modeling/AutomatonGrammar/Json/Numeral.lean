import AutomatonGrammar.Json.Problem
import AutomatonGrammar.Decimal.Float64

/-!
# JSON numbers

A `Numeral` is a number as it is spelled. `readNumeral` reads the longest one at the front of a text.
`Numeral.found` gives its value: an integer where it is spelled as one and fits into 64 bits, else a
floating-point number, which is refused where it is out of range.
-/

namespace AutomatonGrammar.Json

/-- The part of a numeral behind its `e`. -/
structure Exponent where
  negative : Bool
  digits : List Char
deriving DecidableEq, Repr

/-- A number as it is spelled; `fraction` is empty where there is no point. -/
structure Numeral where
  negative : Bool
  whole : List Char
  fraction : List Char
  exponent : Option Exponent
deriving DecidableEq, Repr

/-! ## Spelling -/

/-- The digits at the front of a text, and the rest. -/
def takeDigits (text : List Char) : List Char × List Char :=
  (text.takeWhile Char.isDigit, text.dropWhile Char.isDigit)

/-- Takes off a character at the front, if it is there. -/
def takeSign (sign : Char) : List Char → Bool × List Char
  | [] => (false, [])
  | c :: rest => if c = sign then (true, rest) else (false, c :: rest)

/-- Stops at the end of a text with `early`, elsewhere behind a byte that belongs to no number. -/
def stopNumeral (early : Problem) : List Char → Stop
  | [] => stopAt early []
  | rest => stopPast .invalidNumber rest

/-- Reads the digits in front of the point; only a zero alone may start with zero. -/
def readWhole (early : Problem) : List Char → Result (List Char)
  | '0' :: rest =>
    if (takeDigits rest).1 = [] then .ok (['0'], rest) else .error (stopPast .invalidNumber rest)
  | rest =>
    if (takeDigits rest).1 = [] then .error (stopNumeral early rest) else .ok (takeDigits rest)

/-- Reads a point and the digits behind it, if there is a point. -/
def readFraction (early : Problem) : List Char → Result (List Char)
  | '.' :: rest =>
    if (takeDigits rest).1 = [] then .error (stopNumeral early rest) else .ok (takeDigits rest)
  | rest => .ok ([], rest)

/-- Reads the sign and the digits of an exponent. -/
def readExponentDigits (early : Problem) (text : List Char) : Result Exponent :=
  let minus := takeSign '-' text
  let rest := if minus.1 then minus.2 else (takeSign '+' text).2
  if (takeDigits rest).1 = [] then .error (stopNumeral early rest)
  else .ok (⟨minus.1, (takeDigits rest).1⟩, (takeDigits rest).2)

/-- Reads an exponent, if there is one. -/
def readExponent (early : Problem) : List Char → Result (Option Exponent)
  | c :: rest =>
    if c = 'e' ∨ c = 'E' then
      match readExponentDigits early rest with
      | .error e => .error e
      | .ok (x, rest) => .ok (some x, rest)
    else .ok (none, c :: rest)
  | [] => .ok (none, [])

/-- Reads a number; one that ends too early is reported as `early`. -/
def readNumeral (early : Problem) (text : List Char) : Result Numeral :=
  let minus := takeSign '-' text
  match readWhole early minus.2 with
  | .error e => .error e
  | .ok (whole, rest) =>
    match readFraction early rest with
    | .error e => .error e
    | .ok (fraction, rest) =>
      match readExponent early rest with
      | .error e => .error e
      | .ok (exponent, rest) => .ok (⟨minus.1, whole, fraction, exponent⟩, rest)

/-! ## Value -/

/-- Appends digits to a number as long as it stays below `bound`: the number, and the digits that no
longer fit. -/
def absorb (bound : Nat) (n : Nat) : List Char → Nat × List Char
  | [] => (n, [])
  | d :: ds =>
    let next := n * 10 + (d.toNat - '0'.toNat)
    if next < bound then absorb bound next ds else (n, d :: ds)

namespace Numeral

/-- The digits that fit into 64 bits, as an integer, and the power of ten they are to be taken with
when the exponent is left out. Digits in front of the point that do not fit count as zeros. -/
def significand (n : Numeral) : Nat × Int :=
  let (whole, dropped) := absorb UInt64.size 0 n.whole
  let (all, left) := absorb UInt64.size whole n.fraction
  (all, (dropped.length : Int) - ((n.fraction.length - left.length : Nat) : Int))

/-- The integer that is spelled, if it is spelled as one and fits into 64 bits with or without sign;
minus zero is no integer. -/
def integer? (n : Numeral) : Option Int :=
  if n.fraction = [] ∧ n.exponent = none then
    let (whole, dropped) := absorb UInt64.size 0 n.whole
    if dropped ≠ [] then none
    else if !n.negative then some whole
    else if whole = 0 ∨ whole > UInt64.size / 2 then none
    else some (-whole)
  else none

/-- The value of a number in front of `rest`. An exponent beyond 32 bits is refused as soon as its
digits show that, unless it makes the number zero. -/
def found (n : Numeral) (rest : List Char) : Except Stop Found :=
  match n.integer? with
  | some value => .ok (.integer value)
  | none =>
    let (digits, shift) := n.significand
    let shown (value : Float) : Found :=
      .decimal (Decimal.shown (if n.negative then -value else value))
    let scaled (exponent : Int) : Except Stop Found :=
      match Decimal.scale digits exponent with
      | some value => .ok (shown value)
      | none => .error (stopAt .numberOutOfRange rest)
    match n.exponent with
    | none => scaled shift
    | some x =>
      match absorb (UInt32.size / 2) 0 x.digits with
      | (value, []) => scaled (if x.negative then shift - value else shift + value)
      | (_, _ :: unread) =>
        if digits ≠ 0 ∧ !x.negative then .error ⟨.numberOutOfRange, byteLength rest + unread.length⟩
        else .ok (shown 0)

end Numeral

/-! ## Lengths -/

theorem takeDigits_append (text : List Char) : (takeDigits text).1 ++ (takeDigits text).2 = text :=
  List.takeWhile_append_dropWhile

theorem length_takeDigits (text : List Char) : (takeDigits text).2.length ≤ text.length := by
  have := congrArg List.length (takeDigits_append text)
  simp only [List.length_append] at this
  omega

theorem length_takeDigits_lt {text : List Char} (h : (takeDigits text).1 ≠ []) :
    (takeDigits text).2.length < text.length := by
  have := congrArg List.length (takeDigits_append text)
  have := List.length_pos_iff.2 h
  simp only [List.length_append] at *
  omega

theorem length_takeSign (sign : Char) (text : List Char) :
    (takeSign sign text).2.length ≤ text.length := by
  cases text with
  | nil => simp [takeSign]
  | cons c rest => by_cases h : c = sign <;> simp [takeSign, h]

theorem readWhole_shrinks (early : Problem) : Shrinks (readWhole early) := by
  intro text x rest h
  fun_cases readWhole early text <;> grind [length_takeDigits_lt, readWhole]

theorem readFraction_length {early : Problem} {text x rest : List Char}
    (h : readFraction early text = .ok (x, rest)) : rest.length ≤ text.length := by
  fun_cases readFraction early text <;> grind [length_takeDigits, readFraction]

theorem readExponentDigits_length {early : Problem} {text rest : List Char} {x : Exponent}
    (h : readExponentDigits early text = .ok (x, rest)) : rest.length ≤ text.length := by
  have := length_takeSign '-' text
  have := length_takeSign '+' text
  fun_cases readExponentDigits early text <;> grind [length_takeDigits, readExponentDigits]

theorem readExponent_length {early : Problem} {text rest : List Char} {x : Option Exponent}
    (h : readExponent early text = .ok (x, rest)) : rest.length ≤ text.length := by
  unfold readExponent at h
  split at h
  · split at h
    · split at h
      · simp at h
      · next hx =>
        have := readExponentDigits_length hx
        grind
    · grind
  · grind

theorem readNumeral_shrinks (early : Problem) : Shrinks (readNumeral early) := by
  intro text x rest h
  unfold readNumeral at h
  have h₀ := length_takeSign '-' text
  simp only at h
  split at h
  · simp at h
  · next hw =>
    split at h
    · simp at h
    · next hf =>
      split at h
      · simp at h
      · next he =>
        have h₁ := readWhole_shrinks early hw
        have h₂ := readFraction_length hf
        have h₃ := readExponent_length he
        simp only [Except.ok.injEq, Prod.mk.injEq] at h
        rw [← h.2]
        omega

end AutomatonGrammar.Json
