/-!
# The shortest decimal that reads back

A binary floating-point number `m · 2^q` is what every real in an interval around it rounds to. Of the
decimals in that interval, `shortest` picks one with the fewest digits, and of those the nearest; a tie
goes to the even digit.
-/

namespace AutomatonGrammar

/-- A decimal `digits · 10^exponent`. -/
structure Decimal where
  digits : Nat
  exponent : Int
deriving DecidableEq, Repr

namespace Decimal

/-- A positive rational interval around a value, all three over one denominator. -/
structure Interval where
  low : Nat
  value : Nat
  high : Nat
  denominator : Nat
  closed : Bool

/-- The reals that round to `m · 2^q`. Below a power of two the neighbours are half as far apart. -/
def roundingInterval (m : Nat) (q : Int) (powerOfTwo : Bool) : Interval :=
  let up := Nat.pow 2 (q - 2).toNat
  { low := (4 * m - if powerOfTwo then 1 else 2) * up
    value := 4 * m * up
    high := (4 * m + 2) * up
    denominator := Nat.pow 2 (2 - q).toNat
    closed := m % 2 = 0 }

namespace Interval

/-- Whether `n / d` lies in the interval whose bounds are multiplied by `scale`. -/
def contains (i : Interval) (scale n d : Nat) : Bool :=
  if i.closed then i.low * scale * d ≤ n * i.denominator && n * i.denominator ≤ i.high * scale * d
  else i.low * scale * d < n * i.denominator && n * i.denominator < i.high * scale * d

/-- The multiple of `10^k` next to the value that lies in the interval: the nearer one where the one
below and the one above both do, the even one where they are equally near. -/
def onGrid? (i : Interval) (k : Int) : Option Nat :=
  let scale := Nat.pow 10 (-k).toNat
  let unit := Nat.pow 10 k.toNat
  let below := i.value * scale / (i.denominator * unit)
  let rest := i.value * scale % (i.denominator * unit)
  match i.contains scale (below * unit) 1, i.contains scale ((below + 1) * unit) 1 with
  | false, false => none
  | true, false => some below
  | false, true => some (below + 1)
  | true, true =>
    if 2 * rest < i.denominator * unit then some below
    else if 2 * rest > i.denominator * unit then some (below + 1)
    else some (if below % 2 = 0 then below else below + 1)

/-- The exponent of the leading digit of the value, for values above `10^-400`. -/
def magnitude (i : Interval) : Int :=
  ((toString (i.value * Nat.pow 10 400 / i.denominator)).length : Int) - 401

/-- Tries grids with `places` digits, then with one more, as long as `tries` lasts. -/
def search (i : Interval) (places : Nat) : (tries : Nat) → Option Decimal
  | 0 => none
  | tries + 1 =>
    let k := i.magnitude - places + 1
    match i.onGrid? k with
    | some digits => some ⟨digits, k⟩
    | none => search i (places + 1) tries

end Interval

/-- Moves the zeros at the end of the digits into the exponent. -/
def stripZeros (d : Decimal) : Decimal :=
  if h : d.digits ≠ 0 ∧ d.digits % 10 = 0 then stripZeros ⟨d.digits / 10, d.exponent + 1⟩ else d
termination_by d.digits
decreasing_by exact Nat.div_lt_self (Nat.pos_of_ne_zero h.1) (by decide)

/-- The shortest decimal for `m · 2^q`, which seventeen digits always suffice for. -/
def shortest (m : Nat) (q : Int) (powerOfTwo : Bool) : Decimal :=
  (((roundingInterval m q powerOfTwo).search 1 17).getD ⟨0, 0⟩).stripZeros

end Decimal

end AutomatonGrammar
