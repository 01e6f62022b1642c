import AutomatonGrammar.Decimal.Shortest

/-!
# Double precision numbers and decimals

`scale` makes a number from decimal digits and an exponent by one multiplication or division for every
308 powers of ten. `shown` is the text of a number: its shortest digits, positional from `0.00001` up to
sixteen digits in front of the point, with an exponent elsewhere.
-/

namespace AutomatonGrammar.Decimal

/-- `10^n` rounded to the nearest number, for `n ≤ 308`. -/
def powerOfTen (n : Nat) : Float := Float.ofScientific 1 false n

/-- `f · 10^e`, or nothing where that is too large. -/
def scaleFrom (f : Float) (e : Int) : Option Float :=
  if 0 ≤ e then
    if e ≤ 308 then
      let g := f * powerOfTen e.toNat
      if g.isInf then none else some g
    else if f == 0 then some f else none
  else if -308 ≤ e then some (f / powerOfTen (-e).toNat)
  else if f == 0 then some f
  else scaleFrom (f / powerOfTen 308) (e + 308)
termination_by (-e).toNat

/-- `digits · 10^e`, or nothing where that is too large. The digits are at most 64 bits. -/
def scale (digits : Nat) (e : Int) : Option Float := scaleFrom digits.toUInt64.toFloat e

/-- The text of a decimal whose digits are `ds` and whose leading digit has exponent `e`. -/
def layout (ds : List Char) (e : Int) : List Char :=
  if 0 ≤ e ∧ e < 16 then
    let whole := e.toNat + 1
    let behind := ds.drop whole
    (ds.take whole ++ List.replicate (whole - ds.length) '0') ++ ['.'] ++
      (if behind = [] then ['0'] else behind)
  else if -5 ≤ e ∧ e < 0 then
    ['0', '.'] ++ List.replicate ((-e).toNat - 1) '0' ++ ds
  else
    let behind := ds.drop 1
    ds.take 1 ++ (if behind = [] then [] else '.' :: behind) ++
      ['e', if e < 0 then '-' else '+'] ++ (toString e.natAbs).toList

/-- The text of a finite number. -/
def shown (f : Float) : String :=
  let bits := f.toBits.toNat
  let sign := if bits ≥ Nat.pow 2 63 then ['-'] else []
  let biased := bits / Nat.pow 2 52 % Nat.pow 2 11
  let fraction := bits % Nat.pow 2 52
  if biased = 0 ∧ fraction = 0 then .ofList (sign ++ ['0', '.', '0'])
  else
    let m := if biased = 0 then fraction else Nat.pow 2 52 + fraction
    let d := shortest m ((max biased 1 : Nat) - 1075) (fraction = 0 && 1 < biased)
    let ds := (toString d.digits).toList
    .ofList (sign ++ layout ds (d.exponent + ds.length - 1))

end AutomatonGrammar.Decimal
