/-!
# Binary fractions of 64 bits

The finite positive numbers of the binary64 format are `c * 2 ^ q` with `c < 2 ^ 53` and
`-1074 ≤ q`. This module rounds a decimal number to the nearest of them, ties to the even
neighbour, and finds the shortest decimal digits that round back to a given one.
-/

namespace JavaSource

/-- A positive binary64 number `c * 2 ^ q`. -/
structure Binary64 where
  c : Nat
  q : Int

namespace Binary64

/-- The least exponent of the format. -/
def minExponent : Int := -1074

/-- The bound of the significands: `2 ^ 53`. -/
def maxSignificand : Nat := 9007199254740992

/-- The least significand where the exponent is not the least one: `2 ^ 52`. -/
def minNormal : Nat := 4503599627370496

/-- The quotient of two numbers rounded to the nearest integer, a half to the even neighbour. -/
def roundDiv (num den : Nat) : Nat :=
  let d := num / den
  let twice := 2 * (num % den)
  if twice < den then d else if twice > den then d + 1 else d + d % 2

/-- `n * 2 ^ k` over `d`, as a numerator and a denominator. -/
def scale (n d : Nat) (k : Int) : Nat × Nat :=
  if k < 0 then (n, d * Nat.pow 2 k.natAbs) else (n * Nat.pow 2 k.natAbs, d)

/-- The greatest `k` with `2 ^ k ≤ num / den`. -/
def floorLog2 (num den : Nat) : Int :=
  let k : Int := num.log2 - den.log2
  let p := scale den 1 k
  if num * p.2 < p.1 then k - 1 else k

/-- The binary64 number nearest to a positive fraction: `some none` when it rounds to zero, and
none when it is too large. -/
def ofFraction? (num den : Nat) : Option (Option Binary64) :=
  let wanted := floorLog2 num den - 52
  let q := if wanted < minExponent then minExponent else wanted
  let p := scale num den (-q)
  let c := roundDiv p.1 p.2
  if c = 0 then some none
  else if q + c.log2 ≥ 1024 then none
  else if c = maxSignificand then some (some ⟨minNormal, q + 1⟩)
  else some (some ⟨c, q⟩)

/-- The binary64 number nearest to `digits * 10 ^ exponent`, for a positive number of digits.
Exponents far outside the range of the format are decided without computing the power. -/
def ofDecimal? (digits : Nat) (exponent : Int) : Option (Option Binary64) :=
  let size : Int := (Nat.toDigits 10 digits).length
  if exponent + size > 310 then none
  else if exponent + size < -330 then some none
  else if exponent < 0 then ofFraction? digits (Nat.pow 10 exponent.natAbs)
  else ofFraction? (digits * Nat.pow 10 exponent.natAbs) 1

/-- The interval of the numbers that round to `x`, as two numerators over one denominator, and
whether its ends belong to it. Below a power of two the gap is half as wide. -/
def interval (x : Binary64) : Nat × Nat × Nat × Nat × Bool :=
  let p := scale 1 1 x.q
  let below := if x.c = minNormal ∧ x.q > minExponent then 1 else 2
  ((4 * x.c - below) * p.1, 4 * x.c * p.1, (4 * x.c + 2) * p.1, 4 * p.2, x.c % 2 = 0)

/-- The point of the grid `10 ^ k` nearest to `x` among those that round back to it, as a multiple
of `10 ^ k`; of two equally near points the upper one. -/
def onGrid? (x : Binary64) (k : Int) : Option Nat :=
  let (low, mid, high, den, closed) := x.interval
  let up := if k < 0 then Nat.pow 10 k.natAbs else 1
  let unit := if k < 0 then den else den * Nat.pow 10 k.natAbs
  let inside (d : Nat) : Bool :=
    let v := d * unit
    if closed then low * up ≤ v && v ≤ high * up else low * up < v && v < high * up
  let d := mid * up / unit
  let near := if 2 * (mid * up % unit) < unit then d else d + 1
  let far := if near = d then d + 1 else d
  if inside near then some near else if inside far then some far else none

/-- The shortest digits that round back to `x`, as an integer and the power of ten of its last
digit. The search starts at one digit; seventeen digits always suffice. -/
def shortest (x : Binary64) : Nat × Int :=
  let p := scale x.c 1 x.q
  let top : Int :=
    if p.1 ≥ p.2 then ((Nat.toDigits 10 (p.1 / p.2)).length : Int)
    else 1 - ((Nat.toDigits 10 (p.2 / p.1)).length : Int)
  go 18 top
where
  go : Nat → Int → Nat × Int
    | 0, k => (0, k)
    | n + 1, k =>
      match onGrid? x k with
      | some (d + 1) => (d + 1, k)
      | _ => go n (k - 1)

end Binary64

/-- Digits and the power of ten of the last one, in positional notation with at least one digit on
each side of the point. -/
def positional (digits : Nat) (exponent : Int) : List Char :=
  let ds := Nat.toDigits 10 digits
  if exponent ≥ 0 then ds ++ List.replicate exponent.natAbs '0' ++ ['.', '0']
  else
    let places := exponent.natAbs
    let padded := List.replicate (places + 1 - ds.length) '0' ++ ds
    padded.take (padded.length - places) ++ '.' :: padded.drop (padded.length - places)

end JavaSource
