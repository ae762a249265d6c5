/-!
# Binary64 numbers, exactly

A finite number of the binary64 format is a sign, a significand and a power of
two. Everything here is whole-number arithmetic: a ratio of two natural numbers
is rounded to the nearest such number, a tie going to the even significand, and
products and quotients are the rounded exact ones. A result past the largest
finite number is `none`.
-/

namespace SessionBroker

/-- The finite number `± significand · 2 ^ exponent`. Rounding yields significands
below `2 ^ 53` and exponents from `-1074` to `971`, the exponent being `-1074`
whenever the significand is below `2 ^ 52`. -/
structure Binary64 where
  negative : Bool
  significand : Nat
  exponent : Int
deriving DecidableEq, Repr, Inhabited

namespace Binary64

/-- `num / den` to the nearest whole number, a half going to the even neighbour. -/
def roundDiv (num den : Nat) : Nat :=
  let q := num / den
  let r := num % den
  if 2 * r < den then q
  else if den < 2 * r then q + 1
  else q + q % 2

/-- The `k` with `2 ^ k ≤ num / den < 2 ^ (k + 1)`, for positive arguments. -/
def floorLog2 (num den : Nat) : Int :=
  let k : Int := (Nat.log2 num : Int) - (Nat.log2 den : Int)
  if den * Nat.pow 2 k.toNat ≤ num * Nat.pow 2 (-k).toNat then k else k - 1

def zero (negative : Bool) : Binary64 := ⟨negative, 0, -1074⟩

/-- The number nearest to `± num / den`. -/
def nearest? (negative : Bool) (num den : Nat) : Option Binary64 :=
  if num = 0 then some (zero negative)
  else
    let e := max (floorLog2 num den - 52) (-1074)
    let q := roundDiv (num * Nat.pow 2 (-e).toNat) (den * Nat.pow 2 e.toNat)
    let x : Binary64 :=
      if q = Nat.pow 2 53 then ⟨negative, Nat.pow 2 52, e + 1⟩ else ⟨negative, q, e⟩
    if 971 < x.exponent then none else some x

/-- The number nearest to `± digits · 10 ^ exponent`. Exponents far outside the
format's range are settled without computing the power. -/
def ofDecimal? (negative : Bool) (digits : Nat) (exponent : Int) : Option Binary64 :=
  let magnitude := ((Nat.toDigits 10 digits).length : Int) + exponent
  if digits = 0 ∨ magnitude < -330 then some (zero negative)
  else if 310 < magnitude then none
  else nearest? negative (digits * Nat.pow 10 exponent.toNat) (Nat.pow 10 (-exponent).toNat)

def isZero (x : Binary64) : Bool := x.significand == 0

/-- The magnitude as a ratio of natural numbers. -/
def ratio (x : Binary64) : Nat × Nat :=
  (x.significand * Nat.pow 2 x.exponent.toNat, Nat.pow 2 (-x.exponent).toNat)

/-- The rounded product of two magnitudes, with the sign of the first. -/
def scaleUp? (x y : Binary64) : Option Binary64 :=
  nearest? x.negative (x.ratio.1 * y.ratio.1) (x.ratio.2 * y.ratio.2)

/-- The rounded quotient of two magnitudes, with the sign of the first. -/
def scaleDown? (x y : Binary64) : Option Binary64 :=
  nearest? x.negative (x.ratio.1 * y.ratio.2) (x.ratio.2 * y.ratio.1)

/-- Equality of the numbers: the two zeros are equal. -/
def sameNumber (x y : Binary64) : Bool := x == y || (x.isZero && y.isZero)

/-! ## The fewest digits that read back -/

/-- The number of digits of `num / den` before the decimal point; zero or negative
when the ratio is below one and starts with that many zeros after the point. -/
def pointPosition (num den : Nat) : Int :=
  if den ≤ num then (Nat.toDigits 10 (num / den)).length
  else
    let l := (Nat.toDigits 10 (den / num)).length
    if num * Nat.pow 10 (l - 1) = den then 2 - (l : Int) else 1 - (l : Int)

/-- The better of the two multiples of `10 ^ p` around `m · 2 ^ e`, if one of them
lies where every number rounds to `m · 2 ^ e`. Of two such, the nearer is taken,
and of two equally near the even one. -/
def onGrid? (m : Nat) (e p : Int) : Option Nat :=
  let unit := Nat.pow 10 p.toNat * Nat.pow 2 (2 - e).toNat
  let scale := Nat.pow 2 (e - 2).toNat * Nat.pow 10 (-p).toNat
  let mid := 4 * m * scale
  let low := (if m = Nat.pow 2 52 ∧ -1074 < e then 4 * m - 1 else 4 * m - 2) * scale
  let high := (4 * m + 2) * scale
  let rounds (c : Nat) : Bool :=
    if m % 2 = 0 then low ≤ c * unit && c * unit ≤ high
    else low < c * unit && c * unit < high
  let c := mid / unit
  match rounds c, rounds (c + 1) with
  | true, true =>
    let below := mid - c * unit
    let above := (c + 1) * unit - mid
    if below < above then some c
    else if above < below then some (c + 1)
    else some (c + c % 2)
  | true, false => some c
  | false, true => some (c + 1)
  | false, false => none

/-- Digits and exponent of the shortest decimal that reads back as `m · 2 ^ e`:
the coarsest of the grids of one to seventeen digits with a point that does. -/
def shortest (m : Nat) (e : Int) : Nat × Int :=
  let k := pointPosition (m * Nat.pow 2 e.toNat) (Nat.pow 2 (-e).toNat)
  let onDigits (i : Nat) : Option (Nat × Int) :=
    let p := k - ((i : Int) + 1)
    (onGrid? m e p).map fun c => (c, p)
  ((List.range 17).findSome? onDigits).getD (m, 0)

end Binary64

end SessionBroker
