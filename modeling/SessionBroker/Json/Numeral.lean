import SessionBroker.Json.Value

/-!
# Numerals

A numeral as it is written, in its parts, and the number it stands for. Numerals
without fraction and exponent that fit 64 bits are whole numbers. All others are
binary64 numbers: up to 64 bits of leading digits are taken as a whole number,
rounded once, and then multiplied or divided by a rounded power of ten. A numeral
whose number exceeds the format's range has no value.
-/

namespace SessionBroker.Json

structure Numeral where
  negative : Bool
  whole : List Char
  fraction : Option (List Char)
  /-- Whether the exponent is negative, and its digits. -/
  exponent : Option (Bool × List Char)
deriving Repr, DecidableEq

namespace Numeral

def digitValue (c : Char) : Nat := c.toNat - '0'.toNat

/-- The largest significand that is kept exactly. -/
def maxSignificand : Nat := Nat.pow 2 64 - 1

/-- The largest exponent that is read. -/
def maxExponent : Nat := Nat.pow 2 31 - 1

/-- Appends digits to a significand while it fits 64 bits; returns the digits that
were not taken. -/
def absorb (significand : Nat) : List Char → Nat × List Char
  | [] => (significand, [])
  | d :: ds =>
    let next := significand * 10 + digitValue d
    if maxSignificand < next then (significand, d :: ds) else absorb next ds

/-- The largest power of ten that the format holds. -/
def maxPower : Nat := 308

/-- The power of ten nearest to `10 ^ k`. -/
def powerOfTen (k : Nat) : Binary64 :=
  (Binary64.nearest? false (Nat.pow 10 k) 1).getD (.zero false)

/-- Divides by the largest power of ten while the exponent is out of reach. A significand
of 64 bits is zero after two such steps. -/
def scale? : Nat → Binary64 → Int → Option Binary64
  | 0, x, _ => some x
  | n + 1, x, e =>
    if e.natAbs ≤ maxPower then
      if 0 ≤ e then x.scaleUp? (powerOfTen e.toNat) else x.scaleDown? (powerOfTen (-e).toNat)
    else if x.isZero then some x
    else if 0 ≤ e then none
    else (x.scaleDown? (powerOfTen maxPower)).bind fun y => scale? n y (e + maxPower)

/-- The number `± significand · 10 ^ exponent`. -/
def ofParts? (negative : Bool) (significand : Nat) (exponent : Int) : Option Value := do
  let x ← Binary64.nearest? negative significand 1
  let y ← scale? 4 x exponent
  some (.decimal y)

/-- Applies the written exponent. One too large to read leaves zero, unless the
significand is not zero and the exponent positive. -/
def withExponent? (n : Numeral) (significand : Nat) (exponent : Int) : Option Value :=
  match n.exponent with
  | none => ofParts? n.negative significand exponent
  | some (negative, ds) =>
    let e := Nat.ofDigitChars 10 ds 0
    if maxExponent < e then
      if significand ≠ 0 ∧ ¬ negative then none else some (.decimal (.zero n.negative))
    else ofParts? n.negative significand (if negative then exponent - e else exponent + e)

/-- The value of a numeral. -/
def value? (n : Numeral) : Option Value :=
  let (significand, rest) := absorb 0 n.whole
  match n.fraction with
  | some ds =>
    let (significand, unread) := absorb significand ds
    n.withExponent? significand ((rest.length : Int) - (ds.length - unread.length : Nat))
  | none =>
    if n.exponent.isSome ∨ rest ≠ [] then n.withExponent? significand rest.length
    else if ¬ n.negative then some (.integer significand)
    else if significand ≠ 0 ∧ significand ≤ Nat.pow 2 63 then some (.integer (-significand))
    else ofParts? true significand 0

end Numeral

end SessionBroker.Json
