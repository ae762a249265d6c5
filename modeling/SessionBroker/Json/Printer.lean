import SessionBroker.Json.Value

/-!
# Compact JSON text

No blanks; strings escape the quote, the backslash and the control characters
below U+0020; binary64 numbers have the fewest digits that read back, positional
from `1e-5` up to `1e16` and always with a fraction there, else with a signed
exponent.
-/

namespace SessionBroker.Json

/-! ## Strings -/

/-- The lower-case hexadecimal digit of a number below sixteen. -/
def hexDigit (n : Nat) : Char :=
  if n < 10 then Char.ofNat ('0'.toNat + n) else Char.ofNat ('a'.toNat + (n - 10))

def escape (c : Char) : List Char :=
  if c = '"' then ['\\', '"']
  else if c = '\\' then ['\\', '\\']
  else if c.toNat < 0x20 then
    match c.toNat with
    | 0x08 => ['\\', 'b']
    | 0x09 => ['\\', 't']
    | 0x0a => ['\\', 'n']
    | 0x0c => ['\\', 'f']
    | 0x0d => ['\\', 'r']
    | n => ['\\', 'u', '0', '0', hexDigit (n / 16), hexDigit (n % 16)]
  else [c]

def renderString (s : String) : List Char :=
  '"' :: s.toList.flatMap escape ++ ['"']

/-! ## Numbers -/

def renderNat (n : Nat) : List Char := Nat.toDigits 10 n

def renderInt (i : Int) : List Char :=
  if i < 0 then '-' :: renderNat i.natAbs else renderNat i.natAbs

/-- Digits read as `0.d₁d₂… · 10 ^ point`. -/
def renderDigits (ds : List Char) (point : Int) : List Char :=
  if -5 < point ∧ point ≤ 16 then
    if point ≤ 0 then '0' :: '.' :: List.replicate (-point).toNat '0' ++ ds
    else
      let n := point.toNat
      if ds.length ≤ n then ds ++ List.replicate (n - ds.length) '0' ++ ['.', '0']
      else ds.take n ++ '.' :: ds.drop n
  else
    let fraction := if ds.length ≤ 1 then [] else '.' :: ds.drop 1
    let power := point - 1
    let sign := if power < 0 then '-' else '+'
    ds.take 1 ++ fraction ++ 'e' :: sign :: renderNat power.natAbs

def renderBinary64 (x : Binary64) : List Char :=
  let magnitude :=
    if x.isZero then ['0', '.', '0']
    else
      let d := Binary64.shortest x.significand x.exponent
      let ds := Nat.toDigits 10 d.1
      renderDigits (ds.reverse.dropWhile (· == '0')).reverse (ds.length + d.2)
  if x.negative then '-' :: magnitude else magnitude

/-! ## Values -/

/-- Texts with commas between them. -/
def commaSeparated : List (List Char) → List Char
  | [] => []
  | [t] => t
  | t :: ts => t ++ ',' :: commaSeparated ts

def bracketed (items : List (List Char)) : List Char := '[' :: commaSeparated items ++ [']']

/-- An object's text, from its keys and the texts of their values. -/
def braced (fields : List (String × List Char)) : List Char :=
  '\x7b' :: commaSeparated (fields.map fun f => renderString f.1 ++ ':' :: f.2) ++ ['\x7d']

namespace Value

def render : Value → List Char
  | .null => ['n', 'u', 'l', 'l']
  | .bool true => ['t', 'r', 'u', 'e']
  | .bool false => ['f', 'a', 'l', 's', 'e']
  | .integer i => renderInt i
  | .decimal x => renderBinary64 x
  | .string s => renderString s
  | .array items => bracketed (renderItems items)
  | .object fields => braced (renderFields fields)
where
  renderItems : List Value → List (List Char)
    | [] => []
    | v :: vs => render v :: renderItems vs
  renderFields : List (String × Value) → List (String × List Char)
    | [] => []
    | (k, v) :: fs => (k, render v) :: renderFields fs

def text (v : Value) : String := String.ofList v.render

end Value

end SessionBroker.Json
