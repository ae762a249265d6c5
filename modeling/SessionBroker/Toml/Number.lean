import SessionBroker.Toml.Item
import SessionBroker.Toml.Text

/-!
# Numbers of TOML

Whole numbers of 64 bits, in four bases, and binary64 numbers. A digit group may be
parted from the next by an underscore. A positive number too large for binary64 is refused, a
negative one is not finite.
-/

namespace SessionBroker.Toml

/-- Digits of a base that follow a first digit, underscores between them. -/
def moreDigits (isDigit : Char → Bool) : List Char → List Char × List Char
  | '_' :: d :: s =>
    if isDigit d then
      let (ds, rest) := moreDigits isDigit s
      (d :: ds, rest)
    else ([], '_' :: d :: s)
  | d :: s =>
    if isDigit d then
      let (ds, rest) := moreDigits isDigit s
      (d :: ds, rest)
    else ([], d :: s)
  | [] => ([], [])

/-- One or more digits. -/
def readDigits (isDigit : Char → Bool) : List Char → Option (List Char × List Char)
  | d :: s =>
    if isDigit d then
      let (ds, rest) := moreDigits isDigit s
      some (d :: ds, rest)
    else none
  | [] => none

def readSign : List Char → Bool × List Char
  | '-' :: s => (true, s)
  | '+' :: s => (false, s)
  | s => (false, s)

/-- A decimal whole number without its sign: a zero, or digits that do not start with one. -/
def readWhole : List Char → Option (List Char × List Char)
  | '0' :: s => some (['0'], s)
  | s => readDigits isDigit s

/-- The digits of a fraction; none if there is no point. -/
def readFraction : List Char → Option (List Char × List Char)
  | '.' :: s => readDigits isDigit s
  | s => some ([], s)

/-- An exponent; `none` inside if there is no letter. -/
def readExponent : List Char → Option (Option Int × List Char)
  | c :: s =>
    if c = 'e' ∨ c = 'E' then
      let (negative, s) := readSign s
      (readDigits isDigit s).map fun p =>
        let n : Int := Nat.ofDigitChars 10 p.1 0
        (some (if negative then -n else n), p.2)
    else some (none, c :: s)
  | [] => some (none, [])

def inRange (i : Int) : Bool := -(Nat.pow 2 63 : Int) ≤ i && i < (Nat.pow 2 63 : Int)

def integer? (negative : Bool) (magnitude : Nat) : Option Item :=
  let i : Int := if negative then -(magnitude : Int) else magnitude
  if inRange i then some (.integer i) else none

def float? (negative : Bool) (digits : List Char) (exponent : Int) : Option Item :=
  match Binary64.ofDecimal? negative (Nat.ofDigitChars 10 digits 0) exponent with
  | some x => some (.float (some x))
  | none => if negative then some (.float none) else none

/-- A decimal number, after its sign. -/
def readDecimal (negative : Bool) (s : List Char) : Option (Item × List Char) := do
  let (whole, s) ← readWhole s
  let (fraction, s) ← readFraction s
  let (exponent, s) ← readExponent s
  if fraction.isEmpty ∧ exponent.isNone then
    (integer? negative (Nat.ofDigitChars 10 whole 0)).map fun i => (i, s)
  else
    (float? negative (whole ++ fraction) (exponent.getD 0 - fraction.length)).map fun i => (i, s)

/-- A whole number in a base of its own, after the base's letter. -/
def readInBase (base : Nat) (isDigit : Char → Bool) (s : List Char) :
    Option (Item × List Char) :=
  match readDigits isDigit s with
  | none => none
  | some (ds, s) =>
    let n := ds.foldl (fun n d => n * base + (Json.Written.hexValue? d).getD 0) 0
    (integer? false n).map fun i => (i, s)

def readNumber (s : List Char) : Option (Item × List Char) :=
  match s with
  | '0' :: 'x' :: s => readInBase 16 isHexDigit s
  | '0' :: 'o' :: s => readInBase 8 (fun c => '0' ≤ c && c ≤ '7') s
  | '0' :: 'b' :: s => readInBase 2 (fun c => c == '0' || c == '1') s
  | s =>
    let (negative, s) := readSign s
    match s with
    | 'i' :: 'n' :: 'f' :: s => some (.float none, s)
    | 'n' :: 'a' :: 'n' :: s => some (.float none, s)
    | s => readDecimal negative s

end SessionBroker.Toml
