import SessionBroker.Toml.Text

/-!
# Dates and times of TOML

Readers return the normalised text: `T` between date and time, at most nine digits of a
second's fraction without zeros at its end, `Z` in upper case and no negative zero offset.
-/

namespace SessionBroker.Toml

/-- A number of exactly so many digits between two bounds, with its text. -/
def readField (digits low high : Nat) (s : List Char) : Option (Nat × List Char × List Char) :=
  let ds := s.take digits
  if ds.length = digits ∧ ds.all isDigit then
    let n := Nat.ofDigitChars 10 ds 0
    if low ≤ n ∧ n ≤ high then some (n, ds, s.drop digits) else none
  else none

def readChar (c : Char) : List Char → Option (List Char)
  | d :: s => if d = c then some s else none
  | [] => none

def isLeapYear (y : Nat) : Bool := y % 4 == 0 && (y % 100 != 0 || y % 400 == 0)

def daysInMonth (year month : Nat) : Nat :=
  if month = 2 then if isLeapYear year then 29 else 28
  else if month = 4 ∨ month = 6 ∨ month = 9 ∨ month = 11 then 30
  else 31

def readDate (s : List Char) : Option (List Char × List Char) := do
  let (year, yearText, s) ← readField 4 0 9999 s
  let s ← readChar '-' s
  let (month, monthText, s) ← readField 2 1 12 s
  let s ← readChar '-' s
  let (_, dayText, s) ← readField 2 1 (daysInMonth year month) s
  some (yearText ++ '-' :: monthText ++ '-' :: dayText, s)

/-- The fraction of a second; nothing if there is no point with digits. -/
def readSecondFraction (s : List Char) : List Char × List Char :=
  match s with
  | '.' :: t =>
    match t.takeWhile isDigit with
    | [] => ([], s)
    | ds =>
      match ((ds.take 9).reverse.dropWhile (· == '0')).reverse with
      | [] => ([], t.dropWhile isDigit)
      | kept => ('.' :: kept, t.dropWhile isDigit)
  | _ => ([], s)

/-- A time of day; a minute may have a sixty-first second. -/
def readTime (s : List Char) : Option (List Char × List Char) := do
  let (_, hour, s) ← readField 2 0 23 s
  let s ← readChar ':' s
  let (_, minute, s) ← readField 2 0 59 s
  let s ← readChar ':' s
  let (_, second, s) ← readField 2 0 60 s
  let (fraction, s) := readSecondFraction s
  some (hour ++ ':' :: minute ++ ':' :: second ++ fraction, s)

/-- The distance from universal time; nothing if there is none. -/
def readOffset (s : List Char) : List Char × List Char :=
  match s with
  | c :: t =>
    if c = 'Z' ∨ c = 'z' then (['Z'], t)
    else if c = '+' ∨ c = '-' then
      let offset := do
        let (h, hour, t) ← readField 2 0 23 t
        let t ← readChar ':' t
        let (m, minute, t) ← readField 2 0 59 t
        let sign := if h = 0 ∧ m = 0 then '+' else c
        some (sign :: hour ++ ':' :: minute, t)
      offset.getD ([], s)
    else ([], s)
  | [] => ([], s)

/-- A date, a date with a time, or a time. A blank may part the two, and is not part of a date
that stands alone. -/
def readMoment (s : List Char) : Option (List Char × List Char) :=
  match readDate s with
  | none => readTime s
  | some (date, rest) =>
    match rest with
    | c :: t =>
      if c = 'T' ∨ c = 't' ∨ c = ' ' then
        match readTime t with
        | none => some (date, rest)
        | some (time, t) =>
          let (offset, t) := readOffset t
          some (date ++ 'T' :: time ++ offset, t)
      else some (date, rest)
    | [] => some (date, rest)

end SessionBroker.Toml
