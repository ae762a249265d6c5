import SessionBroker.Json.Numeral

/-!
# The grammar of JSON

`Written` is a document as it is written: numerals in their parts, strings with
their escapes unresolved, objects with their fields in the order of the text, repeated
keys included. The grammar sets no limit to nesting; what a part means is decided where it is
read.

Every reader here pairs what it read with the rest of the text. The readers of values count
down a number that starts above twice the length of the text, and each character costs them
at most two.
-/

namespace SessionBroker.Json

inductive Written where
  | null
  | bool (b : Bool)
  | number (n : Numeral)
  | string (raw : List Char)
  | array (items : List Written)
  | object (fields : List (List Char × Written))
deriving Inhabited

namespace Written

def isBlank (c : Char) : Bool := c == ' ' || c == '\t' || c == '\n' || c == '\r'

def skipBlanks (s : List Char) : List Char := s.dropWhile isBlank

def isDigit (c : Char) : Bool := '0' ≤ c && c ≤ '9'

def hexValue? (c : Char) : Option Nat :=
  if '0' ≤ c ∧ c ≤ '9' then some (c.toNat - '0'.toNat)
  else if 'a' ≤ c ∧ c ≤ 'f' then some (c.toNat - 'a'.toNat + 10)
  else if 'A' ≤ c ∧ c ≤ 'F' then some (c.toNat - 'A'.toNat + 10)
  else none

/-- The number that four hexadecimal digits stand for. -/
def codeUnit? (a b c d : Char) : Option Nat := do
  let a ← hexValue? a
  let b ← hexValue? b
  let c ← hexValue? c
  let d ← hexValue? d
  some (((a * 16 + b) * 16 + c) * 16 + d)

/-- The character that a backslash and this letter stand for. -/
def escaped? (c : Char) : Option Char :=
  match c with
  | '"' => some '"'
  | '\\' => some '\\'
  | '/' => some '/'
  | 'b' => some '\x08'
  | 'f' => some '\x0c'
  | 'n' => some '\n'
  | 'r' => some '\r'
  | 't' => some '\t'
  | _ => none

/-! ## Strings -/

/-- The text of a string up to its closing quote, escapes checked but not resolved. -/
def readString : List Char → Option (List Char × List Char)
  | [] => none
  | '"' :: s => some ([], s)
  | '\\' :: 'u' :: a :: b :: c :: d :: s =>
    match codeUnit? a b c d, readString s with
    | some _, some (raw, rest) => some ('\\' :: 'u' :: a :: b :: c :: d :: raw, rest)
    | _, _ => none
  | '\\' :: e :: s =>
    match escaped? e, readString s with
    | some _, some (raw, rest) => some ('\\' :: e :: raw, rest)
    | _, _ => none
  | c :: s =>
    if c.toNat < 0x20 ∨ c = '\\' then none
    else (readString s).map fun p => (c :: p.1, p.2)

/-- Resolves the escapes of a string. Two escaped halves of a character above U+FFFF
become that character; a half that stands alone is refused. -/
def unescape? : List Char → Option (List Char)
  | [] => some []
  | '\\' :: 'u' :: a :: b :: c :: d :: s =>
    match codeUnit? a b c d with
    | none => none
    | some high =>
      if 0xd800 ≤ high ∧ high < 0xdc00 then
        match s with
        | '\\' :: 'u' :: a :: b :: c :: d :: s =>
          match codeUnit? a b c d with
          | none => none
          | some low =>
            if 0xdc00 ≤ low ∧ low < 0xe000 then
              let code := 0x10000 + (high - 0xd800) * 0x400 + (low - 0xdc00)
              (unescape? s).map fun t => Char.ofNat code :: t
            else none
        | _ => none
      else if 0xdc00 ≤ high ∧ high < 0xe000 then none
      else (unescape? s).map fun t => Char.ofNat high :: t
  | '\\' :: e :: s =>
    match escaped? e with
    | none => none
    | some c => (unescape? s).map fun t => c :: t
  | c :: s => (unescape? s).map fun t => c :: t

/-- The string that a raw text between quotes stands for. -/
def stringOf? (raw : List Char) : Option String := (unescape? raw).map String.ofList

/-! ## Numerals -/

def readDigits (s : List Char) : List Char × List Char := (s.takeWhile isDigit, s.dropWhile isDigit)

/-- A zero, or digits that do not start with one. -/
def readWhole : List Char → Option (List Char × List Char)
  | '0' :: s => some (['0'], s)
  | s =>
    match readDigits s with
    | ([], _) => none
    | (ds, rest) => some (ds, rest)

def readFraction : List Char → Option (Option (List Char) × List Char)
  | '.' :: s =>
    match readDigits s with
    | ([], _) => none
    | (ds, rest) => some (some ds, rest)
  | s => some (none, s)

/-- The digits of an exponent, after its letter and sign. -/
def readPower (negative : Bool) (s : List Char) :
    Option (Option (Bool × List Char) × List Char) :=
  match readDigits s with
  | ([], _) => none
  | (ds, rest) => some (some (negative, ds), rest)

def readSignedPower : List Char → Option (Option (Bool × List Char) × List Char)
  | '+' :: s => readPower false s
  | '-' :: s => readPower true s
  | s => readPower false s

def readExponent : List Char → Option (Option (Bool × List Char) × List Char)
  | 'e' :: s => readSignedPower s
  | 'E' :: s => readSignedPower s
  | s => some (none, s)

def readUnsigned (negative : Bool) (s : List Char) : Option (Numeral × List Char) := do
  let (whole, s) ← readWhole s
  let (fraction, s) ← readFraction s
  let (exponent, s) ← readExponent s
  some (⟨negative, whole, fraction, exponent⟩, s)

def readNumeral : List Char → Option (Numeral × List Char)
  | '-' :: s => readUnsigned true s
  | s => readUnsigned false s

/-! ## Documents -/

mutual

/-- Reads one value, blanks before it included. -/
def readValue : Nat → List Char → Option (Written × List Char)
  | 0, _ => none
  | n + 1, s =>
    match skipBlanks s with
    | 'n' :: 'u' :: 'l' :: 'l' :: s => some (.null, s)
    | 't' :: 'r' :: 'u' :: 'e' :: s => some (.bool true, s)
    | 'f' :: 'a' :: 'l' :: 's' :: 'e' :: s => some (.bool false, s)
    | '"' :: s => (readString s).map fun p => (.string p.1, p.2)
    | '[' :: s =>
      match skipBlanks s with
      | ']' :: s => some (.array [], s)
      | s => (readItems n s).map fun p => (.array p.1, p.2)
    | '\x7b' :: s =>
      match skipBlanks s with
      | '\x7d' :: s => some (.object [], s)
      | s => (readFields n s).map fun p => (.object p.1, p.2)
    | s => (readNumeral s).map fun p => (.number p.1, p.2)

/-- Reads the items of an array up to its closing bracket. -/
def readItems : Nat → List Char → Option (List Written × List Char)
  | 0, _ => none
  | n + 1, s =>
    match readValue n s with
    | none => none
    | some (v, s) =>
      match skipBlanks s with
      | ',' :: s => (readItems n s).map fun p => (v :: p.1, p.2)
      | ']' :: s => some ([v], s)
      | _ => none

/-- Reads the fields of an object up to its closing brace. -/
def readFields : Nat → List Char → Option (List (List Char × Written) × List Char)
  | 0, _ => none
  | n + 1, s =>
    match skipBlanks s with
    | '"' :: s =>
      match readString s with
      | none => none
      | some (k, s) =>
        match skipBlanks s with
        | ':' :: s =>
          match readValue n s with
          | none => none
          | some (v, s) =>
            match skipBlanks s with
            | ',' :: s => (readFields n s).map fun p => ((k, v) :: p.1, p.2)
            | '\x7d' :: s => some ([(k, v)], s)
            | _ => none
        | _ => none
    | _ => none

end

/-- The document that a whole text is. -/
def ofChars? (s : List Char) : Option Written :=
  match readValue (2 * s.length + 2) s with
  | some (v, rest) => if skipBlanks rest = [] then some v else none
  | none => none

end Written

end SessionBroker.Json
