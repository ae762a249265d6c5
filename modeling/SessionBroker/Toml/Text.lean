import SessionBroker.Json.Written

/-!
# Strings, keys and blanks of TOML

Every reader pairs what it read with the rest of the text. Readers of quoted strings start
behind the opening quotes; those that skip a stretch of unknown length count down a number that
starts at the length of the text, each round taking at least one character.
-/

namespace SessionBroker.Toml

/-- Characters that comments may hold. -/
def isPlain (c : Char) : Bool :=
  c == '\t' || (' ' ≤ c && c ≤ '~') || 0x80 ≤ c.toNat

def isBlank (c : Char) : Bool := c == ' ' || c == '\t'

def isDigit (c : Char) : Bool := '0' ≤ c && c ≤ '9'

def isHexDigit (c : Char) : Bool := (Json.Written.hexValue? c).isSome

def isBareKey (c : Char) : Bool :=
  isDigit c || ('a' ≤ c && c ≤ 'z') || ('A' ≤ c && c ≤ 'Z') || c == '_' || c == '-'

def skipBlanks (s : List Char) : List Char := s.dropWhile isBlank

/-- Skips blanks and line breaks. -/
def skipBlankLines : List Char → List Char
  | '\r' :: '\n' :: s => skipBlankLines s
  | c :: s => if isBlank c || c == '\n' then skipBlankLines s else c :: s
  | [] => []

/-- Skips blanks, line breaks and comments. -/
def skipSpace (inComment : Bool) : List Char → List Char
  | '\r' :: '\n' :: s => skipSpace false s
  | c :: s =>
    if c == '\n' then skipSpace false s
    else if inComment then
      if isPlain c then skipSpace true s else c :: s
    else if isBlank c then skipSpace false s
    else if c == '#' then skipSpace true s
    else c :: s
  | [] => []

/-- The rest after the end of the line, of which only blanks and a comment may be left. -/
def endOfLine? (s : List Char) : Option (List Char) :=
  let s := skipBlanks s
  let s := match s with
    | '#' :: s => s.dropWhile isPlain
    | s => s
  match s with
  | [] => some []
  | '\n' :: s => some s
  | '\r' :: '\n' :: s => some s
  | _ => none

/-! ## Strings -/

/-- The number that hexadecimal digits stand for. -/
def hexNumber? (ds : List Char) : Option Nat :=
  ds.foldlM (fun n d => (Json.Written.hexValue? d).map fun v => n * 16 + v) 0

/-- The character that so many hexadecimal digits name; it is not half of another. -/
def readCodePoint (digits : Nat) (s : List Char) : Option (Char × List Char) :=
  let ds := s.take digits
  if ds.length < digits then none
  else
    match hexNumber? ds with
    | none => none
    | some n => if h : n.isValidChar then some (Char.ofNatAux n h, s.drop digits) else none

/-- The character of an escape, after its backslash. -/
def readEscape : List Char → Option (Char × List Char)
  | 'b' :: s => some ('\x08', s)
  | 't' :: s => some ('\t', s)
  | 'n' :: s => some ('\n', s)
  | 'f' :: s => some ('\x0c', s)
  | 'r' :: s => some ('\r', s)
  | '"' :: s => some ('"', s)
  | '\\' :: s => some ('\\', s)
  | 'u' :: s => readCodePoint 4 s
  | 'U' :: s => readCodePoint 8 s
  | _ => none

/-- A string on one line between double quotes. -/
def readBasic : Nat → List Char → Option (List Char × List Char)
  | 0, _ => none
  | _, [] => none
  | _, '"' :: s => some ([], s)
  | n + 1, '\\' :: s =>
    match readEscape s with
    | none => none
    | some (c, s) => (readBasic n s).map fun p => (c :: p.1, p.2)
  | n + 1, c :: s =>
    if isPlain c then (readBasic n s).map fun p => (c :: p.1, p.2) else none

/-- A string on one line between single quotes, which has no escapes. -/
def readLiteral : List Char → Option (List Char × List Char)
  | [] => none
  | '\'' :: s => some ([], s)
  | c :: s => if isPlain c then (readLiteral s).map fun p => (c :: p.1, p.2) else none

/-- The end of a string of several lines, after three quotes: up to two more quotes belong to the
string. -/
def closingQuotes (quote : Char) : List Char → List Char × List Char
  | c :: d :: s =>
    if c = quote then
      if d = quote then ([quote, quote], s) else ([quote], d :: s)
    else ([], c :: d :: s)
  | [c] => if c = quote then ([quote], []) else ([], [c])
  | [] => ([], [])

/-- After a backslash: the rest behind a line break and the blanks around it. -/
def escapedLineBreak? (s : List Char) : Option (List Char) :=
  match skipBlanks s with
  | '\n' :: s => some (skipBlankLines s)
  | '\r' :: '\n' :: s => some (skipBlankLines s)
  | _ => none

/-- A string of several lines between threefold quotes; `escapes` says whether a backslash
escapes. -/
def readLines (quote : Char) (escapes : Bool) : Nat → List Char → Option (List Char × List Char)
  | 0, _ => none
  | _, [] => none
  | n + 1, c :: s =>
    if c = quote then
      if s.take 2 = [quote, quote] then some (closingQuotes quote (s.drop 2))
      else (readLines quote escapes n s).map fun p => (c :: p.1, p.2)
    else if c = '\\' ∧ escapes then
      match escapedLineBreak? s with
      | some s => readLines quote escapes n s
      | none =>
        match readEscape s with
        | none => none
        | some (c, s) => (readLines quote escapes n s).map fun p => (c :: p.1, p.2)
    else if c = '\r' then
      match s with
      | '\n' :: s => (readLines quote escapes n s).map fun p => ('\n' :: p.1, p.2)
      | _ => none
    else if isPlain c ∨ c = '\n' then
      (readLines quote escapes n s).map fun p => (c :: p.1, p.2)
    else none

/-- A line break right behind the opening quotes does not count. -/
def skipFirstBreak : List Char → List Char
  | '\n' :: s => s
  | '\r' :: '\n' :: s => s
  | s => s

/-- A string of any of the four forms. -/
def readString (s : List Char) : Option (List Char × List Char) :=
  match s with
  | '"' :: '"' :: '"' :: s => readLines '"' true s.length (skipFirstBreak s)
  | '"' :: s => readBasic s.length s
  | '\'' :: '\'' :: '\'' :: s => readLines '\'' false s.length (skipFirstBreak s)
  | '\'' :: s => readLiteral s
  | _ => none

/-! ## Keys -/

def readSimpleKey (s : List Char) : Option (String × List Char) :=
  match s with
  | '"' :: s => (readBasic s.length s).map fun p => (String.ofList p.1, p.2)
  | '\'' :: s => (readLiteral s).map fun p => (String.ofList p.1, p.2)
  | s =>
    match s.takeWhile isBareKey with
    | [] => none
    | k => some (String.ofList k, s.dropWhile isBareKey)

/-- The parts of a key, blanks around them included. -/
def readParts : Nat → List Char → Option (List String × List Char)
  | 0, _ => none
  | n + 1, s =>
    match readSimpleKey (skipBlanks s) with
    | none => none
    | some (k, s) =>
      match skipBlanks s with
      | '.' :: s => (readParts n s).map fun p => (k :: p.1, p.2)
      | s => some ([k], s)

/-- Keys have fewer parts. -/
def maxParts : Nat := 80

/-- A key: the parts that lead to its table, and the last one. -/
def readKey (s : List Char) : Option (List String × String × List Char) :=
  match readParts s.length s with
  | none => none
  | some (ks, s) =>
    match ks.getLast? with
    | none => none
    | some k => if ks.length < maxParts then some (ks.dropLast, k, s) else none

end SessionBroker.Toml
