import SessionBroker.Toml.Moment
import SessionBroker.Toml.Number
import SessionBroker.Toml.Table

/-!
# Values of TOML

The readers of values count down a number that starts above twice the length of the text, and each
character costs them at most two. `levels` is how deep arrays and inline tables may still be nested.
-/

namespace SessionBroker.Toml

/-- The deepest nesting of arrays and inline tables. -/
def maxLevels : Nat := 79

def readMomentOrNumber (s : List Char) : Option (Item × List Char) :=
  match readMoment s with
  | some (text, s) => some (.moment (String.ofList text), s)
  | none => readNumber s

mutual

def readValue : Nat → (levels : Nat) → List Char → Option (Item × List Char)
  | 0, _, _ => none
  | n + 1, levels, s =>
    match s with
    | '"' :: _ => (readString s).map fun p => (.string (String.ofList p.1), p.2)
    | '\'' :: _ => (readString s).map fun p => (.string (String.ofList p.1), p.2)
    | '[' :: s =>
      if levels = 0 then none
      else (readItems n (levels - 1) s).map fun p => (.array p.1, p.2)
    | '\x7b' :: s =>
      if levels = 0 then none
      else
        match skipBlanks s with
        | '\x7d' :: s => some (.inlineTable [], s)
        | s => (readPairs n (levels - 1) [] s).map fun p => (.inlineTable p.1, p.2)
    | 't' :: 'r' :: 'u' :: 'e' :: s => some (.boolean true, s)
    | 'f' :: 'a' :: 'l' :: 's' :: 'e' :: s => some (.boolean false, s)
    | s => readMomentOrNumber s

/-- The items of an array up to its closing bracket. A comma may stand behind the last one. -/
def readItems : Nat → (levels : Nat) → List Char → Option (List Item × List Char)
  | 0, _, _ => none
  | n + 1, levels, s =>
    match skipSpace false s with
    | ']' :: s => some ([], s)
    | s =>
      match readValue n levels s with
      | none => none
      | some (i, s) =>
        match skipSpace false s with
        | ',' :: s => (readItems n levels s).map fun p => (i :: p.1, p.2)
        | ']' :: s => some ([i], s)
        | _ => none

/-- Adds the pairs of an inline table up to its closing brace. -/
def readPairs : Nat → (levels : Nat) → Entries → List Char → Option (Entries × List Char)
  | 0, _, _, _ => none
  | n + 1, levels, es, s =>
    match readKey s with
    | some (path, k, '=' :: s) =>
      match readValue n levels (skipBlanks s) with
      | none => none
      | some (i, s) =>
        match addPair? path k i es with
        | none => none
        | some es =>
          match skipBlanks s with
          | ',' :: s => readPairs n levels es s
          | '\x7d' :: s => some (es, s)
          | _ => none
    | _ => none

end

end SessionBroker.Toml
