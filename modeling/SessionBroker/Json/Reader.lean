import SessionBroker.Json.Written

/-!
# Reading JSON values

A written document becomes a value when every escape, numeral and level of nesting
in it is good.
-/

namespace SessionBroker.Json

/-- The deepest nesting of arrays and objects that is read. -/
def maxNesting : Nat := 127

namespace Written

mutual

/-- The value of a document whose arrays and objects are nested at most `depth` deep. -/
def value? (depth : Nat) : Written → Option Value
  | .null => some .null
  | .bool b => some (.bool b)
  | .number n => n.value?
  | .string raw => (stringOf? raw).map .string
  | .array items => if depth = 0 then none else (values? (depth - 1) items).map .array
  | .object fields =>
    if depth = 0 then none else (fieldValues? (depth - 1) fields).map Value.ofFields

def values? (depth : Nat) : List Written → Option (List Value)
  | [] => some []
  | w :: ws =>
    match value? depth w, values? depth ws with
    | some v, some vs => some (v :: vs)
    | _, _ => none

/-- Fields with their values, in the order of the text. -/
def fieldValues? (depth : Nat) : List (List Char × Written) → Option (List (String × Value))
  | [] => some []
  | (k, w) :: ws =>
    match stringOf? k, value? depth w, fieldValues? depth ws with
    | some k, some v, some vs => some ((k, v) :: vs)
    | _, _, _ => none

end

end Written

/-- Reads one document. -/
def Value.ofText? (depth : Nat) (text : String) : Option Value :=
  (Written.ofChars? text.toList).bind (Written.value? depth)

end SessionBroker.Json
