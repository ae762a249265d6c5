import SessionBroker.Json.Printer
import SessionBroker.Json.Reader

/-!
# Records in JSON

A record is written as an object with its fields by name, or as an array with its
fields in order. Fields of other names are passed over without a look at their
values, whose nesting, numbers and escapes need not be good; a field that the
record knows may not be repeated. A record that shares its object with the fields of
another has no array form, and what it passes over there must be a good value.
-/

namespace SessionBroker.Json

namespace Written

/-- The fields of an object under their resolved names. -/
def named? : List (List Char × Written) → Option (List (String × Written))
  | [] => some []
  | (k, w) :: fs =>
    match stringOf? k, named? fs with
    | some k, some fs => some ((k, w) :: fs)
    | _, _ => none

/-- The one field of this name, or none; refused if there are several. -/
def single? (fields : List (String × Written)) (name : String) : Option (Option Written) :=
  match fields.filter fun f => f.1 == name with
  | [] => some none
  | [f] => some (some f.2)
  | _ => none

/-- The fields of a record, in the order of the given names; absent ones are `none`. -/
def record? (names : List String) : Written → Option (List (Option Written))
  | .object fields => (named? fields).bind fun fs => names.mapM (single? fs)
  | .array items =>
    if names.length < items.length then none
    else some (items.map some ++ List.replicate (names.length - items.length) none)
  | _ => none

/-- The fields of a record that shares its object with another, whose field names are
`others`; what neither knows must be a value nested at most `depth` deep, like the others'
fields. -/
def sharedRecord? (depth : Nat) (names others : List String) :
    Written → Option (List (Option Written))
  | .object fields => do
    let fs ← named? fields
    let apart := fs.filter fun f => !names.contains f.1
    if apart.all fun f => (f.2.value? depth).isSome then
      (names ++ others).mapM (single? fs)
    else none
  | _ => none

def string? : Written → Option String
  | .string raw => stringOf? raw
  | _ => none

/-- The words of a list of strings. -/
def strings? : Written → Option (List String)
  | .array items => items.mapM string?
  | _ => none

/-- A field that may be left out. -/
def orDefault {α : Type} (read : Written → Option α) (default : α) : Option Written → Option α
  | none => some default
  | some w => read w

/-- One of a set of words. It may stand alone, or as the only field of an object whose
value `isUnit` accepts. -/
def word? {α : Type} (read : String → Option α) (isUnit : Written → Bool) : Written → Option α
  | .string raw => (stringOf? raw).bind read
  | .object [(k, w)] => if isUnit w then (stringOf? k).bind read else none
  | _ => none

def isNull : Written → Bool
  | .null => true
  | _ => false

/-- Null or an object without fields. -/
def isNullOrEmpty : Written → Bool
  | .null => true
  | .object [] => true
  | _ => false

end Written

/-- The text of a list of strings. -/
def renderStrings (ss : List String) : List Char := bracketed (ss.map renderString)

end SessionBroker.Json
