import SessionBroker.Number.Binary64

/-!
# JSON values

Values as pool properties hold them. Whole numbers and binary64 numbers are told
apart, and the fields of an object stand in the order of their keys, each key once:
`ofFields` brings any list of fields into this form, the last value of a key winning.
-/

namespace SessionBroker.Json

inductive Value where
  | null
  | bool (b : Bool)
  | integer (i : Int)
  | decimal (x : Binary64)
  | string (s : String)
  | array (items : List Value)
  | object (fields : List (String × Value))
deriving Repr, Inhabited

namespace Value

/-- Puts a field where its key belongs; a field of the same key is replaced. -/
def insertField (k : String) (v : Value) : List (String × Value) → List (String × Value)
  | [] => [(k, v)]
  | f :: fs =>
    if k < f.1 then (k, v) :: f :: fs
    else if k = f.1 then (k, v) :: fs
    else f :: insertField k v fs

/-- The object with the given fields, in the order of their keys by code points,
which is also their order by UTF-8 bytes. -/
def ofFields (fields : List (String × Value)) : Value :=
  .object (fields.foldl (fun fs f => insertField f.1 f.2 fs) [])

/-- Equality of values: a whole number never equals a binary64 number, and the two
binary64 zeros are equal. -/
def same : Value → Value → Bool
  | .null, .null => true
  | .bool a, .bool b => a == b
  | .integer a, .integer b => a == b
  | .decimal a, .decimal b => a.sameNumber b
  | .string a, .string b => a == b
  | .array as, .array bs => sameItems as bs
  | .object as, .object bs => sameFields as bs
  | _, _ => false
where
  sameItems : List Value → List Value → Bool
    | [], [] => true
    | a :: as, b :: bs => same a b && sameItems as bs
    | _, _ => false
  sameFields : List (String × Value) → List (String × Value) → Bool
    | [], [] => true
    | (k, a) :: as, (j, b) :: bs => k == j && same a b && sameFields as bs
    | _, _ => false

/-- The value of a field of an object. -/
def field? (v : Value) (k : String) : Option Value :=
  match v with
  | .object fields => (fields.find? fun f => f.1 == k).map Prod.snd
  | _ => none

end Value

end SessionBroker.Json
