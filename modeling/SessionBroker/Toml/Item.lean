import SessionBroker.Json.Value
import SessionBroker.OrderedMap

/-!
# TOML items

What stands under a key of a TOML document. Tables that are opened by headers or by
dotted keys can grow while the document is read; inline tables cannot. A table that only the
keys of its parts have mentioned is implicit, and it is dotted if these were keys of pairs
and not of headers.
-/

namespace SessionBroker.Toml

inductive Item where
  | string (s : String)
  | integer (i : Int)
  /-- A number that is not finite is `none`. -/
  | float (x : Option Binary64)
  | boolean (b : Bool)
  /-- A date, a time or both, as normalised text. -/
  | moment (text : String)
  | array (items : List Item)
  | inlineTable (entries : List (String × Item))
  | table (implicit dotted : Bool) (entries : List (String × Item))
  /-- An array of tables, each opened by a header of its own. -/
  | tables (ts : List Item)
deriving Inhabited

abbrev Entries := List (String × Item)

/-- The key under which a date or time stands where it is read as a table. -/
def momentKey : String := "$__toml_private_datetime"

namespace Item

/-- The entries of an item that reads as a table. -/
def entries? : Item → Option Entries
  | .inlineTable es => some es
  | .table _ _ es => some es
  | .moment text => some [(momentKey, .string text)]
  | _ => none

/-- The items of an item that reads as a list. -/
def items? : Item → Option (List Item)
  | .array is => some is
  | .tables ts => some ts
  | _ => none

def string? : Item → Option String
  | .string s => some s
  | _ => none

/-- The item as a JSON value; a number that is not finite becomes null. -/
def toJson : Item → Json.Value
  | .string s => .string s
  | .integer i => .integer i
  | .float none => .null
  | .float (some x) => .decimal x
  | .boolean b => .bool b
  | .moment text => .object [(momentKey, .string text)]
  | .array is => .array (listToJson is)
  | .inlineTable es => .ofFields (entriesToJson es)
  | .table _ _ es => .ofFields (entriesToJson es)
  | .tables ts => .array (listToJson ts)
where
  listToJson : List Item → List Json.Value
    | [] => []
    | i :: is => toJson i :: listToJson is
  entriesToJson : List (String × Item) → List (String × Json.Value)
    | [] => []
    | (k, i) :: es => (k, toJson i) :: entriesToJson es

end Item

end SessionBroker.Toml
