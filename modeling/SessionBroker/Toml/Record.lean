import SessionBroker.Toml.Item

/-!
# Records in TOML

A record is a table with its fields by name, or a list of its fields in order. Entries of
other names, and items behind the last field, are passed over.
-/

namespace SessionBroker.Toml

/-- The fields of a record in the order of the given names; absent ones are `none`. -/
def record? (names : List String) (i : Item) : Option (List (Option Item)) :=
  match i.items?, i.entries? with
  | some items, _ => some ((List.range names.length).map fun n => items[n]?)
  | none, some es => some (names.map fun k => es.lookup k)
  | none, none => none

/-- A field that may be left out. -/
def orDefault {α : Type} (read : Item → Option α) (default : α) : Option Item → Option α
  | none => some default
  | some i => read i

def list? {α : Type} (read : Item → Option α) (i : Item) : Option (List α) :=
  i.items?.bind fun items => items.mapM read

end SessionBroker.Toml
