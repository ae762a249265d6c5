import SessionBroker.Toml.Item

/-!
# Growing tables

How the entries of a table change while a document is read. A path leads into a table through the
tables under its parts; where there is none, an implicit one appears, and an array of
tables leads into its last one. A path of a pair may only pass tables that pairs or deeper
headers have made.
-/

namespace SessionBroker.Toml

/-- Changes the entries of the table that a path leads to. `pairs` says whether the path belongs
to a pair; the change is told whether pairs have made the table that is reached. -/
def within {α : Type} (pairs : Bool) (change : Bool → Entries → Option (α × Entries)) :
    List String → (dotted : Bool) → Entries → Option (α × Entries)
  | [], dotted, es => change dotted es
  | k :: path, _, es =>
    match es.lookup k with
    | none =>
      (within pairs change path pairs []).map fun p => (p.1, es ++ [(k, .table true pairs p.2)])
    | some (.table implicit dotted sub) =>
      if pairs ∧ ¬ implicit then none
      else
        (within pairs change path dotted sub).map fun p =>
          (p.1, OrderedMap.put k (.table implicit dotted p.2) es)
    | some (.tables ts) =>
      match ts.getLast? with
      | some (.table implicit dotted sub) =>
        (within pairs change path dotted sub).map fun p =>
          (p.1, OrderedMap.put k (.tables (ts.dropLast ++ [.table implicit dotted p.2])) es)
      | _ => none
    | some _ => none

/-- Adds a new entry at the end. -/
def addNew? (k : String) (i : Item) (es : Entries) : Option Entries :=
  match es.lookup k with
  | none => some (es ++ [(k, i)])
  | some _ => none

/-- Adds a pair. Pairs with a path go into tables that pairs have made, and others do not. -/
def addPair? (path : List String) (k : String) (i : Item) (es : Entries) : Option Entries :=
  let add (dotted : Bool) (es : Entries) : Option (Unit × Entries) :=
    if dotted == path.isEmpty then none else (addNew? k i es).map fun es => ((), es)
  (within true add path false es).map Prod.snd

/-- The table that a header opens, and the entries without it: a new one, or one that only deeper
headers have mentioned so far. -/
def openTable? (path : List String) (k : String) (es : Entries) : Option (Entries × Entries) :=
  let take (_ : Bool) (es : Entries) : Option (Entries × Entries) :=
    match es.lookup k with
    | none => some ([], es)
    | some (.table true false sub) => some (sub, es.filter fun e => e.1 != k)
    | some _ => none
  within false take path false es

/-- Puts a table that a header opened in its place, which is the last one. -/
def closeTable? (path : List String) (k : String) (table : Entries) (es : Entries) :
    Option Entries :=
  let add (_ : Bool) (es : Entries) : Option (Unit × Entries) :=
    (addNew? k (.table false false table) es).map fun es => ((), es)
  (within false add path false es).map Prod.snd

/-- Makes room for an array of tables. -/
def openTables? (path : List String) (k : String) (es : Entries) : Option Entries :=
  let add (_ : Bool) (es : Entries) : Option (Unit × Entries) :=
    match es.lookup k with
    | none => some ((), es ++ [(k, .tables [])])
    | some (.tables _) => some ((), es)
    | some _ => none
  (within false add path false es).map Prod.snd

/-- Puts a table at the end of an array of tables. -/
def pushTable? (path : List String) (k : String) (table : Entries) (es : Entries) :
    Option Entries :=
  let add (_ : Bool) (es : Entries) : Option (Unit × Entries) :=
    match es.lookup k with
    | some (.tables ts) => some ((), OrderedMap.put k (.tables (ts ++ [.table false false table])) es)
    | _ => none
  (within false add path false es).map Prod.snd

end SessionBroker.Toml
