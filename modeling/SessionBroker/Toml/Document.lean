import SessionBroker.Toml.Value

/-!
# TOML documents

A document is a list of statements: pairs, headers of tables and headers of tables in
arrays. Pairs fill the table of the last header, which enters the document when the next header
or the end is reached.
-/

namespace SessionBroker.Toml

inductive Statement where
  | pair (path : List String) (key : String) (value : Item)
  | header (path : List String) (key : String)
  | arrayHeader (path : List String) (key : String)

/-! ## Statements of a text -/

/-- A header's key after its opening brackets, up to the end of the line. -/
def readHeader (closing : List Char) (s : List Char) :
    Option (List String × String × List Char) :=
  match readKey s with
  | none => none
  | some (path, k, s) =>
    if closing.isPrefixOf s then
      (endOfLine? (s.drop closing.length)).map fun s => (path, k, s)
    else none

def readPair (s : List Char) : Option (Statement × List Char) :=
  match readKey s with
  | some (path, k, '=' :: s) =>
    match readValue (2 * s.length + 2) maxLevels (skipBlanks s) with
    | none => none
    | some (i, s) => (endOfLine? s).map fun s => (.pair path k i, s)
  | _ => none

/-- The statement at the start of a line, if the line is not empty. -/
def readStatement (s : List Char) : Option (Option Statement × List Char) :=
  match s with
  | '[' :: '[' :: s =>
    (readHeader [']', ']'] s).map fun p => (some (.arrayHeader p.1 p.2.1), p.2.2)
  | '[' :: s => (readHeader [']'] s).map fun p => (some (.header p.1 p.2.1), p.2.2)
  | c :: _ =>
    if c = '#' ∨ c = '\n' ∨ c = '\r' then (endOfLine? s).map fun s => (none, s)
    else (readPair s).map fun p => (some p.1, p.2)
  | [] => some (none, [])

/-- All statements of a text. Each round takes at least one character. -/
def readStatements : Nat → List Char → Option (List Statement)
  | 0, s => if skipBlanks s = [] then some [] else none
  | n + 1, s =>
    match skipBlanks s with
    | [] => some []
    | s =>
      match readStatement s with
      | none => none
      | some (none, s) => readStatements n s
      | some (some st, s) => (readStatements n s).map fun sts => st :: sts

/-- The mark that may stand in front of a text. -/
def byteOrderMark : Char := '\ufeff'

def statements? (s : List Char) : Option (List Statement) :=
  let s := match s with
    | c :: t => if c = byteOrderMark then t else s
    | [] => s
  readStatements s.length s

/-! ## The document of the statements -/

/-- Where the current table belongs. -/
inductive Place where
  | root
  | table (path : List String) (key : String)
  | inArray (path : List String) (key : String)

structure Draft where
  document : Entries
  current : Entries
  place : Place

namespace Draft

def empty : Draft := ⟨[], [], .root⟩

/-- The document with the current table in its place. -/
def finish? (d : Draft) : Option Entries :=
  match d.place with
  | .root => some d.current
  | .table path k => closeTable? path k d.current d.document
  | .inArray path k => pushTable? path k d.current d.document

def add? (d : Draft) : Statement → Option Draft
  | .pair path k i => (addPair? path k i d.current).map fun es => { d with current := es }
  | .header path k => do
    let (table, document) ← openTable? path k (← d.finish?)
    some ⟨document, table, .table path k⟩
  | .arrayHeader path k => do
    let document ← openTables? path k (← d.finish?)
    some ⟨document, [], .inArray path k⟩

end Draft

/-- The entries of the document that a text is. -/
def document? (text : String) : Option Entries := do
  let statements ← statements? text.toList
  let draft ← statements.foldlM Draft.add? .empty
  draft.finish?

end SessionBroker.Toml
