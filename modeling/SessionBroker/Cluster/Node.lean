import SessionBroker.Json.Record

/-!
# Compute nodes

The nodes of a cluster that can take over a session's traffic. A node's id has the
form `address@sign`, where the sign of a proxy is the port it listens on; the whole
id is the name under which the node is routed to.
-/

namespace SessionBroker

inductive NodeKind where
  /-- A standalone proxy with an endpoint of its own. -/
  | proxy
  /-- A driver inside an application. -/
  | jdbc
deriving DecidableEq, Repr, Inhabited

namespace NodeKind

def text : NodeKind → String
  | .proxy => "proxy"
  | .jdbc => "jdbc"

def ofText? (s : String) : Option NodeKind :=
  if s = "proxy" then some .proxy
  else if s = "jdbc" then some .jdbc
  else none

def render (k : NodeKind) : List Char := Json.renderString k.text

def ofJson? : Json.Written → Option NodeKind := Json.Written.word? ofText? Json.Written.isNull

end NodeKind

/-- What a node is and where it is found. -/
structure NodeIdentity where
  kind : NodeKind
  id : String
deriving DecidableEq, Repr, Inhabited

namespace NodeIdentity

/-- The part of the id before its first `@`; the whole id if it has none. -/
def address (n : NodeIdentity) : String :=
  String.ofList (n.id.toList.takeWhile (· != '@'))

/-- The part of the id after its first `@`; empty if it has none. -/
def sign (n : NodeIdentity) : String :=
  String.ofList ((n.id.toList.dropWhile (· != '@')).drop 1)

def fieldTexts (n : NodeIdentity) : List (String × List Char) :=
  [("type", n.kind.render), ("id", Json.renderString n.id)]

def render (n : NodeIdentity) : List Char := Json.braced n.fieldTexts

def fieldNames : List String := ["type", "id"]

/-- Reads the two fields; `kind?` says how the kind may be written. -/
def ofFields? (kind? : Json.Written → Option NodeKind) :
    List (Option Json.Written) → Option NodeIdentity
  | [some k, some i] => do
    let kind ← kind? k
    let id ← i.string?
    some ⟨kind, id⟩
  | _ => none

def ofJson? (w : Json.Written) : Option NodeIdentity :=
  (w.record? fieldNames).bind (ofFields? NodeKind.ofJson?)

end NodeIdentity

/-- A node with the labels that traffic rules match on. -/
structure ComputeNode where
  identity : NodeIdentity
  labels : List String
deriving DecidableEq, Repr, Inhabited

namespace ComputeNode

def id (n : ComputeNode) : String := n.identity.id

def matchesAnyLabel (n : ComputeNode) (labels : List String) : Bool :=
  n.labels.any fun l => labels.contains l

def render (n : ComputeNode) : List Char :=
  Json.braced (n.identity.fieldTexts ++ [("labels", Json.renderStrings n.labels)])

/-- Reads a node at a place where `depth` levels of nesting are left. -/
def ofJson? (depth : Nat) (w : Json.Written) : Option ComputeNode := do
  match ← w.sharedRecord? (depth - 1) ["labels"] NodeIdentity.fieldNames with
  | labels :: identity =>
    let labels ← Json.Written.orDefault Json.Written.strings? [] labels
    let identity ←
      NodeIdentity.ofFields?
        (Json.Written.word? NodeKind.ofText? Json.Written.isNullOrEmpty) identity
    some ⟨identity, labels⟩
  | [] => none

end ComputeNode

end SessionBroker
