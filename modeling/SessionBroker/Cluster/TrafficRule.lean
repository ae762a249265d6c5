import SessionBroker.Json.Record

/-!
# Traffic rules

A rule sends a session's traffic to the nodes that carry one of its labels.
-/

namespace SessionBroker

structure TrafficRule where
  labels : List String
deriving DecidableEq, Repr, Inhabited

namespace TrafficRule

def render (r : TrafficRule) : List Char := Json.braced [("labels", Json.renderStrings r.labels)]

def ofJson? (w : Json.Written) : Option TrafficRule := do
  match ← w.record? ["labels"] with
  | [labels] => (Json.Written.orDefault Json.Written.strings? [] labels).map TrafficRule.mk
  | _ => none

end TrafficRule

end SessionBroker
