import SessionBroker.Json.Record

/-!
# Acquisition modes

Whether connections that a session opens stay with the session for reuse.
-/

namespace SessionBroker

inductive AcquisitionMode where
  /-- New connections are kept, so that few are open at a time. -/
  | memoryStrictly
  /-- New connections are handed out and not kept. -/
  | connectionStrictly
deriving DecidableEq, Repr, Inhabited

namespace AcquisitionMode

def text : AcquisitionMode → String
  | .memoryStrictly => "MEMORY_STRICTLY"
  | .connectionStrictly => "CONNECTION_STRICTLY"

def ofText? (s : String) : Option AcquisitionMode :=
  if s = "MEMORY_STRICTLY" then some .memoryStrictly
  else if s = "CONNECTION_STRICTLY" then some .connectionStrictly
  else none

def keepsNew : AcquisitionMode → Bool
  | .memoryStrictly => true
  | .connectionStrictly => false

def render (m : AcquisitionMode) : List Char := Json.renderString m.text

def ofJson? : Json.Written → Option AcquisitionMode :=
  Json.Written.word? ofText? Json.Written.isNull

end AcquisitionMode

end SessionBroker
