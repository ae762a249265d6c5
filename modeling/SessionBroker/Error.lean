/-!
# Errors

What can go wrong when a session asks for connections, each cause with the data
its report needs. `message` is the only place where reports are worded.
-/

namespace SessionBroker

inductive Error where
  | unknownDataSource (name : String)
  /-- A batch of `count` was wanted, `succeeded` were opened before `cause` and are released. -/
  | acquisitionFailed (count succeeded : Nat) (cause : Error)
  | releaseFailed (failed total : Nat)
  | connection (text : String)
  | metadata (text : String)
  | configuration (text : String)
  | invalidArgument (text : String)
  | io (text : String)
  | other (text : String)
deriving DecidableEq, Repr, Inhabited

namespace Error

def message : Error → String
  | .unknownDataSource name => "Missing the data source name: '" ++ name ++ "'"
  | .acquisitionFailed count succeeded _ =>
    "Can not get " ++ toString count ++ " connections one time, partition succeed connection(" ++
      toString succeeded ++ ") have released!"
  | .releaseFailed failed total =>
    "Failed to release " ++ toString failed ++ " of " ++ toString total ++ " connections"
  | .connection text => "Connection error: " ++ text
  | .metadata text => "Metadata error: " ++ text
  | .configuration text => "Configuration error: " ++ text
  | .invalidArgument text => "Invalid argument: " ++ text
  | .io text => "IO error: " ++ text
  | .other text => text

/-- The report of the error, followed by those of its causes. -/
def messages : Error → List String
  | .acquisitionFailed count succeeded cause =>
    message (.acquisitionFailed count succeeded cause) :: cause.messages
  | .io text => [message (.io text), text]
  | e => [e.message]

end Error

end SessionBroker
