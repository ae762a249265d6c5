import SessionBroker.Stage.Basic

/-!
# Rehearsals

A rehearsal plays a script on a stage, one instruction after the other, and keeps a record
of each.
-/

namespace SessionBroker.Stage

/-- No script that comes to an end nests as deep. -/
def maxDepth : Nat := 1000000

/-- Sets the stage up for a scripted cluster. -/
def scripted (sources : List Source) (pools : List (PoolRule Instruction))
    (schemas : OrderedMap String (List String)) (rule : Option TrafficRule)
    (record : Option RegistryScript) : World Stage :=
  .new ⟨sources, pools, 0, .scripted schemas rule record⟩

/-- Sets the stage up and starts a deployment on it; also the events of the start. -/
def deployed (sources : List Source) (pools : List (PoolRule Instruction))
    (config : Except Error DeploymentConfig) :
    Except Error Deployment × World Stage × List Event :=
  let start : World Stage := scripted sources pools .empty none none
  match config with
  | .error e => (.error e, start, [])
  | .ok config =>
    let create := (surroundings.cluster.logged start.calls).createPool
    let (result, w) := (Deployment.start create config).run start
    let events := w.log.toList.map Entry.event
    match result with
    | .error e => (.error e, w, events)
    | .ok d => (.ok d, { w with env := { w.env with origin := .deployed d } }, events)

/-- Plays the instructions in order. -/
def play (script : List Instruction) : StateM (World Stage) (List Record) :=
  script.mapM fun i => surroundings.report maxDepth i.step

/-- Whether an event is the end of a call on the script's cluster and sources, or the beginning
or end of a nested call. What a deployment looks up in its own configuration is none, and
neither is the start of an attempt or a change of a session's holdings. -/
def shows (st : Stage) : Event → Bool
  | .opening _ | .closing _ | .kept _ _ _ | .drained _ _ => false
  | .nodesLoaded _ _ | .propertiesLoaded _ | .usersLoaded =>
    match st.origin with
    | .scripted _ _ _ => true
    | .deployed _ => false
  | _ => true

end SessionBroker.Stage
