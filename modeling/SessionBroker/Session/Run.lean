import SessionBroker.Session.Acquisition

/-!
# Runs of nested calls

While a connection is opened or closed, further calls may run on the same world, and these
may open and close connections themselves. `Surroundings` says which steps run inside an
attempt and how the attempt then ends; `exec` carries a step out. Its first argument bounds how
deep steps nest: attempts made at the bound run no further steps.
-/

namespace SessionBroker

/-- A step of a run. -/
inductive Step (ε : Type) where
  | call (c : Call)
  /-- A caller closes a connection, if there is one to be found. -/
  | closeConnection (find : ε → Option Connection)
  /-- Something happens outside. -/
  | outside (a : StateM ε Answer)

/-- The world around the sessions. -/
structure Surroundings (ε : Type) where
  cluster : Cluster ε
  /-- An attempt to open a connection begins; these steps run inside it. -/
  beginOpen : SourceId → StateM ε (List (Step ε))
  /-- The attempt ends. -/
  finishOpen : SourceId → Action ε Connection
  /-- An attempt to close a connection begins; these steps run inside it. -/
  beginClose : Connection → StateM ε (List (Step ε))
  /-- The attempt ends. -/
  finishClose : Connection → Action ε Unit
  isClosed : ε → Connection → Bool

namespace Surroundings

variable {ε : Type}

/-! ## Attempts -/

def attemptOpen (k : Surroundings ε) (nested : Step ε → StateM (World ε) Unit) (call : Nat)
    (source : SourceId) : Action (World ε) Connection := ExceptT.mk do
  modify (·.record call (.opening source))
  let steps ← World.onEnv (k.beginOpen source)
  steps.forM nested
  let result ← World.onEnv (k.finishOpen source).run
  match result with
  | .ok c => modify (·.record call (.opened source c))
  | .error _ => modify (·.record call (.openFailed source))
  return result

def attemptClose (k : Surroundings ε) (nested : Step ε → StateM (World ε) Unit) (call : Nat)
    (c : Connection) : Action (World ε) Unit := ExceptT.mk do
  modify (·.record call (.closing c))
  let steps ← World.onEnv (k.beginClose c)
  steps.forM nested
  let result ← World.onEnv (k.finishClose c).run
  match result with
  | .ok _ => modify (·.record call (.closed c))
  | .error _ => modify (·.record call (.closeFailed c))
  return result

def sources (k : Surroundings ε) (nested : Step ε → StateM (World ε) Unit) (call : Nat) :
    Sources (World ε) :=
  ⟨k.attemptOpen nested call, k.attemptClose nested call⟩

/-! ## Calls -/

/-- Whether no connection that a session holds is closed. -/
def isValid (k : Surroundings ε) (w : World ε) (s : Nat) : Bool :=
  (w.session s).holdings.entries.all fun e => e.2.all fun c => !k.isClosed w.env c

/-- The answer to a call with the number `call`. -/
def answer (k : Surroundings ε) (sources : Sources (World ε)) (call : Nat) (c : Call) :
    Action (World ε) Answer := do
  let access := k.cluster.logged call
  match c with
  | .newSession schema =>
    let n := (← get).sessions.length
    modify (·.addSession schema)
    return .number n
  | .acquire s name count mode =>
    return .connections (← World.acquire access sources call s name count mode)
  | .release s =>
    World.release sources call s
    return .done
  | .held s name => return .connections ((← get).heldFor s name)
  | .heldNames s => return .names ((← get).session s).holdings.names
  | .isValid s => return .flag (k.isValid (← get) s)
  | .isRouted s name => return .flag ((← World.resolveRoutes access s).contains name)
  | .choices s => return .choices (Choice.outcomes (← World.candidates access s))
  | .newRouter schema =>
    let n := (← get).routers.length
    modify (·.addRouter schema)
    return .number n
  | .routes r =>
    return .names (← Router.resolve access (World.router r) (World.keepRouterRoutes r)).keys
  | .route r name =>
    let routes ← Router.resolve access (World.router r) (World.keepRouterRoutes r)
    return .source (routes.get? name)
  | .physical schema => return .sources (← access.physical schema)
  | .trafficRule => return .labels ((← access.trafficRule).map TrafficRule.labels)
  | .storedProperties schema =>
    match ← access.registry with
    | none => return .properties none
    | some registry => return .properties (some (← registry.loadProperties schema))
  | .storedNodes kind labels =>
    match ← access.registry with
    | none => return .nodes none
    | some registry => return .nodes (some (← registry.loadNodes kind labels))
  | .storedUsers =>
    match ← access.registry with
    | none => return .users none
    | some registry => return .users (some (← registry.loadUsers))
  | .createPools props => return .sources (← createPools access.createPool props)

/-- Whether the session or the router that a call is made on exists. -/
def isPossible (w : World ε) (c : Call) : Bool :=
  (c.session?.all fun s => s < w.sessions.length) && (c.router?.all fun r => r < w.routers.length)

def settle (a : Action (World ε) Answer) : StateM (World ε) Outcome := do
  match ← a.run with
  | .ok answer => return .answered answer
  | .error e => return .failed e

/-- The outcome of a step with the number `call`. -/
def outcome (k : Surroundings ε) (sources : Sources (World ε)) (call : Nat) :
    Step ε → StateM (World ε) Outcome
  | .call c => do
    if isPossible (← get) c then settle (k.answer sources call c) else return .refused
  | .closeConnection find => do
    match find (← get).env with
    | none => return .refused
    | some c =>
      settle do
        sources.closeOne c
        return .done
  | .outside a => do return .answered (← World.onEnv a)

def call? : Step ε → Option Call
  | .call c => some c
  | _ => none

/-- What the session that a step was made on shows. -/
def view? (k : Surroundings ε) (w : World ε) (step : Step ε) : Option View :=
  ((call? step).bind Call.session?).map fun s =>
    ⟨(w.session s).holdings.entries, k.isValid w s⟩

/-- Carries a step out, between the events of its beginning and its end. -/
def perform (k : Surroundings ε) (sources : Nat → Sources (World ε)) (step : Step ε) :
    StateM (World ε) Unit := do
  let call := (← get).calls
  modify fun w => { w with calls := call + 1 }.record call (.begun (call? step))
  let outcome ← k.outcome (sources call) call step
  modify fun w => w.record call (.ended outcome (k.view? w step))

/-- Carries a step out, with steps nested at most `depth` deep inside it. -/
def exec (k : Surroundings ε) : (depth : Nat) → Step ε → StateM (World ε) Unit
  | 0, step => k.perform (k.sources fun _ => pure ()) step
  | depth + 1, step => k.perform (k.sources (k.exec depth)) step

end Surroundings

/-! ## Records -/

/-- What a step came to, and the events inside it. -/
structure Record where
  outcome : Outcome
  view : Option View
  events : List Event

/-- The record of a step, from the events that it added to the log. -/
def Record.ofEvents : List Event → Record
  | [] => ⟨.refused, none, []⟩
  | _ :: events =>
    match events.getLast? with
    | some (.ended outcome view) => ⟨outcome, view, events.dropLast⟩
    | _ => ⟨.refused, none, events⟩

/-- Carries a step out and reports on it. -/
def Surroundings.report {ε : Type} (k : Surroundings ε) (depth : Nat) (step : Step ε) :
    StateM (World ε) Record := do
  let start := (← get).log.size
  k.exec depth step
  let w ← get
  return .ofEvents ((w.log.extract start w.log.size).toList.map Entry.event)

end SessionBroker
