import SessionBroker.Session.Choice
import SessionBroker.Session.World

/-!
# Acquiring and releasing connections

A session serves a request from what it holds for the name, in acquisition order, and opens
only what is missing, one connection at a time. If an attempt fails, what the request had opened
is closed again and nothing is kept. Other calls may run while a connection is opened or closed;
so the holdings are read once before the first attempt, and a new batch joins whatever is held
when the last one is done.

All actions take the ways to open and to close a connection as arguments.
-/

namespace SessionBroker

/-- How connections are opened and closed. -/
structure Sources (σ : Type) where
  openOne : SourceId → Action σ Connection
  closeOne : Connection → Action σ Unit

section Batches

variable {σ κ : Type}

/-- Opens connections one after the other until there are `n` or an attempt fails; returns
those opened and the error of the failure. -/
def openUpTo (openOne : Action σ κ) : Nat → StateM σ (List κ × Option Error)
  | 0 => return ([], none)
  | n + 1 => do
    match ← openOne.run with
    | .error e => return ([], some e)
    | .ok c =>
      let (cs, failure) ← openUpTo openOne n
      return (c :: cs, failure)

/-- Closes connections in order, going on after failures; returns how many failed. -/
def closeAll (closeOne : κ → Action σ Unit) : List κ → StateM σ Nat
  | [] => return 0
  | c :: cs => do
    match ← (closeOne c).run with
    | .ok _ => closeAll closeOne cs
    | .error _ =>
      let failed ← closeAll closeOne cs
      return failed + 1

end Batches

namespace World

variable {ε : Type}

/-- The route table of a session. -/
def resolveRoutes (access : Access (World ε)) (s : Nat) : Action (World ε) Routes :=
  Router.resolve access (fun w => (w.session s).router) (keepRoutes s)

/-- The source that a name stands for in a session: a routed node's pool before a physical source. -/
def resolveSource (access : Access (World ε)) (s : Nat) (name : String) :
    Action (World ε) SourceId := do
  let routes ← resolveRoutes access s
  match routes.get? name with
  | some source => return source
  | none =>
    let physical ← access.physical ((← get).session s).router.schema
    match physical.get? name with
    | some source => return source
    | none => throw (.unknownDataSource name)

/-- Hands out `count` connections for a name. -/
def acquire (access : Access (World ε)) (sources : Sources (World ε)) (call s : Nat)
    (name : String) (count : Nat) (mode : AcquisitionMode) :
    Action (World ε) (List Connection) := do
  if name.isEmpty then throw (.invalidArgument "data source name must not be empty")
  if count = 0 then throw (.invalidArgument "connection count must be at least 1")
  let source ← resolveSource access s name
  let reused := (← get).heldFor s name
  if count ≤ reused.length then return reused.take count
  let (opened, failure) ← openUpTo (sources.openOne source) (count - reused.length)
  match failure with
  | some cause =>
    let _ ← closeAll sources.closeOne opened
    throw (.acquisitionFailed count opened.length cause)
  | none =>
    if mode.keepsNew then modify (·.keep call s name opened)
    return reused ++ opened

/-- Closes all that a session holds, and holds it no more. -/
def release (sources : Sources (World ε)) (call s : Nat) : Action (World ε) Unit := do
  let holdings := ((← get).session s).holdings
  modify (·.drain call s)
  let failed ← closeAll sources.closeOne (holdings.entries.flatMap Prod.snd)
  if failed ≠ 0 then throw (.releaseFailed failed holdings.size)

/-- The names to choose from when any source will do: those the session holds connections for, or
else those of the physical sources. -/
def candidates (access : Access (World ε)) (s : Nat) : StateM (World ε) (List String) := do
  let session := (← get).session s
  if session.holdings.names.isEmpty then
    let physical ← access.physical session.router.schema
    return physical.keys
  return session.holdings.names

end World

end SessionBroker
