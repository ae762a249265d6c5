import SessionBroker.Cluster.Metadata
import SessionBroker.Routing.Routes
import SessionBroker.Session.Holdings
import SessionBroker.Session.Mode

/-!
# Sessions and the world they live in

The state behind all calls: the sessions with what they hold, routers that belong to no
session, the surroundings `ε` that nothing here looks into, a log, and the questions that the
cluster was asked. Log and questions name the call behind each entry, so that what a call did itself
can be told from what calls nested inside it did.
-/

namespace SessionBroker

/-- The `serial`-th connection of a source. -/
structure Connection where
  source : SourceId
  serial : Nat
deriving DecidableEq, Repr, Inhabited

/-- A session: its router, bound to its schema, and the connections it holds. -/
structure Session where
  router : Router
  holdings : Holdings Connection

def Session.new (schema : String) : Session := ⟨.new schema, .empty⟩

instance : Inhabited Session := ⟨.new ""⟩

/-! ## Calls and answers -/

/-- What can be asked of sessions, of routers and of the cluster. Sessions and routers go by
their numbers. -/
inductive Call where
  | newSession (schema : String)
  | acquire (session : Nat) (name : String) (count : Nat) (mode : AcquisitionMode)
  | release (session : Nat)
  | held (session : Nat) (name : String)
  | heldNames (session : Nat)
  | isValid (session : Nat)
  | isRouted (session : Nat) (name : String)
  | choices (session : Nat)
  | newRouter (schema : String)
  | routes (router : Nat)
  | route (router : Nat) (name : String)
  | physical (schema : String)
  | trafficRule
  | storedProperties (schema : String)
  | storedNodes (kind : NodeKind) (labels : List String)
  | storedUsers
  | createPools (props : OrderedMap String PoolProperties)

/-- The session that a call is made on. -/
def Call.session? : Call → Option Nat
  | .acquire s _ _ _ | .release s | .held s _ | .heldNames s | .isValid s | .isRouted s _
  | .choices s => some s
  | _ => none

/-- The router that a call is made on. -/
def Call.router? : Call → Option Nat
  | .routes r | .route r _ => some r
  | _ => none

/-- How a source stands: its label, and how many connections were opened and are closed. -/
structure SourceReport where
  label : String
  opened : Nat
  closed : Nat

inductive Answer where
  | done
  | number (n : Nat)
  | flag (b : Bool)
  | names (ns : List String)
  | choices (ns : List (Option String))
  | connections (cs : List Connection)
  | source (s : Option SourceId)
  | sources (m : SourceMap)
  | labels (ls : Option (List String))
  | properties (m : Option (OrderedMap String PoolProperties))
  | nodes (ns : Option (List ComputeNode))
  | users (us : Option (List User))
  | reports (rs : List SourceReport)

inductive Outcome where
  | answered (a : Answer)
  | failed (e : Error)
  /-- The call names a session, router or connection that does not exist. -/
  | refused

/-- What a session shows after a call on it. -/
structure View where
  held : List (String × List Connection)
  valid : Bool

/-! ## Events -/

inductive Event where
  | begun (call : Option Call)
  | ended (outcome : Outcome) (view : Option View)
  | nodesLoaded (kind : NodeKind) (labels : List String)
  | propertiesLoaded (schema : String)
  | usersLoaded
  | poolCreated (source : SourceId) (props : PoolProperties)
  | poolFailed (props : PoolProperties)
  /-- An attempt to open a connection begins. -/
  | opening (source : SourceId)
  | opened (source : SourceId) (c : Connection)
  | openFailed (source : SourceId)
  /-- An attempt to close a connection begins. -/
  | closing (c : Connection)
  | closed (c : Connection)
  | closeFailed (c : Connection)
  /-- A batch joined what a session holds for a name. -/
  | kept (session : Nat) (name : String) (batch : List Connection)
  /-- A session's holdings were taken out for release. -/
  | drained (session : Nat) (entries : List (String × List Connection))

/-- An event and the number of the call that caused it. -/
structure Entry where
  call : Nat
  event : Event

/-- A question to the cluster and the number of the call that asked it. -/
structure Inquiry where
  call : Nat
  question : Question
deriving DecidableEq, Repr

/-! ## The world -/

structure World (ε : Type) where
  env : ε
  sessions : List Session
  routers : List Router
  /-- How many calls have begun. -/
  calls : Nat
  log : Array Entry
  inquiries : Array Inquiry

namespace World

variable {ε α : Type}

def new (env : ε) : World ε := ⟨env, [], [], 0, #[], #[]⟩

def session (w : World ε) (s : Nat) : Session := w.sessions[s]?.getD default

def addSession (w : World ε) (schema : String) : World ε :=
  { w with sessions := w.sessions ++ [.new schema] }

def updateSession (w : World ε) (s : Nat) (f : Session → Session) : World ε :=
  { w with sessions := w.sessions.modify s f }

def record (w : World ε) (call : Nat) (e : Event) : World ε := { w with log := w.log.push ⟨call, e⟩ }

def ask (w : World ε) (call : Nat) (q : Question) : World ε :=
  { w with inquiries := w.inquiries.push ⟨call, q⟩ }

def heldFor (w : World ε) (s : Nat) (name : String) : List Connection :=
  (w.session s).holdings.heldFor name

/-- Adds a batch to what a session holds for a name. -/
def keep (w : World ε) (call s : Nat) (name : String) (batch : List Connection) : World ε :=
  (w.updateSession s fun t => { t with holdings := t.holdings.hold name batch }).record call
    (.kept s name batch)

/-- Empties a session's holdings. -/
def drain (w : World ε) (call s : Nat) : World ε :=
  (w.updateSession s fun t => { t with holdings := t.holdings.drain.2 }).record call
    (.drained s (w.session s).holdings.entries)

/-- Keeps the route table that a session's router built. -/
def keepRoutes (s : Nat) (routes : Routes) (w : World ε) : World ε :=
  w.updateSession s fun t => { t with router := { t.router with routes := some routes } }

def router (r : Nat) (w : World ε) : Router := w.routers[r]?.getD (.new "")

def addRouter (w : World ε) (schema : String) : World ε :=
  { w with routers := w.routers ++ [.new schema] }

/-- Keeps the route table that a router outside of sessions built. -/
def keepRouterRoutes (r : Nat) (routes : Routes) (w : World ε) : World ε :=
  { w with routers := w.routers.modify r fun t => { t with routes := some routes } }

/-- An action on the surroundings alone. -/
def onEnv (a : StateM ε α) : StateM (World ε) α := fun w =>
  let (x, env) := a w.env
  (x, { w with env })

def onEnv? (a : Action ε α) : Action (World ε) α := onEnv a.run

/-- Asks a question, and reads the answer off the surroundings. -/
def inquire (call : Nat) (q : Question) (answer : ε → α) : StateM (World ε) α := do
  modify (·.ask call q)
  return answer (← get).env

end World

/-- A registry as a call sees it: every load goes into the log. -/
def Registry.logged {ε : Type} (r : Registry ε) (call : Nat) : Registry (World ε) where
  loadNodes kind labels := do
    modify (·.record call (.nodesLoaded kind labels))
    World.onEnv? (r.loadNodes kind labels)
  loadProperties schema := do
    modify (·.record call (.propertiesLoaded schema))
    World.onEnv? (r.loadProperties schema)
  loadUsers := do
    modify (·.record call .usersLoaded)
    World.onEnv? r.loadUsers

/-- The cluster as a call reaches it: every question is noted, and every load and every creation of
a pool goes into the log. -/
def Cluster.logged {ε : Type} (c : Cluster ε) (call : Nat) : Access (World ε) where
  physical schema := World.inquire call (.physical schema) fun env => c.physical env schema
  trafficRule := World.inquire call .trafficRule c.trafficRule
  registry := World.inquire call .registry fun env => (c.registry env).map (·.logged call)
  createPool props := ExceptT.mk do
    let result ← World.onEnv (c.createPool props).run
    match result with
    | .ok source => modify (·.record call (.poolCreated source props))
    | .error _ => modify (·.record call (.poolFailed props))
    return result

end SessionBroker
