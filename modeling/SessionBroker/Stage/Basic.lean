import SessionBroker.Deployment.Standalone
import SessionBroker.Session.Run
import SessionBroker.Stage.Script
import SessionBroker.Text.Search

/-!
# The stage

Surroundings that follow a script. The stage keeps count of what its sources opened and
closed, creates pools by rules, and tells what the script or a deployment says about the
cluster.
-/

namespace SessionBroker.Stage

structure Source where
  label : String
  attempts : Nat
  opened : Nat
  closed : List Nat
  behaviour : Behaviour Instruction

/-- Where the cluster's metadata come from. -/
inductive Origin where
  | scripted (schemas : OrderedMap String (List String)) (rule : Option TrafficRule)
      (record : Option RegistryScript)
  | deployed (d : Deployment)

end Stage

structure Stage where
  /-- All sources in the order of their creation. -/
  sources : List Stage.Source
  pools : List (Stage.PoolRule Stage.Instruction)
  poolsCreated : Nat
  origin : Stage.Origin

namespace Stage

def Source.new (label : String) (behaviour : Behaviour Instruction) : Source :=
  ⟨label, 0, 0, [], behaviour⟩

def Behaviour.plain : Behaviour Instruction := ⟨none, none, false, []⟩

def connectionRefused : Error := .connection "connection refused"

def closeRefused : Error := .connection "close refused"

/-! ## Sources -/

def source? (st : Stage) (s : SourceId) : Option Source := st.sources[s]?

def label (st : Stage) (s : SourceId) : String := ((st.source? s).map Source.label).getD ""

/-- The first source with a label. -/
def find? (st : Stage) (label : String) : Option SourceId :=
  st.sources.findIdx? fun s => s.label == label

def updateSource (st : Stage) (s : SourceId) (f : Source → Source) : Stage :=
  { st with sources := st.sources.modify s f }

def addSource (st : Stage) (s : Source) : Stage := { st with sources := st.sources ++ [s] }

def connectionId (st : Stage) (c : Connection) : String :=
  st.label c.source ++ "#" ++ toString c.serial

/-- The opened connection with an id. -/
def connection? (st : Stage) (id : String) : Option Connection :=
  (List.range st.sources.length).findSome? fun s =>
    (st.source? s).bind fun source =>
      (List.range source.opened).findSome? fun serial =>
        let c : Connection := ⟨s, serial⟩
        if st.connectionId c = id then some c else none

def isClosed (st : Stage) (c : Connection) : Bool :=
  ((st.source? c.source).map fun s => s.closed.contains c.serial).getD false

/-- Opens a connection, unless the source has opened as many as it may. -/
def finishOpen (s : SourceId) : Action Stage Connection := do
  match (← get).source? s with
  | none => throw connectionRefused
  | some source =>
    if source.behaviour.failAfter.any fun limit => limit ≤ source.opened then
      throw (source.behaviour.openError.getD connectionRefused)
    modify (·.updateSource s fun t => { t with opened := t.opened + 1 })
    return ⟨s, source.opened⟩

/-- Closes a connection; it may be closed already. -/
def finishClose (c : Connection) : Action Stage Unit := do
  match (← get).source? c.source with
  | none => throw closeRefused
  | some source =>
    if source.behaviour.failClose then throw closeRefused
    modify (·.updateSource c.source fun t =>
      { t with closed := if t.closed.contains c.serial then t.closed else c.serial :: t.closed })

def reports (st : Stage) : List SourceReport :=
  st.sources.map fun s => ⟨s.label, s.opened, s.closed.length⟩

/-! ## The cluster -/

/-- Creates the pool that the first fitting rule describes, or a plain one. -/
def createPool (props : PoolProperties) : Action Stage SourceId := do
  let st ← get
  let url := (props.url?.getD "").toList
  let rule := st.pools.find? fun r => Text.occursIn r.contains.toList url
  match rule.bind PoolRule.createError with
  | some e => throw e
  | none =>
    let behaviour := (rule.map PoolRule.behaviour).getD .plain
    set { st.addSource (.new ("pool" ++ toString st.poolsCreated) behaviour) with
      poolsCreated := st.poolsCreated + 1 }
    return st.sources.length

def sourceMap (st : Stage) (names : List String) : SourceMap :=
  .ofList (names.filterMap fun n => (st.find? n).map fun s => (n, s))

def RegistryScript.registry (r : RegistryScript) : Registry Stage where
  loadNodes kind labels := answer r.nodesError (selectNodes kind labels r.nodes)
  loadProperties schema := answer r.propsError ((r.props.get? schema).getD .empty)
  loadUsers := answer r.usersError r.users
where
  answer {α : Type} (failure : Option Error) (a : α) : Action Stage α :=
    match failure with
    | some e => throw e
    | none => return a

def cluster : Cluster Stage where
  physical st schema :=
    match st.origin with
    | .scripted schemas _ _ => st.sourceMap ((schemas.get? schema).getD [])
    | .deployed d => (d.cluster createPool).physical st schema
  trafficRule st :=
    match st.origin with
    | .scripted _ rule _ => rule
    | .deployed d => (d.cluster createPool).trafficRule st
  registry st :=
    match st.origin with
    | .scripted _ _ record => record.map RegistryScript.registry
    | .deployed d => (d.cluster createPool).registry st
  createPool := createPool

/-! ## Instructions -/

/-- A deployment's metadata do not change. -/
def Origin.apply (o : Origin) (c : Change Instruction) : Origin :=
  match o with
  | .scripted schemas rule record =>
    .scripted (c.schemas.getD schemas) (c.rule.getD rule) (c.record.getD record)
  | .deployed d => .deployed d

def apply (st : Stage) (c : Change Instruction) : Stage :=
  { st with pools := c.pools.getD st.pools, origin := st.origin.apply c }

def Instruction.step : Instruction → Step Stage
  | .call c => .call c
  | .closeConnection id => .closeConnection fun st => st.connection? id
  | .changeSource label d => .outside do
    let st ← get
    match st.find? label with
    | none => return .done
    | some s =>
      set (st.updateSource s fun t => { t with behaviour := d.apply t.behaviour })
      return .done
  | .change c => .outside do
    modify (·.apply c)
    return .done
  | .reportSources => .outside do return .reports (← get).reports

/-- The steps of all cues for a moment. -/
def cued (source : Source) (moment : Moment) : List (Step Stage) :=
  (source.behaviour.cues.filter fun cue => cue.moment == moment).flatMap fun cue =>
    cue.script.map Instruction.step

/-- Counts the attempt. -/
def beginOpen (s : SourceId) : StateM Stage (List (Step Stage)) := do
  match (← get).source? s with
  | none => return []
  | some source =>
    modify (·.updateSource s fun t => { t with attempts := t.attempts + 1 })
    return cued source (.opening source.attempts)

def beginClose (c : Connection) : StateM Stage (List (Step Stage)) := do
  match (← get).source? c.source with
  | none => return []
  | some source => return cued source (.closing c.serial)

def surroundings : Surroundings Stage where
  cluster := cluster
  beginOpen := beginOpen
  finishOpen := finishOpen
  beginClose := beginClose
  finishClose := finishClose
  isClosed := isClosed

end Stage

end SessionBroker
