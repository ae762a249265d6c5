import SessionBroker.Cluster.Node
import SessionBroker.Cluster.PoolProperties
import SessionBroker.Cluster.TrafficRule
import SessionBroker.Cluster.User
import SessionBroker.Error

/-!
# Configuration of a standalone deployment

All that a deployment without a registry of its own knows about its cluster, and its
form in JSON. A usable configuration names its schema and has a data source.
-/

namespace SessionBroker

structure DeploymentConfig where
  schema : String
  dataSources : OrderedMap String PoolProperties
  traffic : Option TrafficRule
  nodes : List ComputeNode
  users : List User
deriving Inhabited

namespace DeploymentConfig

/-- Refuses a configuration that cannot serve a session. -/
def validate (c : DeploymentConfig) : Except Error Unit :=
  if c.schema.isEmpty then .error (.configuration "schema must not be empty")
  else if c.dataSources.isEmpty then
    .error (.configuration ("schema '" ++ c.schema ++ "' has no data sources"))
  else .ok ()

/-! ## In JSON -/

def render (c : DeploymentConfig) : List Char :=
  Json.braced
    [("schema", Json.renderString c.schema),
      ("data_sources", Json.braced (c.dataSources.entries.map fun e => (e.1, e.2.render))),
      ("traffic", match c.traffic with
        | none => Json.Value.null.render
        | some rule => rule.render),
      ("instances", Json.bracketed (c.nodes.map ComputeNode.render)),
      ("users", Json.bracketed (c.users.map User.render))]

def fieldNames : List String := ["schema", "data_sources", "traffic", "instances", "users"]

/-- Reads data sources by name. Of a repeated name the last counts, at its first place. -/
def dataSourcesOfJson? (depth : Nat) :
    Json.Written → Option (OrderedMap String PoolProperties)
  | .object fields => do
    let fs ← Json.Written.named? fields
    let entries ← fs.mapM fun f => (PoolProperties.ofJson? depth f.2).map fun p => (f.1, p)
    some (.ofList entries)
  | _ => none

def items? {α : Type} (read : Json.Written → Option α) : Json.Written → Option (List α)
  | .array items => items.mapM read
  | _ => none

def trafficOfJson? : Json.Written → Option (Option TrafficRule)
  | .null => some none
  | w => (TrafficRule.ofJson? w).map some

/-- Reads a configuration at a place where `depth` levels of nesting are left. -/
def ofJson? (depth : Nat) (w : Json.Written) : Option DeploymentConfig := do
  match ← w.record? fieldNames with
  | [some schema, dataSources, traffic, nodes, users] =>
    let schema ← schema.string?
    let dataSources ←
      Json.Written.orDefault (dataSourcesOfJson? (depth - 2)) .empty dataSources
    let traffic ← Json.Written.orDefault trafficOfJson? none traffic
    let nodes ← Json.Written.orDefault (items? (ComputeNode.ofJson? (depth - 2))) [] nodes
    let users ← Json.Written.orDefault (items? (User.ofJson? (depth - 2))) [] users
    some ⟨schema, dataSources, traffic, nodes, users⟩
  | _ => none

end DeploymentConfig

end SessionBroker
