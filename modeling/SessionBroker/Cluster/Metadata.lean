import SessionBroker.Action
import SessionBroker.Cluster.Node
import SessionBroker.Cluster.PoolProperties
import SessionBroker.Cluster.TrafficRule
import SessionBroker.Cluster.User

/-!
# What a cluster tells and does

The outside world of a session, as actions on a state `σ` that is left open: which physical
data sources a schema has, which traffic rule is in force, what a registry has on record, and
how a pool is created. Reads look at the state, everything else may also change it. A caller
reaches a cluster through an `Access`, where a read is an action, too: it may leave a trace.

`createPools` creates one pool per entry of a properties map, in the map's order, and stops at the
first failure.
-/

namespace SessionBroker

/-- A data source, numbered in the order of creation. -/
abbrev SourceId := Nat

abbrev SourceMap := OrderedMap String SourceId

/-- A registry of the cluster's metadata. -/
structure Registry (σ : Type) where
  loadNodes : NodeKind → List String → Action σ (List ComputeNode)
  loadProperties : String → Action σ (OrderedMap String PoolProperties)
  loadUsers : Action σ (List User)

structure Cluster (σ : Type) where
  /-- The physical data sources of a schema. -/
  physical : σ → String → SourceMap
  trafficRule : σ → Option TrafficRule
  registry : σ → Option (Registry σ)
  createPool : PoolProperties → Action σ SourceId

/-- What a cluster is asked without anything being done. -/
inductive Question where
  | physical (schema : String)
  | trafficRule
  | registry
deriving DecidableEq, Repr

/-- A cluster as a caller reaches it. -/
structure Access (σ : Type) where
  physical : String → StateM σ SourceMap
  trafficRule : StateM σ (Option TrafficRule)
  registry : StateM σ (Option (Registry σ))
  createPool : PoolProperties → Action σ SourceId

/-- The nodes of a kind that carry one of the labels. -/
def selectNodes (kind : NodeKind) (labels : List String) (nodes : List ComputeNode) :
    List ComputeNode :=
  nodes.filter fun n => n.identity.kind == kind && n.matchesAnyLabel labels

/-- Creates a pool for each entry, under the entry's name. -/
def createPools {σ : Type} (create : PoolProperties → Action σ SourceId)
    (props : OrderedMap String PoolProperties) : Action σ SourceMap :=
  props.entries.foldlM (fun created e => do
    let source ← create e.2
    return created.insert e.1 source) .empty

end SessionBroker
