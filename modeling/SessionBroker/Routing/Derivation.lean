import SessionBroker.Cluster.PoolProperties
import SessionBroker.Cluster.User
import SessionBroker.Routing.Retarget

/-!
# Pool properties of routed nodes

The pool of a node is described by the properties of a sample data source, its url
pointed at the node and its credentials those of a user of the cluster.
-/

namespace SessionBroker

/-- The properties of one node's pool. -/
def PoolProperties.forNode (sample : PoolProperties) (node : NodeIdentity) (user : User)
    (schema : String) : Except Error PoolProperties := do
  match sample.url? with
  | none =>
    throw (.configuration ("Data source properties have no '" ++ PoolProperties.urlKey ++ "'"))
  | some url =>
    let url ← retarget node schema url
    return ((sample.set PoolProperties.urlKey (.string url)).set PoolProperties.usernameKey
      (.string user.username)).set PoolProperties.passwordKey (.string user.password)

/-- The properties of all nodes' pools, by node id, with the credentials of the first user. -/
def deriveProperties (nodes : List ComputeNode) (users : List User) (sample : PoolProperties)
    (schema : String) : Except Error (OrderedMap String PoolProperties) :=
  match users with
  | [] => .error (.metadata "Can not find any user to access compute node instances.")
  | user :: _ =>
    nodes.foldlM (fun derived node => do
      let props ← sample.forNode node.identity user schema
      return derived.insert node.id props) .empty

end SessionBroker
