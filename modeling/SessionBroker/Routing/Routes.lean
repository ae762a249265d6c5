import SessionBroker.Cluster.Metadata
import SessionBroker.Routing.Derivation

/-!
# Routes to compute nodes

A route table maps the ids of the nodes that take a session's traffic to their pools. A
router builds its table on first use and keeps it: a table is never built again, while a failed
build leaves the router as it was.
-/

namespace SessionBroker

/-- The pools of the routed nodes, by node id. -/
abbrev Routes := SourceMap

variable {σ : Type}

/-- Builds the route table of a schema. There is nothing to route without a rule, labels in it, a
registry, or proxies that carry one of the labels. -/
def buildRoutes (access : Access σ) (schema : String) : Action σ Routes := do
  match ← access.trafficRule with
  | none => return .empty
  | some rule =>
    if rule.labels.isEmpty then return .empty
    match ← access.registry with
    | none => return .empty
    | some registry =>
      let nodes ← registry.loadNodes .proxy rule.labels
      if nodes.isEmpty then return .empty
      let known ← registry.loadProperties schema
      match known.values with
      | [] => throw (.metadata "Can not get data source properties from meta data.")
      | sample :: _ =>
        let users ← registry.loadUsers
        let props ← Action.ofExcept (deriveProperties nodes users sample schema)
        createPools access.createPool props

/-- A schema's route table, once it is built. -/
structure Router where
  schema : String
  routes : Option Routes

namespace Router

def new (schema : String) : Router := ⟨schema, none⟩

/-- The table of a router that lives in the state: the one that was built, or a fresh one that
is then kept. -/
def resolve (access : Access σ) (router : σ → Router) (keep : Routes → σ → σ) :
    Action σ Routes := do
  match (router (← get)).routes with
  | some routes => return routes
  | none =>
    let routes ← buildRoutes access (router (← get)).schema
    modify (keep routes)
    return routes

end Router

end SessionBroker
