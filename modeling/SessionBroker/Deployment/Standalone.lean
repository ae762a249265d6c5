import SessionBroker.Cluster.Metadata
import SessionBroker.Deployment.Config

/-!
# Standalone deployments

A deployment that is described by its configuration alone. Its physical pools are created
once, when it starts, and it serves one schema; its configuration is its registry.
-/

namespace SessionBroker

structure Deployment where
  config : DeploymentConfig
  sources : SourceMap

namespace Deployment

variable {σ : Type}

/-- Creates the physical pools of a configuration. -/
def start (create : PoolProperties → Action σ SourceId) (config : DeploymentConfig) :
    Action σ Deployment := do
  let sources ← createPools create config.dataSources
  return ⟨config, sources⟩

def schema (d : Deployment) : String := d.config.schema

/-- The configuration as a registry. A schema that is not served has no properties on record. -/
def registry (d : Deployment) : Registry σ where
  loadNodes kind labels := return selectNodes kind labels d.config.nodes
  loadProperties schema := return if schema = d.schema then d.config.dataSources else .empty
  loadUsers := return d.config.users

def cluster (d : Deployment) (create : PoolProperties → Action σ SourceId) : Cluster σ where
  physical _ schema := if schema = d.schema then d.sources else .empty
  trafficRule _ := d.config.traffic
  registry _ := some d.registry
  createPool := create

end Deployment

end SessionBroker
