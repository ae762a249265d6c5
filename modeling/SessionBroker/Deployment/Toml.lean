import SessionBroker.Deployment.Config
import SessionBroker.Toml.Document
import SessionBroker.Toml.Record

/-!
# Configurations in TOML

How a document describes a deployment, and the configuration that a file holds. Nodes and users
are tables; traffic rules and pool properties are records of either form.
-/

namespace SessionBroker

/-- A kind stands alone, or as the key of an empty table in a table of one entry. -/
def NodeKind.ofToml? : Toml.Item → Option NodeKind
  | .string s => ofText? s
  | i =>
    match i.entries? with
    | some [(k, unit)] =>
      match unit.entries? with
      | some [] => ofText? k
      | _ => none
    | _ => none

def ComputeNode.ofToml? (i : Toml.Item) : Option ComputeNode := do
  let es ← i.entries?
  let kind ← (es.lookup "type").bind NodeKind.ofToml?
  let id ← (es.lookup "id").bind Toml.Item.string?
  let labels ←
    Toml.orDefault (Toml.list? Toml.Item.string?) [] (es.lookup "labels")
  some ⟨⟨kind, id⟩, labels⟩

def User.ofToml? (i : Toml.Item) : Option User := do
  let es ← i.entries?
  let username ← (es.lookup "username").bind Toml.Item.string?
  let hostname ←
    Toml.orDefault Toml.Item.string? Grantee.anyHost (es.lookup "hostname")
  let password ← Toml.orDefault Toml.Item.string? "" (es.lookup "password")
  some ⟨⟨username, hostname⟩, password⟩

def TrafficRule.ofToml? (i : Toml.Item) : Option TrafficRule := do
  match ← Toml.record? ["labels"] i with
  | [labels] => (Toml.orDefault (Toml.list? Toml.Item.string?) [] labels).map TrafficRule.mk
  | _ => none

def PoolProperties.propsOfToml? (i : Toml.Item) : Option (OrderedMap String Json.Value) :=
  i.entries?.map fun es => .ofList (es.map fun e => (e.1, e.2.toJson))

def PoolProperties.ofToml? (i : Toml.Item) : Option PoolProperties := do
  match ← Toml.record? ["pool_type", "props"] i with
  | [some poolType, props] =>
    let poolType ← poolType.string?
    let props ← Toml.orDefault propsOfToml? .empty props
    some ⟨poolType, props⟩
  | _ => none

namespace DeploymentConfig

def dataSourcesOfToml? (i : Toml.Item) : Option (OrderedMap String PoolProperties) := do
  let es ← i.entries?
  let entries ← es.mapM fun e => (PoolProperties.ofToml? e.2).map fun p => (e.1, p)
  some (.ofList entries)

/-- The configuration that the entries of a document describe. -/
def ofEntries? (es : Toml.Entries) : Option DeploymentConfig := do
  let schema ← (es.lookup "schema").bind Toml.Item.string?
  let dataSources ←
    Toml.orDefault dataSourcesOfToml? .empty (es.lookup "data_sources")
  let traffic ←
    Toml.orDefault (fun i => (TrafficRule.ofToml? i).map some) none
      (es.lookup "traffic")
  let nodes ← Toml.orDefault (Toml.list? ComputeNode.ofToml?) [] (es.lookup "instances")
  let users ← Toml.orDefault (Toml.list? User.ofToml?) [] (es.lookup "users")
  some ⟨schema, dataSources, traffic, nodes, users⟩

/-- Reads a configuration and refuses it if it cannot serve a session. -/
def ofToml (text : String) : Except Error DeploymentConfig :=
  match (Toml.document? text).bind ofEntries? with
  | none => .error (.configuration "Invalid context config: the document does not describe one")
  | some config =>
    match config.validate with
    | .error e => .error e
    | .ok _ => .ok config

/-- Reads the configuration that a file holds; `none` stands for a file that does not exist. -/
def load (file : Option ByteArray) : Except Error DeploymentConfig :=
  match file with
  | none => .error (.io "No such file or directory (os error 2)")
  | some bytes =>
    match String.fromUTF8? bytes with
    | none => .error (.io "stream did not contain valid UTF-8")
    | some text => ofToml text

end DeploymentConfig

end SessionBroker
