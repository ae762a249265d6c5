import SessionBroker.Json.Record
import SessionBroker.OrderedMap

/-!
# Properties of pooled data sources

The kind of pool and a map from property names to JSON values. The map remembers the
order in which properties were first set; equality does not look at it.
-/

namespace SessionBroker

structure PoolProperties where
  poolType : String
  props : OrderedMap String Json.Value

namespace PoolProperties

def urlKey : String := "jdbcUrl"

def usernameKey : String := "username"

def passwordKey : String := "password"

def new (poolType : String) : PoolProperties := ⟨poolType, .empty⟩

instance : Inhabited PoolProperties := ⟨new ""⟩

def set (p : PoolProperties) (key : String) (value : Json.Value) : PoolProperties :=
  { p with props := p.props.insert key value }

def get? (p : PoolProperties) (key : String) : Option Json.Value := p.props.get? key

/-- A property as text: a string itself, any other value as JSON. -/
def text? (p : PoolProperties) (key : String) : Option String :=
  (p.get? key).map fun v =>
    match v with
    | .string s => s
    | v => v.text

def url? (p : PoolProperties) : Option String := p.text? urlKey

/-- Equality of pool kinds and of the values under every key. -/
def same (p q : PoolProperties) : Bool :=
  p.poolType == q.poolType && p.props.sameEntries Json.Value.same q.props

def render (p : PoolProperties) : List Char :=
  Json.braced
    [("pool_type", Json.renderString p.poolType),
      ("props", Json.braced (p.props.entries.map fun e => (e.1, e.2.render)))]

/-- Reads a property map whose values may be nested at most `depth` deep. Of a repeated
property the last value counts, at its first place. -/
def propsOfJson? (depth : Nat) : Json.Written → Option (OrderedMap String Json.Value)
  | .object fields => (Json.Written.fieldValues? depth fields).map OrderedMap.ofList
  | _ => none

/-- Reads properties at a place where `depth` levels of nesting are left. -/
def ofJson? (depth : Nat) (w : Json.Written) : Option PoolProperties := do
  match ← w.record? ["pool_type", "props"] with
  | [some poolType, props] =>
    let poolType ← poolType.string?
    let props ← Json.Written.orDefault (propsOfJson? (depth - 2)) .empty props
    some ⟨poolType, props⟩
  | _ => none

end PoolProperties

end SessionBroker
