import SessionBroker.Session.World

/-!
# Scripts

Data that describe a world to rehearse sessions in: how sources behave, what the cluster
knows, and which instructions are played, at top level or as cues inside an attempt to open or
to close a connection.
-/

namespace SessionBroker.Stage

/-- When a cue is played. -/
inductive Moment where
  /-- At the start of the `n`-th attempt to open a connection, from zero. -/
  | opening (n : Nat)
  /-- At the start of every attempt to close the `n`-th connection. -/
  | closing (n : Nat)
deriving DecidableEq

structure Cue (ι : Type) where
  moment : Moment
  script : List ι

/-- How a source behaves. -/
structure Behaviour (ι : Type) where
  /-- After that many opened connections, opening fails. -/
  failAfter : Option Nat
  openError : Option Error
  failClose : Bool
  cues : List (Cue ι)

/-- New values for some parts of a source's behaviour. -/
structure BehaviourChange (ι : Type) where
  failAfter : Option (Option Nat)
  openError : Option (Option Error)
  failClose : Option Bool
  cues : Option (List (Cue ι))

def BehaviourChange.apply {ι : Type} (d : BehaviourChange ι) (b : Behaviour ι) : Behaviour ι where
  failAfter := d.failAfter.getD b.failAfter
  openError := d.openError.getD b.openError
  failClose := d.failClose.getD b.failClose
  cues := d.cues.getD b.cues

/-- What becomes of a pool whose url contains a text. -/
structure PoolRule (ι : Type) where
  contains : String
  createError : Option Error
  behaviour : Behaviour ι

/-- What a registry has on record, and which of its loads fail. -/
structure RegistryScript where
  props : OrderedMap String (OrderedMap String PoolProperties)
  nodes : List ComputeNode
  users : List User
  nodesError : Option Error
  propsError : Option Error
  usersError : Option Error

/-- New values for some parts of the world. -/
structure Change (ι : Type) where
  rule : Option (Option TrafficRule)
  record : Option (Option RegistryScript)
  pools : Option (List (PoolRule ι))
  schemas : Option (OrderedMap String (List String))

inductive Instruction where
  | call (c : Call)
  /-- A caller closes the connection with this id. -/
  | closeConnection (id : String)
  | changeSource (label : String) (change : BehaviourChange Instruction)
  | change (c : Change Instruction)
  | reportSources

end SessionBroker.Stage
