import SessionBroker.Proofs.Building
import SessionBroker.Proofs.NodePools

/-!
# How a build ends

A build has many exits, each with the calls that were made up to it. It asks for the nodes, for
the properties of the schema's data sources and for the users, in this order, and for each of them
only if there was something in what it asked for before. Only then are pools created.

There is one relation for each stage, which says how a build goes on from there: the events that it
leaves from then on, its result, and the surroundings in the end.
-/

namespace SessionBroker

/-! ## Stages -/

section Stages

variable {ε : Type}

/-- From nodes, users and a sample on. -/
inductive PoolStage (create : PoolProperties → Action ε SourceId) (nodes : List ComputeNode)
    (users : List User) (sample : PoolProperties) (schema : String) (env : ε) :
    List Event → Except Error Routes → ε → Prop where
  | userless (husers : users = []) :
      PoolStage create nodes users sample schema env []
        (.error (.metadata "Can not find any user to access compute node instances.")) env
  | urlless (husers : users ≠ []) (hurl : sample.url? = none) :
      PoolStage create nodes users sample schema env []
        (.error (.configuration "Data source properties have no 'jdbcUrl'")) env
  | unpointed {url : String} (husers : users ≠ []) (hurl : sample.url? = some url)
      (hpointed : ¬ ['/', '/'] <:+: url.toList) :
      PoolStage create nodes users sample schema env []
        (.error (.configuration ("Invalid url '" ++ url ++ "'"))) env
  /-- One pool is created for each id, up to the first failure. -/
  | pooled {user : User} {rest : List User} {url : String}
      {props : OrderedMap String PoolProperties} {rs : List (Except Error SourceId)}
      {r : Except Error Routes} {env' : ε} (husers : users = user :: rest)
      (hurl : sample.url? = some url) (hpointed : ['/', '/'] <:+: url.toList)
      (hkeys : props.keys = (nodes.map ComputeNode.id).eraseDups)
      (hprops : ∀ n ∈ nodes, ∃ p, sample.forNode n.identity user schema = .ok p ∧
        props.get? n.id = some p)
      (hpools : CreatesPools create props env rs r env') :
      PoolStage create nodes users sample schema env (poolEvents props.values rs) r env'

/-- From nodes and a sample on. -/
inductive UserStage (create : PoolProperties → Action ε SourceId) (registry : Registry ε)
    (nodes : List ComputeNode) (sample : PoolProperties) (schema : String) (env : ε) :
    List Event → Except Error Routes → ε → Prop where
  | failed {e : Error} {env' : ε} (hload : registry.loadUsers env = (.error e, env')) :
      UserStage create registry nodes sample schema env [.usersLoaded] (.error e) env'
  | loaded {users : List User} {env₁ env' : ε} {events : List Event} {r : Except Error Routes}
      (hload : registry.loadUsers env = (.ok users, env₁))
      (hrest : PoolStage create nodes users sample schema env₁ events r env') :
      UserStage create registry nodes sample schema env (.usersLoaded :: events) r env'

/-- From nodes on. -/
inductive SampleStage (create : PoolProperties → Action ε SourceId) (registry : Registry ε)
    (nodes : List ComputeNode) (schema : String) (env : ε) :
    List Event → Except Error Routes → ε → Prop where
  | failed {e : Error} {env' : ε} (hload : registry.loadProperties schema env = (.error e, env')) :
      SampleStage create registry nodes schema env [.propertiesLoaded schema] (.error e) env'
  | empty {known : OrderedMap String PoolProperties} {env' : ε}
      (hload : registry.loadProperties schema env = (.ok known, env')) (hnone : known.values = []) :
      SampleStage create registry nodes schema env [.propertiesLoaded schema]
        (.error (.metadata "Can not get data source properties from meta data.")) env'
  /-- The first properties are the sample. -/
  | loaded {known : OrderedMap String PoolProperties} {sample : PoolProperties}
      {rest : List PoolProperties} {env₁ env' : ε} {events : List Event} {r : Except Error Routes}
      (hload : registry.loadProperties schema env = (.ok known, env₁))
      (hsample : known.values = sample :: rest)
      (hrest : UserStage create registry nodes sample schema env₁ events r env') :
      SampleStage create registry nodes schema env (.propertiesLoaded schema :: events) r env'

/-- From a rule and a registry on. -/
inductive NodeStage (create : PoolProperties → Action ε SourceId) (registry : Registry ε)
    (labels : List String) (schema : String) (env : ε) :
    List Event → Except Error Routes → ε → Prop where
  | failed {e : Error} {env' : ε} (hload : registry.loadNodes .proxy labels env = (.error e, env')) :
      NodeStage create registry labels schema env [.nodesLoaded .proxy labels] (.error e) env'
  | empty {env' : ε} (hload : registry.loadNodes .proxy labels env = (.ok [], env')) :
      NodeStage create registry labels schema env [.nodesLoaded .proxy labels] (.ok .empty) env'
  | loaded {nodes : List ComputeNode} {env₁ env' : ε} {events : List Event}
      {r : Except Error Routes} (hload : registry.loadNodes .proxy labels env = (.ok nodes, env₁))
      (hnodes : nodes ≠ [])
      (hrest : SampleStage create registry nodes schema env₁ events r env') :
      NodeStage create registry labels schema env (.nodesLoaded .proxy labels :: events) r env'

/-- From the beginning on, with the questions that the cluster is asked. -/
inductive BuildStage (cluster : Cluster ε) (schema : String) (env : ε) :
    List Question → List Event → Except Error Routes → ε → Prop where
  | unruled (hrule : cluster.trafficRule env = none) :
      BuildStage cluster schema env [.trafficRule] [] (.ok .empty) env
  | unlabelled {rule : TrafficRule} (hrule : cluster.trafficRule env = some rule)
      (hlabels : rule.labels = []) :
      BuildStage cluster schema env [.trafficRule] [] (.ok .empty) env
  | unregistered {rule : TrafficRule} (hrule : cluster.trafficRule env = some rule)
      (hlabels : rule.labels ≠ []) (hregistry : cluster.registry env = none) :
      BuildStage cluster schema env [.trafficRule, .registry] [] (.ok .empty) env
  | asked {rule : TrafficRule} {registry : Registry ε} {events : List Event}
      {r : Except Error Routes} {env' : ε} (hrule : cluster.trafficRule env = some rule)
      (hlabels : rule.labels ≠ []) (hregistry : cluster.registry env = some registry)
      (hrest : NodeStage cluster.createPool registry rule.labels schema env events r env') :
      BuildStage cluster schema env [.trafficRule, .registry] events r env'

end Stages

/-! ## Every build goes through the stages -/

section Exits

variable {ε : Type} {cluster : Cluster ε} {registry : Registry ε} {nodes : List ComputeNode}
  {sample : PoolProperties} {call : Nat}

theorem poolStage (hnodes : nodes ≠ []) (users : List User) (schema : String) (w : World ε) :
    ∃ events r env', PoolStage cluster.createPool nodes users sample schema w.env events r env' ∧
      (do
        let props ← Action.ofExcept (deriveProperties nodes users sample schema)
        createPools (cluster.logged call).createPool props : Action (World ε) Routes) w =
          (r, w.noted call [] events env') := by
  cases users with
  | nil => exact ⟨_, _, _, .userless rfl, by rw [World.noted_nil]; rfl⟩
  | cons user rest =>
      obtain ⟨first, others, rfl⟩ := List.exists_cons_of_ne_nil hnodes
      have husers : user :: rest ≠ [] := List.cons_ne_nil user rest
      rw [Action.bind_apply, Action.ofExcept_apply]
      cases hurl : sample.url? with
      | none =>
          refine ⟨_, _, _, .urlless husers hurl, ?_⟩
          rw [deriveProperties_of_failed others rest
            (sample.forNode_of_urlless first.identity user schema hurl), World.noted_nil]
      | some url =>
          by_cases hpointed : ['/', '/'] <:+: url.toList
          · have hpointable : sample.Pointable :=
              ⟨url, PoolProperties.url?_eq_some.mp hurl, hpointed⟩
            obtain ⟨entry, -, hentry⟩ := exists_entry user sample schema
            obtain ⟨props, hprops, hkeys, hget⟩ :=
              deriveProperties_of_entry rest fun n (_ : n ∈ first :: others) =>
                hentry hpointable n.identity
            rw [hprops]
            dsimp only
            rcases hcreate : createPools (cluster.logged call).createPool _ w with ⟨r, w'⟩
            obtain ⟨rs, env', hpools, rfl⟩ := createsPools_logged hcreate
            refine ⟨_, r, env', .pooled rfl hurl hpointed hkeys ?_ hpools, rfl⟩
            intro n hn
            refine ⟨entry n.id, hentry hpointable n.identity, hget n.id ?_⟩
            rw [hkeys, List.mem_eraseDups]
            exact List.mem_map_of_mem hn
          · refine ⟨_, _, _, .unpointed husers hurl hpointed, ?_⟩
            rw [deriveProperties_of_failed others rest
              (sample.forNode_of_unpointed first.identity user schema hurl hpointed),
              World.noted_nil]

theorem userStage (hnodes : nodes ≠ []) (schema : String) (w : World ε) :
    ∃ events r env',
      UserStage cluster.createPool registry nodes sample schema w.env events r env' ∧
      (do
        let users ← World.load call .usersLoaded registry.loadUsers
        let props ← Action.ofExcept (deriveProperties nodes users sample schema)
        createPools (cluster.logged call).createPool props : Action (World ε) Routes) w =
          (r, w.noted call [] events env') := by
  rw [load_bind_apply]
  rcases hload : registry.loadUsers w.env with ⟨r, env₁⟩
  cases r with
  | error e => exact ⟨_, _, _, .failed hload, rfl⟩
  | ok users =>
      obtain ⟨events, r, env', hstage, hrest⟩ :=
        poolStage hnodes users schema (w.noted call [] [.usersLoaded] env₁)
      refine ⟨_, r, env', .loaded hload hstage, ?_⟩
      dsimp only
      rw [hrest, World.noted_noted]
      rfl

theorem sampleStage (hnodes : nodes ≠ []) (schema : String) (w : World ε) :
    ∃ events r env', SampleStage cluster.createPool registry nodes schema w.env events r env' ∧
      (do
        let known ← World.load call (.propertiesLoaded schema) (registry.loadProperties schema)
        match known.values with
        | [] => throw (.metadata "Can not get data source properties from meta data.")
        | sample :: _ =>
          let users ← World.load call .usersLoaded registry.loadUsers
          let props ← Action.ofExcept (deriveProperties nodes users sample schema)
          createPools (cluster.logged call).createPool props : Action (World ε) Routes) w =
          (r, w.noted call [] events env') := by
  rw [load_bind_apply]
  rcases hload : registry.loadProperties schema w.env with ⟨r, env₁⟩
  cases r with
  | error e => exact ⟨_, _, _, .failed hload, rfl⟩
  | ok known =>
      dsimp only
      cases hvalues : known.values with
      | nil => exact ⟨_, _, _, .empty hload hvalues, rfl⟩
      | cons sample rest =>
          obtain ⟨events, r, env', hstage, hrest⟩ :=
            userStage hnodes schema (w.noted call [] [.propertiesLoaded schema] env₁)
          refine ⟨_, r, env', .loaded hload hvalues hstage, ?_⟩
          dsimp only
          rw [hrest, World.noted_noted]
          rfl

theorem nodeStage (cluster : Cluster ε) (registry : Registry ε) (call : Nat) (labels : List String)
    (schema : String) (w : World ε) :
    ∃ events r env', NodeStage cluster.createPool registry labels schema w.env events r env' ∧
      (do
        let nodes ← World.load call (.nodesLoaded .proxy labels) (registry.loadNodes .proxy labels)
        if nodes.isEmpty then return .empty
        let known ← World.load call (.propertiesLoaded schema) (registry.loadProperties schema)
        match known.values with
        | [] => throw (.metadata "Can not get data source properties from meta data.")
        | sample :: _ =>
          let users ← World.load call .usersLoaded registry.loadUsers
          let props ← Action.ofExcept (deriveProperties nodes users sample schema)
          createPools (cluster.logged call).createPool props : Action (World ε) Routes) w =
          (r, w.noted call [] events env') := by
  rw [load_bind_apply]
  rcases hload : registry.loadNodes .proxy labels w.env with ⟨r, env₁⟩
  cases r with
  | error e => exact ⟨_, _, _, .failed hload, rfl⟩
  | ok nodes =>
      dsimp only
      cases nodes with
      | nil => exact ⟨_, _, _, .empty hload, rfl⟩
      | cons first others =>
          have hnodes : first :: others ≠ [] := List.cons_ne_nil first others
          obtain ⟨events, r, env', hstage, hrest⟩ :=
            sampleStage hnodes schema (w.noted call [] [.nodesLoaded .proxy labels] env₁)
          refine ⟨_, r, env', .loaded hload hnodes hstage, ?_⟩
          rw [List.isEmpty_cons, if_neg Bool.false_ne_true, hrest, World.noted_noted]
          rfl

/-! ## Main result -/

/-- A build goes through its stages, and does nothing else: it asks and leaves the events as the
stages say, and changes nothing but the surroundings. -/
theorem build_by_stages (cluster : Cluster ε) (call : Nat) (schema : String) (w : World ε) :
    ∃ qs events r env', BuildStage cluster schema w.env qs events r env' ∧
      buildRoutes (cluster.logged call) schema w = (r, w.noted call qs events env') := by
  cases hrule : cluster.trafficRule w.env with
  | none => exact ⟨_, _, _, _, .unruled hrule, buildRoutes_unruled hrule⟩
  | some rule =>
      by_cases hlabels : rule.labels = []
      · exact ⟨_, _, _, _, .unlabelled hrule hlabels, buildRoutes_unlabelled hrule hlabels⟩
      cases hregistry : cluster.registry w.env with
      | none =>
          exact ⟨_, _, _, _, .unregistered hrule hlabels hregistry,
            buildRoutes_unregistered hrule hlabels hregistry⟩
      | some registry =>
          obtain ⟨events, r, env', hstage, hrest⟩ := nodeStage cluster registry call rule.labels
            schema (w.noted call [.trafficRule, .registry] [] w.env)
          refine ⟨_, events, r, env', .asked hrule hlabels hregistry hstage, ?_⟩
          rw [buildRoutes_asked hrule hlabels hregistry]
          refine hrest.trans ?_
          rw [World.noted_noted]
          rfl

end Exits

end SessionBroker
