import SessionBroker.Proofs.Deployment

/-!
# Credentials of physical sources

The pool of a routed node is described by the sample, but for its credentials and for the place that
its url points at. So two deployments whose samples differ in nothing else, and which agree on the
rule, the nodes and the first user, hand the same properties to the creator of pools. What is compared
are two builds: the properties that each hands over, and the names or the error that it ends with.
-/

namespace SessionBroker

/-! ## Properties that agree -/

namespace PoolProperties

/-- The same but for the values of some properties. -/
structure AgreeBut (hidden : List String) (p q : PoolProperties) : Prop where
  poolType_eq : p.poolType = q.poolType
  keys_eq : p.props.keys = q.props.keys
  get?_eq : ∀ key, key ∉ hidden → p.get? key = q.get? key

variable {p q : PoolProperties} {hidden : List String} {key : String}

/-- A property that is set in both is hidden no more. -/
theorem AgreeBut.set (h : AgreeBut (key :: hidden) p q) (value : Json.Value) :
    AgreeBut hidden (p.set key value) (q.set key value) where
  poolType_eq := h.poolType_eq
  keys_eq := by
    show (p.props.insert key value).keys = (q.props.insert key value).keys
    rw [OrderedMap.keys_insert, OrderedMap.keys_insert, h.keys_eq]
  get?_eq := by
    intro other hother
    show (p.props.insert key value).get? other = (q.props.insert key value).get? other
    rw [OrderedMap.get?_insert, OrderedMap.get?_insert]
    by_cases hkey : other = key
    · rw [if_pos hkey, if_pos hkey]
    · rw [if_neg hkey, if_neg hkey]
      exact h.get?_eq other (List.not_mem_cons_of_ne_of_not_mem hkey hother)

theorem AgreeBut.eq (h : AgreeBut [] p q) : p = q := by
  obtain ⟨poolType, props⟩ := p
  obtain ⟨poolType', props'⟩ := q
  obtain rfl : poolType = poolType' := h.poolType_eq
  obtain rfl : props = props' :=
    OrderedMap.eq_of_get? h.keys_eq fun key => h.get?_eq key List.not_mem_nil
  rfl

/-- The same but for the credentials, and for what stands in the url between the first `//` and the
query string. -/
structure SameBeyond (p q : PoolProperties) : Prop
    extends AgreeBut [urlKey, usernameKey, passwordKey] p q where
  url_eq : ∃ url url' scheme rest rest', p.url? = some url ∧ q.url? = some url' ∧
    Text.splitAtFirst? ['/', '/'] url.toList = some (scheme, rest) ∧
    Text.splitAtFirst? ['/', '/'] url'.toList = some (scheme, rest') ∧
    (Text.splitAtFirst? ['?'] url.toList).map Prod.snd =
      (Text.splitAtFirst? ['?'] url'.toList).map Prod.snd

theorem SameBeyond.forNode_eq (h : SameBeyond p q) (node : NodeIdentity) (user : User)
    (schema : String) : p.forNode node user schema = q.forNode node user schema := by
  obtain ⟨url, url', scheme, rest, rest', hurl, hurl', hsplit, hsplit', hquery⟩ := h.url_eq
  have htarget : retarget node schema url = retarget node schema url' := by
    rw [retarget, retarget, hsplit, hsplit', hquery]
  have hset : ∀ target : String,
      ((p.set urlKey (.string target)).set usernameKey (.string user.username)).set passwordKey
          (.string user.password) =
        ((q.set urlKey (.string target)).set usernameKey (.string user.username)).set passwordKey
          (.string user.password) := fun target => (((h.set _).set _).set _).eq
  rw [forNode, forNode, hurl, hurl']
  dsimp only
  rw [htarget]
  cases retarget node schema url' with
  | error e => rfl
  | ok target => exact congrArg Except.ok (hset target)

end PoolProperties

/-- Nothing but the first user and the visible part of the sample counts. -/
theorem deriveProperties_congr {p q : PoolProperties} (h : p.SameBeyond q) {users users' : List User}
    (husers : users.head? = users'.head?) (nodes : List ComputeNode) (schema : String) :
    deriveProperties nodes users p schema = deriveProperties nodes users' q schema := by
  cases users with
  | nil =>
      rw [List.head?_eq_none_iff.mp husers.symm]
      rfl
  | cons user rest =>
      obtain ⟨rest', rfl⟩ := List.head?_eq_some_iff.mp husers.symm
      simp only [deriveProperties, h.forNode_eq]

/-! ## Pools in two surroundings -/

/-- The properties that a creation of a pool was given. -/
def Event.handed? : Event → Option PoolProperties
  | .poolCreated _ props | .poolFailed props => some props
  | _ => none

/-- The properties that were handed to the creator of pools, in order. -/
def handedIn (es : List Entry) : List PoolProperties := es.filterMap fun e => e.event.handed?

/-- Whether a pool is created, or why not, is told by its properties and by what `T` relates. Which
source the pool becomes does not matter. -/
def Steady {ε : Type} (T : ε → ε → Prop) (create : PoolProperties → Action ε SourceId) : Prop :=
  ∀ props env env', T env env' → T (create props env).2 (create props env').2 ∧
    (create props env).1.map (fun _ => ()) = (create props env').1.map fun _ => ()

/-- Two builds, or parts of builds, as seen from the creator of pools. `before` and `before'` had been
handed over when they began. -/
structure SameHandover {ε : Type} (T : ε → ε → Prop) (before before' : List PoolProperties)
    (built built' : Except Error Routes × World ε) : Prop where
  env : T built.2.env built'.2.env
  handed : ∃ new, handedIn built.2.log.toList = before ++ new ∧
    handedIn built'.2.log.toList = before' ++ new
  /-- The same names, or the same error. -/
  names_eq : built.1.map OrderedMap.keys = built'.1.map OrderedMap.keys

theorem handedIn_append (es es' : List Entry) : handedIn (es ++ es') = handedIn es ++ handedIn es' :=
  List.filterMap_append

section Handover

variable {ε : Type} {T : ε → ε → Prop} {create : PoolProperties → Action ε SourceId}
  {cluster cluster' : Cluster ε} {call call' : Nat} {w w' : World ε}

/-- What has been handed over before an attempt and what the attempt hands over. -/
theorem handedIn_createPool (cluster : Cluster ε) (call : Nat) (props : PoolProperties)
    (w : World ε) : handedIn ((cluster.logged call).createPool props w).2.log.toList =
      handedIn w.log.toList ++ [props] := by
  rw [createPool_logged]
  simp only [World.noted, Array.toList_append, handedIn_append]
  cases (cluster.createPool props w.env).1 <;> rfl

theorem createPools_handover (hcreate : Steady T create) (hcluster : cluster.createPool = create)
    (hcluster' : cluster'.createPool = create) (call call' : Nat)
    (props : OrderedMap String PoolProperties) {w w' : World ε} (hw : T w.env w'.env) :
    SameHandover T (handedIn w.log.toList) (handedIn w'.log.toList)
      (createPools (cluster.logged call).createPool props w)
      (createPools (cluster'.logged call').createPool props w') := by
  have hfold : ∀ (es : List (String × PoolProperties)) (m m' : SourceMap) (w w' : World ε),
      m.keys = m'.keys → T w.env w'.env →
      SameHandover T (handedIn w.log.toList) (handedIn w'.log.toList)
        (es.foldlM (fun m e => (do
          let source ← (cluster.logged call).createPool e.2
          return m.insert e.1 source : Action (World ε) SourceMap)) m w)
        (es.foldlM (fun m e => (do
          let source ← (cluster'.logged call').createPool e.2
          return m.insert e.1 source : Action (World ε) SourceMap)) m' w') := by
    intro es
    induction es with
    | nil =>
        intro m m' w w' hkeys hw
        exact ⟨hw, ⟨[], (List.append_nil _).symm, (List.append_nil _).symm⟩, congrArg Except.ok hkeys⟩
    | cons e es ih =>
        intro m m' w w' hkeys hw
        have hhanded := handedIn_createPool cluster call e.2 w
        have hhanded' := handedIn_createPool cluster' call' e.2 w'
        have hsteady := hcreate e.2 w.env w'.env hw
        simp only [List.foldlM_cons, Action.bind_apply]
        rw [createPool_logged, hcluster] at hhanded ⊢
        rw [createPool_logged, hcluster'] at hhanded' ⊢
        rcases hone : create e.2 w.env with ⟨r, env⟩
        rcases hother : create e.2 w'.env with ⟨r', env'⟩
        rw [hone] at hsteady hhanded
        rw [hother] at hsteady hhanded'
        obtain ⟨henv, hverdict⟩ := hsteady
        cases r with
        | error err =>
            cases r' with
            | ok source => cases hverdict
            | error err' =>
                cases hverdict
                exact ⟨henv, ⟨[e.2], hhanded, hhanded'⟩, rfl⟩
        | ok source =>
            cases r' with
            | error err => cases hverdict
            | ok source' =>
                have hnext : (m.insert e.1 source).keys = (m'.insert e.1 source').keys := by
                  rw [OrderedMap.keys_insert, OrderedMap.keys_insert, hkeys]
                obtain ⟨hend, ⟨new, hnew, hnew'⟩, hnames⟩ :=
                  ih _ _ (w.noted call [] [poolEvent e.2 (.ok source)] env)
                    (w'.noted call' [] [poolEvent e.2 (.ok source')] env') hnext henv
                have hlog : ∀ {before after : List PoolProperties}, after = before ++ [e.2] →
                    after ++ new = before ++ e.2 :: new := by
                  rintro before _ rfl
                  rw [List.append_assoc]
                  rfl
                exact ⟨hend, ⟨e.2 :: new, hnew.trans (hlog hhanded), hnew'.trans (hlog hhanded')⟩,
                  hnames⟩
  exact hfold props.entries .empty .empty w w' rfl hw

end Handover

/-! ## Main result -/

/-- Configurations that agree on all that routed pools may depend on. -/
structure SameToRouted (c c' : DeploymentConfig) : Prop where
  schema_eq : c.schema = c'.schema
  traffic_eq : c.traffic = c'.traffic
  nodes_eq : c.nodes = c'.nodes
  user_eq : c.users.head? = c'.users.head?
  samples : ∃ p q, c.dataSources.values.head? = some p ∧ c'.dataSources.values.head? = some q ∧
    p.SameBeyond q

section MainResult

variable {ε : Type} {T : ε → ε → Prop} {create : PoolProperties → Action ε SourceId}
  {d d' : Deployment} {w w' : World ε}

/-- Questions and loads hand nothing over. -/
theorem handedIn_noted {call : Nat} {qs : List Question} {events : List Event}
    (h : ∀ e ∈ events, e.handed? = none) (w : World ε) (env : ε) :
    handedIn (w.noted call qs events env).log.toList = handedIn w.log.toList := by
  have hnone : handedIn (events.map (Entry.mk call)) = [] := by
    rw [handedIn, List.filterMap_eq_nil_iff]
    intro e he
    obtain ⟨event, hevent, rfl⟩ := List.mem_map.mp he
    exact h event hevent
  simp only [World.noted, Array.toList_append, handedIn_append, hnone, List.append_nil]

theorem handed?_nodeLoads (d : Deployment) : ∀ e ∈ d.nodeLoads, e.handed? = none := by
  intro e he
  rcases d.ruled_or_not with ⟨-, hloads, -⟩ | ⟨rule, -, -, -, hloads, -⟩
  · rw [hloads] at he
    cases he
  · rw [hloads] at he
    rw [List.mem_singleton.mp he]
    rfl

theorem handed?_loads (d : Deployment) {events : List Event}
    (h : ∀ e ∈ events, e.handed? = none) : ∀ e ∈ d.nodeLoads ++ events, e.handed? = none :=
  fun e he => (List.mem_append.mp he).elim (handed?_nodeLoads d e) (h e)

/-- Two builds that create no pools and end with the same. -/
theorem handover_of_quiet {qs qs' : List Question} {events events' : List Event}
    (h : ∀ e ∈ events, e.handed? = none) (h' : ∀ e ∈ events', e.handed? = none) (call call' : Nat)
    (r : Except Error Routes) (hw : T w.env w'.env) :
    SameHandover T (handedIn w.log.toList) (handedIn w'.log.toList)
      (r, w.noted call qs events w.env) (r, w'.noted call' qs' events' w'.env) := by
  refine ⟨hw, ⟨[], ?_, ?_⟩, rfl⟩
  · rw [handedIn_noted h, List.append_nil]
  · rw [handedIn_noted h', List.append_nil]

/-- Builds of deployments that agree on what routed pools may depend on hand over the same
properties, and end with the same names or the same error. -/
theorem credentials_kept_apart (hcreate : Steady T create) (h : SameToRouted d.config d'.config)
    (call call' : Nat) (schema : String) (hw : T w.env w'.env) :
    SameHandover T (handedIn w.log.toList) (handedIn w'.log.toList)
      (buildRoutes ((d.cluster create).logged call) schema w)
      (buildRoutes ((d'.cluster create).logged call') schema w') := by
  have hnodes : d.routedNodes = d'.routedNodes := by
    rw [Deployment.routedNodes, Deployment.routedNodes, h.traffic_eq, h.nodes_eq]
  have hschema : d.schema = d'.schema := h.schema_eq
  by_cases hrouted : d.routedNodes = []
  · rw [d.buildRoutes_unrouted create call schema w hrouted,
      d'.buildRoutes_unrouted create call' schema w' (hnodes ▸ hrouted)]
    exact handover_of_quiet (handed?_nodeLoads d) (handed?_nodeLoads d') call call' _ hw
  rw [d.buildRoutes_routed create call schema w hrouted,
    d'.buildRoutes_routed create call' schema w' (hnodes ▸ hrouted), ← hschema]
  by_cases hserved : schema = d.schema
  · obtain ⟨p, q, hp, hq, hsame⟩ := h.samples
    obtain ⟨rest, hsources⟩ := List.head?_eq_some_iff.mp hp
    obtain ⟨rest', hsources'⟩ := List.head?_eq_some_iff.mp hq
    rw [if_pos hserved, if_pos hserved, hsources, hsources']
    dsimp only
    rw [← hnodes, ← deriveProperties_congr hsame h.user_eq]
    have hloads : ∀ d : Deployment, ∀ e ∈ d.nodeLoads ++
        [.propertiesLoaded schema, .usersLoaded], e.handed? = none :=
      fun d => handed?_loads d (by simp [Event.handed?])
    cases deriveProperties d.routedNodes d.config.users p schema with
    | error e => exact handover_of_quiet (hloads d) (hloads d') call call' _ hw
    | ok props =>
        have hloaded : T
            (w.noted call d.buildQuestions
              (d.nodeLoads ++ [.propertiesLoaded schema, .usersLoaded]) w.env).env
            (w'.noted call' d'.buildQuestions
              (d'.nodeLoads ++ [.propertiesLoaded schema, .usersLoaded]) w'.env).env :=
          hw
        have hcluster : (d.cluster create).createPool = create := rfl
        have hcluster' : (d'.cluster create).createPool = create := rfl
        have hpools := createPools_handover hcreate hcluster hcluster' call call' props hloaded
        rwa [handedIn_noted (hloads d), handedIn_noted (hloads d')] at hpools
  · rw [if_neg hserved, if_neg hserved]
    have hloads : ∀ d : Deployment, ∀ e ∈ d.nodeLoads ++ [.propertiesLoaded schema],
        e.handed? = none := fun d => handed?_loads d (by simp [Event.handed?])
    exact handover_of_quiet (hloads d) (hloads d') call call' _ hw

end MainResult

/-! ## Two deployments on a stage -/

namespace Stage

/-- Pools are created by the same rules. -/
def SameRules (st st' : Stage) : Prop := st.pools = st'.pools

theorem steady_createPool : Steady SameRules createPool := by
  intro props st st' h
  simp only [createPool, Action.bind_apply, Action.get_apply, show st.pools = st'.pools from h]
  generalize Option.bind _ PoolRule.createError = failure
  cases failure with
  | some e => exact ⟨h, rfl⟩
  | none => exact ⟨h, rfl⟩

/-- The second node has no pool. -/
def refusing : Stage :=
  ⟨[], [⟨"h:2", some (.other "refused"), .plain⟩], 0, .scripted .empty none none⟩

/-- A deployment with two routed nodes, which has this sample and these further users. -/
def sampled (sample : PoolProperties) (others : List (String × PoolProperties))
    (users : List User) : Deployment :=
  ⟨⟨"s", .ofList (("first", sample) :: others), some ⟨["x"]⟩,
    [⟨⟨.proxy, "h@1"⟩, ["x"]⟩, ⟨⟨.proxy, "h@2"⟩, ["x", "y"]⟩], ⟨⟨"u", "%"⟩, "p"⟩ :: users⟩, .empty⟩

def sampleOf (url username : String) : PoolProperties :=
  (((PoolProperties.new "pool").set "jdbcUrl" (.string url)).set "username" (.string username)).set
    "size" (.integer 3)

def oneDeployment : Deployment := sampled (sampleOf "db://one:1/a?q=//" "alice") [] []

/-- Another host, another user, and a second source. -/
def otherDeployment : Deployment :=
  sampled (sampleOf "db://two//b?q=//" "bob") [("second", .new "other")] [⟨⟨"v", "w"⟩, ""⟩]

theorem sameToRouted_deployments : SameToRouted oneDeployment.config otherDeployment.config where
  schema_eq := rfl
  traffic_eq := rfl
  nodes_eq := rfl
  user_eq := rfl
  samples := by
    refine ⟨_, _, rfl, rfl, ⟨rfl, rfl, ?_⟩, ?_⟩
    · intro key hkey
      have hurl : key ≠ "jdbcUrl" := fun h => hkey (by simp [h, PoolProperties.urlKey])
      have huser : key ≠ "username" := fun h => hkey (by simp [h, PoolProperties.usernameKey])
      simp only [sampleOf, PoolProperties.set, PoolProperties.get?, OrderedMap.get?_insert, hurl,
        huser, if_false]
    · exact ⟨_, _, "db:".toList, "//one:1/a?q=//".toList, "//two//b?q=//".toList, rfl, rfl,
        by decide +kernel, by decide +kernel, by decide +kernel⟩

end Stage

theorem refused_kept_apart :
    Steady Stage.SameRules Stage.createPool ∧
      SameToRouted Stage.oneDeployment.config Stage.otherDeployment.config ∧
      ∃ built built' : Except Error Routes × World Stage,
        built = buildRoutes ((Stage.oneDeployment.cluster Stage.createPool).logged 0) "s"
          (.new Stage.refusing) ∧
        built' = buildRoutes ((Stage.otherDeployment.cluster Stage.createPool).logged 7) "s"
          (.new Stage.refusing) ∧
        SameHandover Stage.SameRules [] [] built built' ∧
        (handedIn built'.2.log.toList).map PoolProperties.url? =
          [some "db://h:1/s?q=//", some "db://h:2/s?q=//"] ∧
        built'.1.map OrderedMap.keys = .error (.other "refused") := by
  refine ⟨Stage.steady_createPool, Stage.sameToRouted_deployments, _, _, rfl, rfl, ?_, ?_, ?_⟩
  · have hw : Stage.SameRules (World.new Stage.refusing).env (World.new Stage.refusing).env := rfl
    exact credentials_kept_apart Stage.steady_createPool Stage.sameToRouted_deployments 0 7 "s" hw
  · decide +kernel
  · decide +kernel

end SessionBroker
