import SessionBroker.Deployment.Toml
import SessionBroker.Proofs.Building
import SessionBroker.Proofs.Derivation
import SessionBroker.Proofs.Routing

/-!
# Names in a standalone deployment

A deployment is its own registry, so all that a build asks for is in its configuration: the nodes
that take over traffic, and for the schema that is served the properties of its data sources and the
users. `BuildsRoutes` goes through what a build can come to, whatever it is called from, and
`ResolvesNames` through what a session makes of the table. The main result puts both together, from
the text of the configuration on.
-/

namespace SessionBroker

/-! ## Accepted configurations -/

namespace DeploymentConfig

variable {config : DeploymentConfig}

theorem sampled_of_validate {u : Unit} (h : config.validate = .ok u) :
    ∃ sample rest, config.dataSources.values = sample :: rest := by
  unfold validate at h
  split at h
  · cases h
  split at h
  · cases h
  next hsources =>
    rw [OrderedMap.isEmpty, List.isEmpty_iff] at hsources
    obtain ⟨e, es, hentries⟩ := List.exists_cons_of_ne_nil hsources
    exact ⟨e.2, es.map Prod.snd, by rw [OrderedMap.values, hentries]; rfl⟩

/-- A configuration that was accepted has a data source. -/
theorem sampled_of_ofToml {text : String} (h : ofToml text = .ok config) :
    ∃ sample rest, config.dataSources.values = sample :: rest := by
  unfold ofToml at h
  split at h
  · cases h
  split at h
  · cases h
  next hvalid =>
    cases h
    exact sampled_of_validate hvalid

end DeploymentConfig

/-! ## Builds -/

theorem selectNodes_unlabelled (kind : NodeKind) (nodes : List ComputeNode) :
    selectNodes kind [] nodes = [] := by
  simp [selectNodes, ComputeNode.matchesAnyLabel]

namespace Deployment

/-- The nodes that take over a session's traffic: the proxies that share a label with the rule. -/
def routedNodes (d : Deployment) : List ComputeNode :=
  match d.config.traffic with
  | none => []
  | some rule => selectNodes .proxy rule.labels d.config.nodes

theorem mem_routedNodes (d : Deployment) (n : ComputeNode) :
    n ∈ d.routedNodes ↔ n ∈ d.config.nodes ∧ n.identity.kind = .proxy ∧
      ∃ rule, d.config.traffic = some rule ∧ ∃ label ∈ n.labels, label ∈ rule.labels := by
  unfold routedNodes
  cases d.config.traffic with
  | none => simp
  | some rule => simp [selectNodes, ComputeNode.matchesAnyLabel]

/-- What a build asks the registry for first. -/
def nodeLoads (d : Deployment) : List Event :=
  match d.config.traffic with
  | none => []
  | some rule => if rule.labels = [] then [] else [.nodesLoaded .proxy rule.labels]

/-- The questions of a build; for a registry it asks if the rule has labels. -/
def buildQuestions (d : Deployment) : List Question :=
  match d.config.traffic with
  | none => [.trafficRule]
  | some rule => if rule.labels = [] then [.trafficRule] else [.trafficRule, .registry]

variable {σ ε : Type}

/-- The data sources of the schema that is served. -/
theorem start_sources {create : PoolProperties → Action σ SourceId} {config : DeploymentConfig}
    {d : Deployment} {w w' : σ} (h : start create config w = (.ok d, w')) :
    d.config = config ∧ ∃ rs, CreatesPools create config.dataSources w rs (.ok d.sources) w' := by
  rw [start, Action.bind_apply] at h
  rcases hcreate : createPools create config.dataSources w with ⟨r, w₁⟩
  rw [hcreate] at h
  cases r with
  | error e => cases h
  | ok sources =>
      cases h
      exact ⟨rfl, createsPools hcreate⟩

/-- There is nothing to load, or a rule with labels says what to load. -/
theorem ruled_or_not (d : Deployment) :
    (d.routedNodes = [] ∧ d.nodeLoads = [] ∧ d.buildQuestions = [.trafficRule] ∧
        ∀ rule, d.config.traffic = some rule → rule.labels = []) ∨
      ∃ rule, d.config.traffic = some rule ∧ rule.labels ≠ [] ∧
        d.routedNodes = selectNodes .proxy rule.labels d.config.nodes ∧
        d.nodeLoads = [.nodesLoaded .proxy rule.labels] ∧
        d.buildQuestions = [.trafficRule, .registry] := by
  unfold routedNodes nodeLoads buildQuestions
  cases hrule : d.config.traffic with
  | none => exact .inl ⟨rfl, rfl, rfl, by simp⟩
  | some rule =>
      by_cases hlabels : rule.labels = []
      · refine .inl ⟨?_, if_pos hlabels, if_pos hlabels, by simpa using hlabels⟩
        dsimp only
        rw [hlabels, selectNodes_unlabelled]
      · exact .inr ⟨rule, rfl, hlabels, rfl, if_neg hlabels, if_neg hlabels⟩

section Builds

variable (d : Deployment) (create : PoolProperties → Action ε SourceId) (call : Nat)
  (schema : String) (w : World ε)

theorem buildRoutes_unrouted (h : d.routedNodes = []) :
    buildRoutes ((d.cluster create).logged call) schema w =
      (.ok .empty, w.noted call d.buildQuestions d.nodeLoads w.env) := by
  rcases d.ruled_or_not with ⟨-, hloads, hasked, hnone⟩ |
    ⟨rule, hrule, hlabels, hnodes, hloads, hasked⟩
  · rw [hloads, hasked]
    cases hrule : d.config.traffic with
    | none => exact buildRoutes_unruled hrule
    | some rule => exact buildRoutes_unlabelled hrule (hnone rule hrule)
  · have hregistry : (d.cluster create).registry w.env = some d.registry := rfl
    rw [buildRoutes_asked hrule hlabels hregistry, load_bind_apply]
    simp only [registry, Action.pure_apply, ← hnodes, h, List.isEmpty_nil, if_true, hloads, hasked,
      World.noted_noted]
    rfl

theorem buildRoutes_routed (h : d.routedNodes ≠ []) :
    buildRoutes ((d.cluster create).logged call) schema w =
      match (if schema = d.schema then d.config.dataSources else .empty).values with
      | [] => (.error (.metadata "Can not get data source properties from meta data."),
          w.noted call d.buildQuestions (d.nodeLoads ++ [.propertiesLoaded schema]) w.env)
      | sample :: _ =>
        match deriveProperties d.routedNodes d.config.users sample schema with
        | .error e =>
          (.error e, w.noted call d.buildQuestions
            (d.nodeLoads ++ [.propertiesLoaded schema, .usersLoaded]) w.env)
        | .ok props =>
          createPools ((d.cluster create).logged call).createPool props
            (w.noted call d.buildQuestions
              (d.nodeLoads ++ [.propertiesLoaded schema, .usersLoaded]) w.env) := by
  rcases d.ruled_or_not with ⟨hnone, -⟩ | ⟨rule, hrule, hlabels, hnodes, hloads, hasked⟩
  · exact absurd hnone h
  · have hregistry : (d.cluster create).registry w.env = some d.registry := rfl
    have hsome : d.routedNodes.isEmpty = false := by simpa using h
    rw [buildRoutes_asked hrule hlabels hregistry, load_bind_apply]
    simp only [registry, Action.pure_apply, ← hnodes, hsome, Bool.false_eq_true, if_false,
      load_bind_apply, World.noted_noted, hloads, hasked, List.append_nil]
    cases (if schema = d.schema then d.config.dataSources else OrderedMap.empty).values with
    | nil => rfl
    | cons sample rest =>
        dsimp only
        rw [load_bind_apply, Action.pure_apply]
        dsimp only
        rw [Action.bind_apply, Action.ofExcept_apply, World.noted_noted]
        cases deriveProperties d.routedNodes d.config.users sample schema <;> rfl

end Builds

end Deployment

/-- Surroundings with a deployment for their cluster. -/
def Surroundings.deployed {ε : Type} (k : Surroundings ε) (d : Deployment) : Surroundings ε :=
  { k with cluster := d.cluster k.cluster.createPool }

/-- What one build of a schema's table comes to in a deployment, from the world `w`. The first data
source of the configuration is the `sample`. -/
structure BuildsRoutes {ε : Type} (d : Deployment) (create : PoolProperties → Action ε SourceId)
    (sample : PoolProperties) (call : Nat) (schema : String) (w : World ε)
    (built : Except Error Routes × World ε) : Prop where
  /-- No pool is created if no node takes over traffic. -/
  unrouted : d.routedNodes = [] →
    built = (.ok .empty, w.noted call d.buildQuestions d.nodeLoads w.env)
  foreign : d.routedNodes ≠ [] → schema ≠ d.schema →
    built = (.error (.metadata "Can not get data source properties from meta data."),
      w.noted call d.buildQuestions (d.nodeLoads ++ [.propertiesLoaded schema]) w.env)
  userless : d.routedNodes ≠ [] → schema = d.schema → d.config.users = [] →
    built = (.error (.metadata "Can not find any user to access compute node instances."),
      w.noted call d.buildQuestions (d.nodeLoads ++ [.propertiesLoaded schema, .usersLoaded]) w.env)
  urlless : d.routedNodes ≠ [] → schema = d.schema → d.config.users ≠ [] → sample.url? = none →
    built = (.error (.configuration "Data source properties have no 'jdbcUrl'"),
      w.noted call d.buildQuestions (d.nodeLoads ++ [.propertiesLoaded schema, .usersLoaded]) w.env)
  unpointed : d.routedNodes ≠ [] → schema = d.schema → d.config.users ≠ [] →
    ∀ url, sample.url? = some url → ¬ ['/', '/'] <:+: url.toList →
      built = (.error (.configuration ("Invalid url '" ++ url ++ "'")),
        w.noted call d.buildQuestions (d.nodeLoads ++ [.propertiesLoaded schema, .usersLoaded])
          w.env)
  /-- Else pools are created for the ids of the nodes. -/
  pointed : d.routedNodes ≠ [] → schema = d.schema → d.config.users ≠ [] →
    ∀ url, sample.url? = some url → ['/', '/'] <:+: url.toList → ∃ props rs r env,
      deriveProperties d.routedNodes d.config.users sample schema = .ok props ∧
      props.keys = (d.routedNodes.map ComputeNode.id).eraseDups ∧
      CreatesPools create props w.env rs r env ∧
      built = (r, w.noted call d.buildQuestions
        (d.nodeLoads ++ [.propertiesLoaded schema, .usersLoaded] ++ poolEvents props.values rs) env)

section Building

variable {ε : Type} {d : Deployment} {create : PoolProperties → Action ε SourceId}
  {sample : PoolProperties} {rest : List PoolProperties} {call : Nat} {schema : String}
  {w w' : World ε}

theorem buildsRoutes (create : PoolProperties → Action ε SourceId)
    (hsample : d.config.dataSources.values = sample :: rest) (call : Nat) (schema : String)
    (w : World ε) :
    BuildsRoutes d create sample call schema w
      (buildRoutes ((d.cluster create).logged call) schema w) := by
  -- what a failed derivation comes to, and what a successful one
  have hserved : d.routedNodes ≠ [] → schema = d.schema →
      buildRoutes ((d.cluster create).logged call) schema w =
        match deriveProperties d.routedNodes d.config.users sample schema with
        | .error e =>
          (.error e, w.noted call d.buildQuestions
            (d.nodeLoads ++ [.propertiesLoaded schema, .usersLoaded]) w.env)
        | .ok props =>
          createPools ((d.cluster create).logged call).createPool props
            (w.noted call d.buildQuestions
              (d.nodeLoads ++ [.propertiesLoaded schema, .usersLoaded]) w.env) := by
    intro hnodes hschema
    rw [d.buildRoutes_routed create call schema w hnodes, if_pos hschema, hsample]
  have hfailed : ∀ e, d.routedNodes ≠ [] → schema = d.schema → d.config.users ≠ [] →
      (∀ node user, sample.forNode node user schema = .error e) →
      buildRoutes ((d.cluster create).logged call) schema w = (.error e,
        w.noted call d.buildQuestions (d.nodeLoads ++ [.propertiesLoaded schema, .usersLoaded])
          w.env) := by
    intro e hnodes hschema husers hnode
    obtain ⟨node, nodes, hnodes'⟩ := List.exists_cons_of_ne_nil hnodes
    obtain ⟨user, users, husers'⟩ := List.exists_cons_of_ne_nil husers
    rw [hserved hnodes hschema, husers', hnodes',
      deriveProperties_of_failed nodes users (hnode node.identity user)]
  refine ⟨?_, ?_, ?_, ?_, ?_, ?_⟩
  · exact d.buildRoutes_unrouted create call schema w
  · intro hnodes hschema
    rw [d.buildRoutes_routed create call schema w hnodes, if_neg hschema]
    rfl
  · intro hnodes hschema husers
    rw [hserved hnodes hschema, husers, deriveProperties_userless]
  · intro hnodes hschema husers hurl
    exact hfailed _ hnodes hschema husers fun node user =>
      sample.forNode_of_urlless node user schema hurl
  · intro hnodes hschema husers url hurl hpointed
    exact hfailed _ hnodes hschema husers fun node user =>
      sample.forNode_of_unpointed node user schema hurl hpointed
  · intro hnodes hschema husers url hurl hpointed
    obtain ⟨user, users, husers'⟩ := List.exists_cons_of_ne_nil husers
    obtain ⟨derived, -, hderived⟩ :=
      deriveProperties_of_pointed d.routedNodes user users schema hurl hpointed
    rw [hserved hnodes hschema, husers', hderived]
    dsimp only
    rcases hcreate : createPools ((d.cluster create).logged call).createPool _ _ with ⟨r, w₁⟩
    obtain ⟨rs, env, hpools, rfl⟩ := createsPools_logged hcreate
    refine ⟨_, rs, r, env, rfl, ?_, hpools, ?_⟩
    · rw [OrderedMap.keys_ofList, List.map_map]
      rfl
    · rw [World.noted_noted, List.append_nil]

/-- What is routed is what takes over traffic. -/
theorem BuildsRoutes.contains_iff {built : Except Error Routes × World ε} {routes : Routes}
    (h : BuildsRoutes d create sample call schema w built) (hok : built.1 = .ok routes)
    (name : String) :
    routes.contains name = true ↔ ∃ n ∈ d.routedNodes, n.id = name := by
  by_cases hnodes : d.routedNodes = []
  · rw [h.unrouted hnodes] at hok
    cases hok
    simp [hnodes, OrderedMap.contains]
  have hnot : ∀ {e w₁}, built ≠ (.error e, w₁) := by
    rintro e w₁ rfl
    cases hok
  by_cases hschema : schema = d.schema
  · by_cases husers : d.config.users = []
    · exact absurd (h.userless hnodes hschema husers) hnot
    cases hurl : sample.url? with
    | none => exact absurd (h.urlless hnodes hschema husers hurl) hnot
    | some url =>
        by_cases hpointed : ['/', '/'] <:+: url.toList
        · obtain ⟨props, rs, r, env, -, hkeys, hpools, rfl⟩ :=
            h.pointed hnodes hschema husers url hurl hpointed
          cases hok
          rw [OrderedMap.contains_iff_mem_keys, hpools.keys_eq, hkeys, List.mem_eraseDups,
            List.mem_map]
        · exact absurd (h.unpointed hnodes hschema husers url hurl hpointed) hnot
  · exact absurd (h.foreign hnodes hschema) hnot

end Building

/-! ## Names along a run -/

namespace Deployment

/-- The source of a name in a session on a schema whose table is `routes`. -/
def sourceOf (d : Deployment) (routes : Routes) (schema name : String) : Option SourceId :=
  if ∃ n ∈ d.routedNodes, n.id = name then routes.get? name
  else if schema = d.schema then d.sources.get? name
  else none

theorem sourceOf_eq (d : Deployment) {routes : Routes} {name : String} (schema : String)
    (h : routes.contains name = true ↔ ∃ n ∈ d.routedNodes, n.id = name) :
    SessionBroker.sourceOf routes (if schema = d.schema then d.sources else .empty) name =
      d.sourceOf routes schema name := by
  unfold SessionBroker.sourceOf sourceOf
  by_cases hrouted : ∃ n ∈ d.routedNodes, n.id = name
  · obtain ⟨source, hget⟩ := Option.isSome_iff_exists.mp (h.mpr hrouted)
    rw [if_pos hrouted, hget]
    rfl
  · have hget : routes.get? name = none := Option.not_isSome_iff_eq_none.mp (mt h.mp hrouted)
    rw [if_neg hrouted, hget, Option.none_or]
    split <;> rfl

end Deployment

/-- What a step that looks up the table of the session `s` comes to in a deployment. -/
structure ResolvesNames {ε : Type} (k : Surroundings ε) (d : Deployment) (m : Occurrence ε)
    (s : Nat) : Prop where
  /-- A build that fails is the failure of the step. -/
  failed : ∀ e w₁,
    World.lookUp (k.cluster.logged m.number) (.ofSession s) m.begun = (.error e, w₁) →
      m.begun.table (.ofSession s) = none ∧ m.build k (.ofSession s) = (.error e, w₁) ∧
        m.result k = (.failed e, w₁)
  /-- The table, built here or before, has the nodes that take over traffic. -/
  contains_iff : ∀ routes w₁,
    World.lookUp (k.cluster.logged m.number) (.ofSession s) m.begun = (.ok routes, w₁) →
      ∀ name, routes.contains name = true ↔ ∃ n ∈ d.routedNodes, n.id = name
  isRouted : ∀ routes w₁,
    World.lookUp (k.cluster.logged m.number) (.ofSession s) m.begun = (.ok routes, w₁) →
      ∀ name, m.step = .call (.isRouted s name) →
        m.result k = (.answered (.flag (decide (∃ n ∈ d.routedNodes, n.id = name))), w₁)
  /-- A name is looked for among the nodes, and then among the data sources of the schema. -/
  resolved : ∀ routes w₁,
    World.lookUp (k.cluster.logged m.number) (.ofSession s) m.begun = (.ok routes, w₁) →
      ∀ name, World.resolveSource (k.cluster.logged m.number) s name m.begun =
        ((d.sourceOf routes (m.begun.session s).router.schema name).elim
          (.error (.unknownDataSource name)) .ok,
          w₁.asking m.number (sourceQuestions routes (m.begun.session s).router.schema name))

section Resolving

variable {ε : Type} {k : Surroundings ε} {d : Deployment} {sample : PoolProperties}
  {rest : List PoolProperties} {m : Occurrence ε} {s depth : Nat} {steps : List (Step ε)} {env : ε}
  {routes : Routes} {w₁ : World ε}

/-- A lookup finds the table that an earlier step built, or builds it. -/
theorem built_of_lookUp (hm : m ∈ k.tourRun depth steps (.new env)) {ρ : RouterId}
    (hlooks : m.looksUp = some ρ)
    (h : World.lookUp (k.cluster.logged m.number) ρ m.begun = (.ok routes, w₁)) :
    ∃ x ∈ k.tourRun depth steps (.new env), x.looksUp = some ρ ∧
      ∃ w₂, x.build k ρ = (.ok routes, w₂) := by
  cases htable : m.begun.table ρ with
  | some known =>
      rw [World.lookUp_known htable] at h
      cases h
      exact (k.builtOnce_run depth steps env ρ).built_of_found hm htable
  | none =>
      rw [World.lookUp_unknown htable] at h
      rcases hbuild : m.build k ρ with ⟨r, w₂⟩
      rw [show buildRoutes _ _ m.begun = _ from hbuild] at h
      cases r with
      | error e => cases h
      | ok built =>
          cases h
          exact ⟨m, hm, hlooks, w₂, hbuild⟩

/-- A lookup that fails has built in vain. -/
theorem unbuilt_of_lookUp {ρ : RouterId} {e : Error}
    (h : World.lookUp (k.cluster.logged m.number) ρ m.begun = (.error e, w₁)) :
    m.begun.table ρ = none ∧ m.build k ρ = (.error e, w₁) := by
  cases htable : m.begun.table ρ with
  | some known =>
      rw [World.lookUp_known htable] at h
      cases h
  | none =>
      rw [World.lookUp_unknown htable] at h
      rcases hbuild : m.build k ρ with ⟨r, w₂⟩
      rw [show buildRoutes _ _ m.begun = _ from hbuild] at h
      cases r with
      | error e =>
          cases h
          exact ⟨rfl, rfl⟩
      | ok built => cases h

/-- What is asked of a table is answered from the table that the lookup gives. -/
theorem result_of_lookUp {ρ : RouterId} (hlooks : k.LooksUp m ρ) {c : Call}
    (hstep : m.step = .call c) {a : Answer} (ha : c.readOff routes = some a)
    (h : World.lookUp (k.cluster.logged m.number) ρ m.begun = (.ok routes, w₁)) :
    m.result k = (.answered a, w₁) := by
  cases htable : m.begun.table ρ with
  | some known =>
      rw [World.lookUp_known htable] at h
      cases h
      rw [Occurrence.result, hstep]
      exact (hlooks.known routes c htable hstep).read a ha
  | none =>
      rw [World.lookUp_unknown htable] at h
      rcases hbuild : m.build k ρ with ⟨r, w₂⟩
      rw [show buildRoutes _ _ m.begun = _ from hbuild] at h
      cases r with
      | error e => cases h
      | ok built =>
          cases h
          obtain ⟨-, hresult, hanswered⟩ := hlooks.built routes w₂ htable hbuild
          rw [hresult, hstep]
          exact (hanswered c hstep).read a ha

theorem resolvesNames (hsample : d.config.dataSources.values = sample :: rest)
    (hm : m ∈ (k.deployed d).tourRun depth steps (.new env))
    (hlooks : m.looksUp = some (.ofSession s)) : ResolvesNames (k.deployed d) d m s := by
  have hlooksUp : (k.deployed d).LooksUp m (.ofSession s) := Surroundings.looksUp_of hlooks
  have hcontains : ∀ routes w₁,
      World.lookUp ((k.deployed d).cluster.logged m.number) (.ofSession s) m.begun =
        (.ok routes, w₁) →
      ∀ name, routes.contains name = true ↔ ∃ n ∈ d.routedNodes, n.id = name := by
    intro routes w₁ h name
    obtain ⟨x, -, -, w₂, hbuild⟩ := built_of_lookUp hm hlooks h
    have hbuilds := buildsRoutes k.cluster.createPool hsample x.number
      (x.begun.routerOf (.ofSession s)).schema x.begun
    exact hbuilds.contains_iff (congrArg Prod.fst hbuild) name
  refine ⟨?_, hcontains, ?_, ?_⟩
  · intro e w₁ h
    obtain ⟨htable, hbuild⟩ := unbuilt_of_lookUp h
    exact ⟨htable, hbuild, (hlooksUp.failed e w₁ htable hbuild).1⟩
  · intro routes w₁ h name hstep
    have hflag : routes.contains name = decide (∃ n ∈ d.routedNodes, n.id = name) :=
      Bool.eq_iff_iff.mpr ((hcontains routes w₁ h name).trans decide_eq_true_iff.symm)
    rw [← hflag]
    exact result_of_lookUp hlooksUp hstep rfl h
  · intro routes w₁ h name
    have hschema : (w₁.session s).router.schema = (m.begun.session s).router.schema := by
      have hkept : ((World.lookUp ((k.deployed d).cluster.logged m.number) (.ofSession s)
            m.begun).2.routerOf (.ofSession s)).schema =
          (m.begun.routerOf (.ofSession s)).schema :=
        World.schema_lookUp (.ofSession s) (.ofSession s) m.begun
      rwa [h] at hkept
    have hphysical : ∀ schema, (k.deployed d).cluster.physical w₁.env schema =
        if schema = d.schema then d.sources else .empty := fun _ => rfl
    rw [resolveSource_eq, show World.resolveRoutes _ s m.begun = _ from h]
    dsimp only
    rw [hschema, hphysical, d.sourceOf_eq _ (hcontains routes w₁ h name)]
    cases d.sourceOf routes (m.begun.session s).router.schema name <;> rfl

end Resolving

/-! ## Main result -/

/-- How a deployment that was started from a configuration resolves names. -/
structure ResolvesAsConfigured {ε : Type} (k : Surroundings ε) (config : DeploymentConfig)
    (d : Deployment) : Prop where
  config_eq : d.config = config
  sources_keys : d.sources.keys = config.dataSources.keys
  mem_routedNodes : ∀ n, n ∈ d.routedNodes ↔ n ∈ config.nodes ∧ n.identity.kind = .proxy ∧
    ∃ rule, config.traffic = some rule ∧ ∃ label ∈ n.labels, label ∈ rule.labels
  /-- Every build is one of the configuration, whatever the schema, the call and the world. -/
  builds : ∃ sample, config.dataSources.values.head? = some sample ∧
    ∀ call schema w, BuildsRoutes d k.cluster.createPool sample call schema w
      (buildRoutes ((k.deployed d).cluster.logged call) schema w)
  /-- Whatever is called, and however deep calls nest. -/
  names : ∀ depth steps env, ∀ m ∈ (k.deployed d).tourRun depth steps (.new env), ∀ s,
    m.looksUp = some (.ofSession s) → ResolvesNames (k.deployed d) d m s

/-- A deployment that was started from an accepted text resolves names as it is configured. -/
theorem resolves_as_configured {ε : Type} (k : Surroundings ε) {text : String}
    {config : DeploymentConfig} {d : Deployment} {env₀ env₁ : ε}
    (htext : DeploymentConfig.ofToml text = .ok config)
    (hstart : Deployment.start k.cluster.createPool config env₀ = (.ok d, env₁)) :
    ResolvesAsConfigured k config d := by
  obtain ⟨rfl, rs, hpools⟩ := Deployment.start_sources hstart
  obtain ⟨sample, rest, hsample⟩ := DeploymentConfig.sampled_of_ofToml htext
  refine ⟨rfl, hpools.keys_eq, d.mem_routedNodes, ⟨sample, by rw [hsample]; rfl, ?_⟩, ?_⟩
  · exact buildsRoutes k.cluster.createPool hsample
  · exact fun depth steps env m hm s hlooks => resolvesNames hsample hm hlooks

namespace Stage

/-- A configuration with a node that has the name of a data source. -/
def deploymentText : String :=
  "schema=\"s\"\ndata_sources.ds.pool_type=\"p\"\ndata_sources.ds.props.jdbcUrl=\"a://b\"\n" ++
  "traffic.labels=[\"x\"]\n[[instances]]\ntype=\"proxy\"\nid=\"ds\"\nlabels=[\"x\"]\n" ++
  "[[users]]\nusername=\"u\"\n"

/-- A stage that is still empty. -/
def bare : Stage := ⟨[], [], 0, .scripted .empty none none⟩

end Stage

theorem deployed_as_configured :
    ∃ config d env, DeploymentConfig.ofToml Stage.deploymentText = .ok config ∧
      Deployment.start Stage.createPool config Stage.bare = (.ok d, env) ∧
      d.routedNodes.map ComputeNode.id = ["ds"] ∧
      ResolvesAsConfigured Stage.surroundings config d := by
  have hrouted : ((DeploymentConfig.ofToml Stage.deploymentText).toOption.bind fun config =>
      (Deployment.start Stage.createPool config Stage.bare).1.toOption.map fun d =>
        d.routedNodes.map ComputeNode.id) = some ["ds"] := by decide +kernel
  cases htext : DeploymentConfig.ofToml Stage.deploymentText with
  | error e =>
      rw [htext] at hrouted
      cases hrouted
  | ok config =>
      rcases hstart : Deployment.start Stage.createPool config Stage.bare with ⟨r, env⟩
      simp only [htext, hstart, Except.toOption, Option.bind_some] at hrouted
      cases r with
      | error e => cases hrouted
      | ok d =>
          exact ⟨config, d, env, rfl, hstart, Option.some.inj hrouted,
            resolves_as_configured Stage.surroundings htext hstart⟩

end SessionBroker
