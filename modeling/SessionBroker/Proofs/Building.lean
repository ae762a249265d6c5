import SessionBroker.Proofs.Attempts
import SessionBroker.Proofs.World

/-!
# Building a table

A build asks for the rule and for a registry, loads nodes, properties and users from it, and then
creates a pool for each node: it goes through a properties map in order, up to the first failure.
All this is done to the surroundings, and leaves its questions and its events behind; nothing else
in the world takes part in it.
-/

namespace SessionBroker

/-! ## Creation -/

section Creation

variable {σ : Type} {create : PoolProperties → Action σ SourceId}
  {props : OrderedMap String PoolProperties} {w w' : σ} {r : Except Error SourceMap}

/-- How pools are created for a properties map, from the state `w` to `w'`, with the result `r`.
`rs` is what the attempts come to, of which none follows a failure. -/
structure CreatesPools (create : PoolProperties → Action σ SourceId)
    (props : OrderedMap String PoolProperties) (w : σ) (rs : List (Except Error SourceId))
    (r : Except Error SourceMap) (w' : σ) : Prop where
  attempts : inTurn ((props.values.take rs.length).map create) w = (rs, w')
  created : ∀ m, r = .ok m → ∃ sources : List SourceId, sources.length = props.keys.length ∧
    rs = sources.map .ok ∧ m.entries = props.keys.zip sources
  failed : ∀ e, r = .error e → ∃ sources : List SourceId, rs = sources.map .ok ++ [.error e]

/-- A map of pools has the keys of the properties, in their order. -/
theorem CreatesPools.keys_eq {rs : List (Except Error SourceId)} {m : SourceMap}
    (h : CreatesPools create props w rs (.ok m) w') : m.keys = props.keys := by
  obtain ⟨sources, hlen, -, hentries⟩ := h.created m rfl
  rw [OrderedMap.keys, hentries, List.map_fst_zip (Nat.le_of_eq hlen.symm)]

/-- Creation from a map that has none of the keys. -/
theorem createPools_fold {es : List (String × PoolProperties)} {created : SourceMap}
    (hnodup : (es.map Prod.fst).Nodup) (hfresh : ∀ e ∈ es, e.1 ∉ created.keys)
    (h : es.foldlM (fun created e => (do
      let source ← create e.2
      return created.insert e.1 source : Action σ SourceMap)) created w = (r, w')) :
    ∃ rs, inTurn (((es.map Prod.snd).take rs.length).map create) w = (rs, w') ∧
      (∀ m, r = .ok m → ∃ sources : List SourceId, sources.length = es.length ∧
        rs = sources.map .ok ∧
        m.entries = created.entries ++ (es.map Prod.fst).zip sources) ∧
      ∀ e, r = .error e → ∃ sources : List SourceId, rs = sources.map .ok ++ [.error e] := by
  induction es generalizing created w with
  | nil =>
      cases h
      refine ⟨[], rfl, ?_, ?_⟩
      · rintro m ⟨⟩
        exact ⟨[], rfl, rfl, (List.append_nil _).symm⟩
      · rintro e ⟨⟩
  | cons e es ih =>
      rw [List.foldlM_cons, Action.bind_apply, Action.bind_apply] at h
      rcases hcreate : create e.2 w with ⟨q, w₁⟩
      rw [hcreate] at h
      cases q with
      | error err =>
          cases h
          refine ⟨[.error err], ?_, ?_, ?_⟩
          · simp only [List.map_cons, List.length_cons, List.take_succ_cons, inTurn_cons, hcreate]
            rfl
          · rintro m ⟨⟩
          · rintro e ⟨⟩
            exact ⟨[], rfl⟩
      | ok source =>
          rw [List.map_cons, List.nodup_cons] at hnodup
          have hnew : e.1 ∉ created.keys := hfresh e List.mem_cons_self
          have hrest : ∀ x ∈ es, x.1 ∉ (created.insert e.1 source).keys := by
            intro x hx
            have hne : x.1 ≠ e.1 := fun heq => hnodup.1 (heq ▸ List.mem_map_of_mem hx)
            rw [OrderedMap.keys_insert, if_neg hnew]
            simpa [hne] using hfresh x (List.mem_cons_of_mem e hx)
          obtain ⟨rs, hturn, hcreated, hfailed⟩ := ih hnodup.2 hrest h
          refine ⟨.ok source :: rs, ?_, ?_, ?_⟩
          · simp only [List.map_cons, List.length_cons, List.take_succ_cons, inTurn_cons, hcreate,
              hturn]
          · intro m hm
            obtain ⟨sources, hlen, rfl, hentries⟩ := hcreated m hm
            refine ⟨source :: sources, congrArg Nat.succ hlen, rfl, ?_⟩
            rw [hentries, OrderedMap.entries_insert_of_new hnew, List.append_assoc]
            rfl
          · intro err herr
            obtain ⟨sources, rfl⟩ := hfailed err herr
            exact ⟨source :: sources, rfl⟩

/-- There is no other way for pools to be created. -/
theorem createsPools (h : createPools create props w = (r, w')) :
    ∃ rs, CreatesPools create props w rs r w' := by
  have hfresh : ∀ e ∈ props.entries, e.1 ∉ (OrderedMap.empty : SourceMap).keys := by
    simp [OrderedMap.empty, OrderedMap.keys]
  obtain ⟨rs, hturn, hcreated, hfailed⟩ := createPools_fold props.nodup_keys hfresh h
  refine ⟨rs, hturn, fun m hm => ?_, hfailed⟩
  obtain ⟨sources, hlen, hrs, hentries⟩ := hcreated m hm
  exact ⟨sources, by simpa [OrderedMap.keys] using hlen, hrs, hentries⟩

end Creation

/-! ## In the log -/

def poolEvent (p : PoolProperties) : Except Error SourceId → Event
  | .ok source => .poolCreated source p
  | .error _ => .poolFailed p

/-- The events of attempts to create pools, by what they came to. -/
def poolEvents (ps : List PoolProperties) (rs : List (Except Error SourceId)) : List Event :=
  List.zipWith poolEvent ps rs

theorem poolEvents_take (ps : List PoolProperties) (rs : List (Except Error SourceId)) :
    poolEvents (ps.take rs.length) rs = poolEvents ps rs := by
  induction rs generalizing ps with
  | nil => simp [poolEvents]
  | cons r rs ih =>
      cases ps with
      | nil => rfl
      | cons p ps => exact congrArg (poolEvent p r :: ·) (ih ps)

namespace World

variable {ε : Type}

/-- A world after a call has asked questions, left events and changed the surroundings, and done
nothing else. -/
def noted (w : World ε) (call : Nat) (qs : List Question) (es : List Event) (env : ε) : World ε :=
  { w with
    env := env
    log := w.log ++ (es.map (Entry.mk call)).toArray
    inquiries := w.inquiries ++ (qs.map (Inquiry.mk call)).toArray }

variable {w : World ε} {call : Nat}

theorem asking_eq_noted (w : World ε) (call : Nat) (qs : List Question) :
    w.asking call qs = w.noted call qs [] w.env := by
  simp [noted, asking]

theorem ask_ask_eq_noted (w : World ε) (call : Nat) (q q' : Question) :
    (w.ask call q).ask call q' = w.noted call [q, q'] [] w.env := by
  rw [ask_eq_asking, ask_eq_asking, asking_asking, asking_eq_noted]
  rfl

theorem noted_nil (w : World ε) (call : Nat) : w.noted call [] [] w.env = w := by
  simp [noted]

theorem noted_noted (w : World ε) (call : Nat) (qs qs' : List Question) (es es' : List Event)
    (env env' : ε) :
    (w.noted call qs es env).noted call qs' es' env' =
      w.noted call (qs ++ qs') (es ++ es') env' := by
  simp [noted]

theorem record_eq_noted (w : World ε) (call : Nat) (e : Event) (env : ε) :
    ({ w with env := env } : World ε).record call e = w.noted call [] [e] env := by
  simp [noted, record]

end World

section Logged

variable {ε : Type} {cluster : Cluster ε} {call : Nat} {w w' : World ε}

theorem createPool_logged (cluster : Cluster ε) (call : Nat) (p : PoolProperties) (w : World ε) :
    (cluster.logged call).createPool p w =
      ((cluster.createPool p w.env).1,
        w.noted call [] [poolEvent p (cluster.createPool p w.env).1]
          (cluster.createPool p w.env).2) := by
  rw [← World.record_eq_noted]
  simp only [Cluster.logged, ExceptT.mk, stateM_bind_apply, onEnv_apply, ExceptT.run]
  rcases cluster.createPool p w.env with ⟨r, env⟩
  cases r <;> rfl

/-- Logged attempts are the attempts on the surroundings, and their events. -/
theorem inTurn_logged (cluster : Cluster ε) (call : Nat) (ps : List PoolProperties) (w : World ε) :
    inTurn (ps.map (cluster.logged call).createPool) w =
      ((inTurn (ps.map cluster.createPool) w.env).1,
        w.noted call [] (poolEvents ps (inTurn (ps.map cluster.createPool) w.env).1)
          (inTurn (ps.map cluster.createPool) w.env).2) := by
  induction ps generalizing w with
  | nil => exact Prod.ext rfl (World.noted_nil w call).symm
  | cons p ps ih =>
      rw [List.map_cons, inTurn_cons, createPool_logged, ih, World.noted_noted]
      rfl

theorem createsPools_logged {props : OrderedMap String PoolProperties} {r : Except Error SourceMap}
    (h : createPools (cluster.logged call).createPool props w = (r, w')) :
    ∃ rs env, CreatesPools cluster.createPool props w.env rs r env ∧
      w' = w.noted call [] (poolEvents props.values rs) env := by
  obtain ⟨rs, hattempts, hcreated, hfailed⟩ := createsPools h
  rw [inTurn_logged] at hattempts
  obtain ⟨hrs, hw'⟩ := Prod.mk.inj hattempts
  refine ⟨rs, _, ⟨Prod.ext hrs rfl, hcreated, hfailed⟩, ?_⟩
  rw [← hw', hrs, poolEvents_take]

end Logged

/-! ## Loads -/

section Loads

variable {ε α β : Type} {call : Nat}

/-- A load is in the log before it is made. -/
def World.load (call : Nat) (e : Event) (a : Action ε α) : Action (World ε) α := do
  modify (·.record call e)
  World.onEnv? a

theorem load_bind_apply (e : Event) (a : Action ε α) (f : α → Action (World ε) β) (w : World ε) :
    (World.load call e a >>= f) w =
      match a w.env with
      | (.ok x, env) => f x (w.noted call [] [e] env)
      | (.error err, env) => (.error err, w.noted call [] [e] env) := by
  have hload : World.load call e a w = ((a w.env).1, w.noted call [] [e] (a w.env).2) :=
    Prod.ext rfl (World.record_eq_noted w call e _)
  rw [Action.bind_apply, hload]
  rcases a w.env with ⟨r, env⟩
  cases r <;> rfl

end Loads

/-! ## Builds -/

section Builds

variable {ε : Type} {cluster : Cluster ε} {call : Nat} {schema : String} {w : World ε}
  {rule : TrafficRule} {registry : Registry ε}

theorem buildRoutes_unruled (hrule : cluster.trafficRule w.env = none) :
    buildRoutes (cluster.logged call) schema w =
      (.ok .empty, w.noted call [.trafficRule] [] w.env) := by
  rw [buildRoutes, trafficRule_bind_apply, hrule, World.ask_eq_asking, World.asking_eq_noted]
  rfl

theorem buildRoutes_unlabelled (hrule : cluster.trafficRule w.env = some rule)
    (hlabels : rule.labels = []) :
    buildRoutes (cluster.logged call) schema w =
      (.ok .empty, w.noted call [.trafficRule] [] w.env) := by
  rw [buildRoutes, trafficRule_bind_apply, hrule, World.ask_eq_asking, World.asking_eq_noted]
  dsimp only
  rw [hlabels]
  rfl

/-- The registry is asked for if the rule has labels. -/
theorem buildRoutes_unregistered (hrule : cluster.trafficRule w.env = some rule)
    (hlabels : rule.labels ≠ []) (hregistry : cluster.registry w.env = none) :
    buildRoutes (cluster.logged call) schema w =
      (.ok .empty, w.noted call [.trafficRule, .registry] [] w.env) := by
  have hfalse : rule.labels.isEmpty = false := by simpa using hlabels
  rw [buildRoutes, trafficRule_bind_apply, hrule]
  dsimp only
  rw [hfalse, if_neg Bool.false_ne_true, registry_bind_apply, World.env_ask, hregistry,
    World.ask_ask_eq_noted]
  rfl

theorem buildRoutes_asked (hrule : cluster.trafficRule w.env = some rule)
    (hlabels : rule.labels ≠ []) (hregistry : cluster.registry w.env = some registry) :
    buildRoutes (cluster.logged call) schema w =
      (do
        let nodes ← World.load call (.nodesLoaded .proxy rule.labels)
          (registry.loadNodes .proxy rule.labels)
        if nodes.isEmpty then return .empty
        let known ← World.load call (.propertiesLoaded schema) (registry.loadProperties schema)
        match known.values with
        | [] => throw (.metadata "Can not get data source properties from meta data.")
        | sample :: _ =>
          let users ← World.load call .usersLoaded registry.loadUsers
          let props ← Action.ofExcept (deriveProperties nodes users sample schema)
          createPools (cluster.logged call).createPool props : Action (World ε) Routes)
        (w.noted call [.trafficRule, .registry] [] w.env) := by
  have hfalse : rule.labels.isEmpty = false := by simpa using hlabels
  rw [buildRoutes, trafficRule_bind_apply, hrule]
  dsimp only
  rw [hfalse, if_neg Bool.false_ne_true, registry_bind_apply, World.env_ask, hregistry,
    World.ask_ask_eq_noted]
  rfl

end Builds

end SessionBroker
