import SessionBroker.Deployment.Standalone
import SessionBroker.Proofs.Building
import SessionBroker.Proofs.Transparency

/-!
# Pools are created in order

Whoever creates the pools, a properties map is gone through in its order and up to the first
failure. The calls are told by a creator that does what another does and keeps a record of it: a
creator cannot see that it is recorded, so the record is that of the creator itself.

A deployment goes through its data sources once, when it starts. It fails as that fails, or serves
one pool for each of them, under their names and in their order.
-/

namespace SessionBroker

/-! ## Recorded calls -/

/-- A call of a creator of pools: what it was given and what it came to. -/
structure Creation where
  props : PoolProperties
  outcome : Except Error SourceId

section Recorded

variable {σ : Type} (create : PoolProperties → Action σ SourceId)

/-- A creator that keeps a record of its calls. -/
def recorded (p : PoolProperties) : Action (σ × List Creation) SourceId :=
  ExceptT.mk fun w => ((create p w.1).1, ((create p w.1).2, w.2 ++ [⟨p, (create p w.1).1⟩]))

theorem recorded_apply (p : PoolProperties) (w : σ × List Creation) :
    recorded create p w =
      ((create p w.1).1, ((create p w.1).2, w.2 ++ [⟨p, (create p w.1).1⟩])) := rfl

/-- Recorded attempts are the attempts, and a record of them. -/
theorem inTurn_recorded (ps : List PoolProperties) (w : σ × List Creation) :
    inTurn (ps.map (recorded create)) w =
      ((inTurn (ps.map create) w.1).1, ((inTurn (ps.map create) w.1).2,
        w.2 ++ List.zipWith Creation.mk ps (inTurn (ps.map create) w.1).1)) := by
  induction ps generalizing w with
  | nil => exact Prod.ext rfl (Prod.ext rfl (List.append_nil w.2).symm)
  | cons p ps ih =>
      rw [List.map_cons, List.map_cons, inTurn_cons, inTurn_cons, recorded_apply, ih,
        List.zipWith_cons_cons, List.append_assoc]
      rfl

end Recorded

theorem map_props_zipWith {ps : List PoolProperties} {rs : List (Except Error SourceId)}
    (h : rs.length = ps.length) : (List.zipWith Creation.mk ps rs).map Creation.props = ps := by
  rw [List.map_zipWith]
  exact (List.map_zip_eq_zipWith (f := fun q => q.1)).symm.trans (List.map_fst_zip (by omega))

theorem map_outcome_zipWith {ps : List PoolProperties} {rs : List (Except Error SourceId)}
    (h : rs.length = ps.length) : (List.zipWith Creation.mk ps rs).map Creation.outcome = rs := by
  rw [List.map_zipWith]
  exact (List.map_zip_eq_zipWith (f := fun q => q.2)).symm.trans (List.map_snd_zip (by omega))

/-! ## Two creators in lockstep -/

/-- Creators that cannot be told apart by their results create the same pools. -/
theorem lockstep_createPools {σ₁ σ₂ : Type} {T : σ₁ → σ₂ → Prop}
    {create₁ : PoolProperties → Action σ₁ SourceId} {create₂ : PoolProperties → Action σ₂ SourceId}
    (h : ∀ p, Lockstep T (create₁ p) (create₂ p)) (props : OrderedMap String PoolProperties) :
    Lockstep T (createPools create₁ props) (createPools create₂ props) := by
  have hfold : ∀ (es : List (String × PoolProperties)) (created : SourceMap),
      Lockstep T
        (es.foldlM (fun created e => do
          let source ← create₁ e.2
          return created.insert e.1 source) created : Action σ₁ SourceMap)
        (es.foldlM (fun created e => do
          let source ← create₂ e.2
          return created.insert e.1 source) created : Action σ₂ SourceMap) := by
    intro es
    induction es with
    | nil => exact fun created w₁ w₂ hw => ⟨rfl, hw⟩
    | cons e es ih =>
        intro created w₁ w₂ hw
        obtain ⟨hresult, hstates⟩ := h e.2 w₁ w₂ hw
        simp only [List.foldlM_cons, Action.bind_apply]
        rcases hone : create₁ e.2 w₁ with ⟨r, u₁⟩
        rcases hother : create₂ e.2 w₂ with ⟨r', u₂⟩
        rw [hone, hother] at hresult hstates
        cases hresult
        cases r with
        | error err => exact ⟨rfl, hstates⟩
        | ok source => exact ih (created.insert e.1 source) u₁ u₂ hstates
  exact hfold props.entries .empty

/-! ## Going through a properties map -/

section GoesThrough

variable {σ : Type} {create : PoolProperties → Action σ SourceId}
  {props : OrderedMap String PoolProperties} {w w' : σ} {r : Except Error SourceMap}

theorem createPools_recorded (create : PoolProperties → Action σ SourceId)
    (props : OrderedMap String PoolProperties) (w : σ) :
    (createPools (recorded create) props (w, [])).1 = (createPools create props w).1 ∧
      (createPools (recorded create) props (w, [])).2.1 = (createPools create props w).2 := by
  have hcreate : ∀ p, Lockstep (fun (w₁ : σ × List Creation) w₂ => w₁.1 = w₂) (recorded create p)
      (create p) := by
    rintro p ⟨w, calls⟩ _ rfl
    exact ⟨rfl, rfl⟩
  exact lockstep_createPools hcreate props (w, []) w rfl

/-- How a properties map is gone through, from the state `w` to `w'`, with the result `r`. The calls
that are made are `calls`. -/
structure GoesThrough (create : PoolProperties → Action σ SourceId)
    (props : OrderedMap String PoolProperties) (w : σ) (calls : List Creation)
    (r : Except Error SourceMap) (w' : σ) : Prop where
  record_eq : createPools (recorded create) props (w, []) = (r, (w', calls))
  /-- Nothing else is done than to make these calls, one after the other. -/
  inTurn_eq : inTurn (calls.map fun c => create c.props) w = (calls.map Creation.outcome, w')
  /-- They are made in the order of the entries, one for each. -/
  given : calls.map Creation.props = props.values.take calls.length
  /-- A call that fails is the last one, and its error is the result. -/
  stopped : ∀ (i : Nat) p e, calls[i]? = some ⟨p, .error e⟩ → calls.length = i + 1 ∧ r = .error e
  failed : ∀ e, r = .error e → ∃ (i : Nat) (p : _), calls[i]? = some ⟨p, .error e⟩
  /-- If no call fails, each entry stands for the source that was created from its own properties. -/
  created : ∀ m, r = .ok m → m.keys = props.keys ∧ calls.length = props.entries.length ∧
    ∀ (i : Nat) key p, props.entries[i]? = some (key, p) →
      ∃ source, calls[i]? = some ⟨p, .ok source⟩ ∧ m.entries[i]? = some (key, source)

/-- An attempt that failed was the last one. -/
theorem CreatesPools.stopped {rs : List (Except Error SourceId)}
    (h : CreatesPools create props w rs r w') {i : Nat} {e : Error} (hi : rs[i]? = some (.error e)) :
    rs.length = i + 1 ∧ r = .error e := by
  cases r with
  | ok m =>
      obtain ⟨sources, -, rfl, -⟩ := h.created m rfl
      simp at hi
  | error cause =>
      obtain ⟨sources, rfl⟩ := h.failed cause rfl
      rw [List.getElem?_append, List.getElem?_singleton] at hi
      split at hi
      next => simp at hi
      next hpast =>
        split at hi
        next hlast =>
          cases hi
          rw [List.length_append, List.length_singleton]
          exact ⟨by omega, rfl⟩
        next => cases hi

/-- What an entry stands for is what the attempt for it came to. -/
theorem CreatesPools.source_of_entry {rs : List (Except Error SourceId)} {m : SourceMap}
    (h : CreatesPools create props w rs (.ok m) w') {i : Nat} {key : String} {p : PoolProperties}
    (hi : props.entries[i]? = some (key, p)) :
    ∃ source, rs[i]? = some (.ok source) ∧ m.entries[i]? = some (key, source) := by
  obtain ⟨sources, hlen, rfl, hentries⟩ := h.created m rfl
  have hkey : props.keys[i]? = some key := by
    rw [OrderedMap.keys, List.getElem?_map, hi]
    rfl
  obtain ⟨hlt, -⟩ := List.getElem?_eq_some_iff.mp hkey
  obtain ⟨source, hsource⟩ : ∃ source, sources[i]? = some source :=
    ⟨_, List.getElem?_eq_getElem (hlen ▸ hlt)⟩
  refine ⟨source, by rw [List.getElem?_map, hsource]; rfl, ?_⟩
  rw [hentries]
  exact List.getElem?_zip_eq_some.mpr ⟨hkey, hsource⟩

/-- What is in the record of pools that were created. -/
theorem CreatesPools.record_eq {calls : List Creation} {rs : List (Except Error SourceId)}
    (h : CreatesPools (recorded create) props (w, []) rs r (w', calls)) :
    calls.map Creation.props = props.values.take calls.length ∧
      calls.map Creation.outcome = rs ∧
      inTurn (calls.map fun c => create c.props) w = (rs, w') := by
  have hattempts := h.attempts
  have hlen : rs.length = (props.values.take rs.length).length := by
    simpa using length_of_inTurn hattempts
  rw [inTurn_recorded] at hattempts
  obtain ⟨hrs, hstate⟩ := Prod.mk.inj hattempts
  obtain ⟨hw', hcalls⟩ := Prod.mk.inj hstate
  rw [hrs, List.nil_append] at hcalls
  have hprops : calls.map Creation.props = props.values.take rs.length := by
    rw [← hcalls, map_props_zipWith hlen]
  have houtcomes : calls.map Creation.outcome = rs := by
    rw [← hcalls, map_outcome_zipWith hlen]
  have hcount : calls.length = rs.length := by
    rw [← houtcomes, List.length_map]
  refine ⟨by rw [hprops, hcount], houtcomes, ?_⟩
  calc inTurn (calls.map fun c => create c.props) w
      = inTurn ((calls.map Creation.props).map create) w := by rw [List.map_map]; rfl
    _ = (rs, w') := by rw [hprops]; exact Prod.ext hrs hw'

theorem goesThrough (create : PoolProperties → Action σ SourceId)
    (props : OrderedMap String PoolProperties) (w : σ) :
    ∃ calls, GoesThrough create props w calls (createPools create props w).1
      (createPools create props w).2 := by
  obtain ⟨hresult, hstate⟩ := createPools_recorded create props w
  rcases hrun : createPools (recorded create) props (w, []) with ⟨r, w', calls⟩
  rw [hrun] at hresult hstate
  dsimp only at hresult hstate
  rw [← hresult, ← hstate]
  obtain ⟨rs, hpools⟩ := createsPools hrun
  obtain ⟨hgiven, rfl, hturn⟩ := hpools.record_eq
  refine ⟨calls, ?_⟩
  constructor
  case record_eq => exact hrun
  case inTurn_eq => exact hturn
  case given => exact hgiven
  case stopped =>
    intro i p e hcall
    have hfailure : (calls.map Creation.outcome)[i]? = some (.error e) := by
      rw [List.getElem?_map, hcall]
      rfl
    rw [← List.length_map (f := Creation.outcome)]
    exact hpools.stopped hfailure
  case failed =>
    intro e he
    obtain ⟨sources, hsources⟩ := hpools.failed e he
    have hlast : (calls.map Creation.outcome)[sources.length]? = some (.error e) := by
      simp [hsources]
    rw [List.getElem?_map, Option.map_eq_some_iff] at hlast
    obtain ⟨⟨p, _⟩, hcall, rfl⟩ := hlast
    exact ⟨sources.length, p, hcall⟩
  case created =>
    rintro m rfl
    obtain ⟨sources, hlen, hsources, -⟩ := hpools.created m rfl
    have hcount : calls.length = props.entries.length := by
      rw [← List.length_map (f := Creation.outcome), hsources, List.length_map, hlen,
        OrderedMap.keys, List.length_map]
    refine ⟨hpools.keys_eq, hcount, ?_⟩
    intro i key p hentry
    obtain ⟨source, hsource, hm⟩ := hpools.source_of_entry hentry
    refine ⟨source, ?_, hm⟩
    rw [List.getElem?_map, Option.map_eq_some_iff] at hsource
    obtain ⟨⟨p', _⟩, hcall, rfl⟩ := hsource
    -- the call was given the properties of the entry
    have hp : (calls.map Creation.props)[i]? = some p' := by
      rw [List.getElem?_map, hcall]
      rfl
    have hall : calls.length = props.values.length := by
      rw [hcount, OrderedMap.values, List.length_map]
    rw [hgiven, hall, List.take_length, OrderedMap.values, List.getElem?_map, hentry] at hp
    cases hp
    exact hcall

end GoesThrough

/-! ## Main result -/

section MainResult

variable {σ : Type}

/-- Pools are created entry by entry, up to the first failure. A deployment fails as the creation of
its pools does, or serves these pools for its schema, and none for any other. -/
theorem pools_created_in_order (create : PoolProperties → Action σ SourceId) :
    (∀ props w, ∃ calls, GoesThrough create props w calls (createPools create props w).1
      (createPools create props w).2) ∧
    ∀ (config : DeploymentConfig) w, ∃ calls r w',
      GoesThrough create config.dataSources w calls r w' ∧
        ((∃ e, r = .error e ∧ Deployment.start create config w = (.error e, w')) ∨
          ∃ m d, r = .ok m ∧ Deployment.start create config w = (.ok d, w') ∧
            m.keys = config.dataSources.keys ∧
            ∀ u schema, (d.cluster create).physical u schema =
              if schema = config.schema then m else .empty) := by
  constructor
  · intro props w
    exact goesThrough create props w
  · intro config w
    obtain ⟨calls, hcalls⟩ := goesThrough create config.dataSources w
    refine ⟨calls, _, _, hcalls, ?_⟩
    rw [Deployment.start, Action.bind_apply]
    rcases hcreate : createPools create config.dataSources w with ⟨r, w'⟩
    rw [hcreate] at hcalls
    cases r with
    | error e => exact .inl ⟨e, rfl, rfl⟩
    | ok m =>
        obtain ⟨hkeys, -, -⟩ := hcalls.created m rfl
        exact .inr ⟨m, ⟨config, m⟩, rfl, rfl, hkeys, fun u schema => rfl⟩

/-- The second of three pools is refused: the third is not asked for. -/
example :
    let create : PoolProperties → Action Nat SourceId := fun p => do
      let n ← get
      if p.poolType = "refused" then throw (.other "no such pool")
      set (n + 1)
      return n
    let props := OrderedMap.ofList [("a", .new "plain"), ("b", .new "refused"), ("c", .new "plain")]
    let done := createPools (recorded create) props (0, [])
    done.1.map OrderedMap.keys = .error (.other "no such pool") ∧ done.2.1 = 1 ∧
      done.2.2.map (fun c => c.props.poolType) = ["plain", "refused"] := by
  refine ⟨rfl, rfl, rfl⟩

end MainResult

end SessionBroker
