import SessionBroker.Proofs.Choices

/-!
# Drawn names can be used

A session on the schema of a standalone deployment always draws a name, and an acquisition of this
name fails for want of connections only. Three places agree on that: the configuration has a data
source, the draw is among what is held or else the data sources, and a name is looked for in the
table and then among the data sources. What is held was opened from a source that its name stood for
then; it stands for it still, as neither the table nor the data sources change.

There is one name on which they do not agree. A data source may have the empty name; it can be
drawn, and every acquisition refuses it.
-/

namespace SessionBroker

namespace Surroundings

variable {ε : Type} {k : Surroundings ε} {m : Occurrence ε} {s count : Nat} {name : String}
  {mode : AcquisitionMode}

/-! ## Acquisitions -/

/-- There is a table, or it can be built. -/
theorem exists_lookUp {ρ : RouterId}
    (h : (m.world.table ρ).isSome ∨ ∃ routes w₁, m.build k ρ = (.ok routes, w₁)) :
    ∃ routes w₁, World.lookUp (k.cluster.logged m.number) ρ m.begun = (.ok routes, w₁) := by
  cases htable : m.begun.table ρ with
  | some routes => exact ⟨routes, m.begun, World.lookUp_known htable⟩
  | none =>
      rcases h with hsome | ⟨routes, w₁, hbuild⟩
      · rw [show m.world.table ρ = none from htable] at hsome
        cases hsome
      · rw [World.lookUp_unknown htable, show buildRoutes _ _ m.begun = _ from hbuild]
        exact ⟨routes, _, rfl⟩

theorem result_unnamed (hstep : m.step = .call (.acquire s "" count mode))
    (hs : s < m.world.sessions.length) :
    m.result k = (.failed (.invalidArgument "data source name must not be empty"), m.begun) := by
  rw [result_acquire hstep hs, acquire_unnamed rfl]
  rfl

/-- An acquisition that got all that was asked for, or failed for want of a connection. -/
def ServedOrShort (count : Nat) (o : Outcome) : Prop :=
  (∃ cs, o = .answered (.connections cs) ∧ cs.length = count) ∨
    ∃ opened cause, o = .failed (.acquisitionFailed count opened cause)

theorem servedOrShort_of_resolved (hstep : m.step = .call (.acquire s name count mode))
    (hs : s < m.world.sessions.length) (hname : name ≠ "") (hcount : count ≠ 0)
    {source : SourceId} {w₁ : World ε}
    (hsource : World.resolveSource (k.cluster.logged m.number) s name m.begun = (.ok source, w₁)) :
    ServedOrShort count (m.result k).1 := by
  have hcall : m.number < m.begun.calls := Nat.lt_succ_self m.number
  rw [result_acquire hstep hs]
  rcases hacquire : World.acquire (k.cluster.logged m.number)
    (k.sources (k.nested m.depth) m.number) m.number s name count mode m.begun with ⟨r, w'⟩
  cases r with
  | ok cs =>
      obtain ⟨opened, new, w₂, hserved⟩ := acquire_served hcall hacquire
      have hopened := hserved.length_eq
      refine .inl ⟨cs, rfl, ?_⟩
      rw [hserved.batch_eq, List.length_append, List.length_take]
      omega
  | error e =>
      obtain ⟨opened, cause, rfl, -⟩ :=
        (acquire_resolved hcall hacquire hname hcount hsource).2 e rfl
      exact .inr ⟨opened.length, cause, rfl⟩

end Surroundings

/-! ## What drawn names stand for -/

section Sources

variable {ε : Type} {k : Surroundings ε} {d : Deployment} {m : Occurrence ε} {s : Nat}
  {name : String} {routes : Routes} {w₁ : World ε}

theorem sourceOf_of_physical (routes : Routes) (h : name ∈ d.sources.keys) :
    ∃ source, sourceOf routes d.sources name = some source := by
  obtain ⟨source, hsource⟩ :=
    Option.isSome_iff_exists.mp ((OrderedMap.contains_iff_mem_keys d.sources name).mpr h)
  unfold sourceOf
  cases routes.get? name with
  | none => exact ⟨source, hsource⟩
  | some pool => exact ⟨pool, rfl⟩

/-- What is held stands for a source as long as there is the schema. -/
theorem sourceOf_of_held {depth : Nat} {steps : List (Step ε)} {env : ε} {u : World ε}
    (hu : u ∈ momentsOf (k.deployed d) ((k.deployed d).tourRun depth steps (.new env))
      ((k.deployed d).run depth steps (.new env)))
    (hname : name ∈ (u.session s).holdings.names) :
    ∃ routes, u.table (.ofSession s) = some routes ∧
      ∃ source, sourceOf routes d.sources name = some source := by
  have hfrom : FromOneSource (k.deployed d) _ ((k.deployed d).tourRun depth steps (.new env))
      ((k.deployed d).run depth steps (.new env)) s := fromOneSource_deployed
  obtain ⟨routes, htable⟩ := Option.isSome_iff_exists.mp
    (Surroundings.seated_of_moment u hu s (List.ne_nil_of_mem hname))
  obtain ⟨c, rest, hheld⟩ :=
    List.exists_cons_of_ne_nil ((stocked_of_moment hu s).heldFor_ne_nil name hname)
  have hmem : c ∈ u.heldFor s name := by
    rw [World.heldFor, hheld]
    exact List.mem_cons_self
  obtain ⟨source, ⟨routes', htable', hsource⟩, -⟩ := hfrom.opened name c _ (.held hu hmem)
  cases (hfrom.table u hu routes htable).symm.trans htable'
  refine ⟨routes, htable, ?_⟩
  unfold sourceOf at hsource ⊢
  cases hroute : routes.get? name with
  | some pool => exact ⟨pool, rfl⟩
  | none =>
      rw [hroute, Option.none_or] at hsource
      rw [Option.none_or]
      split at hsource
      · exact ⟨source, hsource⟩
      · cases hsource

/-- On the schema that is served, a name is looked for in the table and among the data sources. -/
theorem resolves_of_sourceOf (hschema : (m.world.session s).router.schema = d.schema)
    (hlook : World.lookUp ((k.deployed d).cluster.logged m.number) (.ofSession s) m.begun =
      (.ok routes, w₁)) {source : SourceId}
    (hsource : sourceOf routes d.sources name = some source) :
    World.resolveSource ((k.deployed d).cluster.logged m.number) s name m.begun =
      (.ok source,
        w₁.asking m.number (sourceQuestions routes (w₁.session s).router.schema name)) := by
  have hkept : (w₁.session s).router.schema = d.schema := by
    have hsame : ((World.lookUp ((k.deployed d).cluster.logged m.number) (.ofSession s)
        m.begun).2.routerOf (.ofSession s)).schema = (m.begun.routerOf (.ofSession s)).schema :=
      World.schema_lookUp (.ofSession s) (.ofSession s) m.begun
    rw [hlook] at hsame
    exact hsame.trans hschema
  apply resolveSource_of_some hlook
  show sourceOf routes (if (w₁.session s).router.schema = d.schema then d.sources else .empty)
    name = some source
  rw [if_pos hkept, hsource]

end Sources

/-! ## Main result -/

section MainResult

variable {ε : Type}

/-- What a session on the schema of a deployment draws in a world, and what comes of asking for
it. -/
structure DrawsUsable (k : Surroundings ε) (config : DeploymentConfig) (u : World ε) (s : Nat) :
    Prop where
  drawn : ∀ draw, ∃ name, k.pick u s draw = some name
  /-- Whether there is a table already or it can be built: there are as many connections as are
  asked for, or too few can be opened. -/
  usable : ∀ draw name, k.pick u s draw = some name → name ≠ "" →
    ∀ m : Occurrence ε, m.world = u →
      ∀ count mode, count ≠ 0 → m.step = .call (.acquire s name count mode) →
        ((u.table (.ofSession s)).isSome ∨
          ∃ routes w₁, m.build k (.ofSession s) = (.ok routes, w₁)) →
        Surroundings.ServedOrShort count (m.result k).1
  /-- The empty name is drawn only if a data source has it. -/
  configured : ∀ draw, k.pick u s draw = some "" →
    (u.session s).holdings.names = [] ∧ "" ∈ config.dataSources.keys
  refused : ∀ m : Occurrence ε, m.world = u →
    ∀ count mode, m.step = .call (.acquire s "" count mode) →
      m.result k = (.failed (.invalidArgument "data source name must not be empty"), m.begun)

theorem DeploymentConfig.keys_ne_nil_of_ofToml {text : String} {config : DeploymentConfig}
    (h : ofToml text = .ok config) : config.dataSources.keys ≠ [] := by
  obtain ⟨sample, rest, hsample⟩ := sampled_of_ofToml h
  intro hkeys
  rw [OrderedMap.keys, List.map_eq_nil_iff] at hkeys
  rw [OrderedMap.values, hkeys] at hsample
  cases hsample

/-- In a deployment that was started from an accepted text, drawn names can be used, whatever was
called before and however deep calls nest; but the text must not give the empty name to a data
source. -/
theorem drawn_names_usable (k : Surroundings ε) {text : String} {config : DeploymentConfig}
    {d : Deployment} {env₀ env₁ : ε} (htext : DeploymentConfig.ofToml text = .ok config)
    (hstart : Deployment.start k.cluster.createPool config env₀ = (.ok d, env₁))
    (depth : Nat) (steps : List (Step ε)) (env : ε) :
    ∀ u ∈ momentsOf (k.deployed d) ((k.deployed d).tourRun depth steps (.new env))
        ((k.deployed d).run depth steps (.new env)),
      ∀ s < u.sessions.length, (u.session s).router.schema = config.schema →
        DrawsUsable (k.deployed d) config u s := by
  obtain ⟨rfl, rs, hpools⟩ := Deployment.start_sources hstart
  intro u hu s hs hschema
  have hsources : d.sources.keys = d.config.dataSources.keys := hpools.keys_eq
  have hcandidates : (World.candidates ((k.deployed d).cluster.logged u.calls) s u).1 =
      if (u.session s).holdings.names = [] then d.sources.keys
      else (u.session s).holdings.names := by
    have hphysical : (k.deployed d).cluster.physical u.env (u.session s).router.schema =
        d.sources := if_pos hschema
    rw [candidates_fst, hphysical]
  constructor
  case drawn =>
    intro draw
    have hsome : (k.deployed d).pick u s draw ≠ none := by
      unfold Surroundings.pick
      rw [ne_eq, Choice.choose?_eq_none_iff, hcandidates]
      split
      · rw [hsources]
        exact DeploymentConfig.keys_ne_nil_of_ofToml htext
      · assumption
    exact Option.ne_none_iff_exists'.mp hsome
  case usable =>
    rintro draw name hdraw hname m rfl count mode hcount hstep hbuilds
    have hmem := Choice.exists_draw_iff.mp ⟨draw, hdraw⟩
    rw [hcandidates] at hmem
    obtain ⟨routes, w₁, hlook⟩ := Surroundings.exists_lookUp hbuilds
    have hsource : ∃ source, sourceOf routes d.sources name = some source := by
      split at hmem
      · exact sourceOf_of_physical routes hmem
      · obtain ⟨routes', htable, hsource⟩ := sourceOf_of_held hu hmem
        have hknown : m.begun.table (.ofSession s) = some routes' := htable
        rw [World.lookUp_known hknown] at hlook
        cases hlook
        exact hsource
    obtain ⟨source, hsource⟩ := hsource
    exact Surroundings.servedOrShort_of_resolved hstep hs hname hcount
      (resolves_of_sourceOf hschema hlook hsource)
  case configured =>
    intro draw hdraw
    have hmem := Choice.exists_draw_iff.mp ⟨draw, hdraw⟩
    rw [hcandidates] at hmem
    split at hmem
    · rename_i hnames
      exact ⟨hnames, hsources ▸ hmem⟩
    · exact absurd hmem (stocked_of_moment hu s).named
  case refused =>
    rintro m rfl count mode hstep
    exact Surroundings.result_unnamed hstep hs

end MainResult

namespace Stage

/-- A configuration that gives the empty name to its data source. -/
def unnamedText : String := "schema=\"s\"\ndata_sources.\"\".pool_type=\"p\"\n"

/-- The world after some instructions, in a deployment. -/
def played (d : Deployment) (stage : Stage) (is : List Instruction) : World Stage :=
  (surroundings.deployed d).run 0 (is.map Instruction.step) (.new stage)

/-- What is checked of a deployment, once it has started on an empty stage. -/
def checked (text : String) (check : DeploymentConfig → Deployment → Stage → Bool) : Bool :=
  match DeploymentConfig.ofToml text with
  | .error _ => false
  | .ok config =>
    match Deployment.start createPool config bare with
    | (.error _, _) => false
    | (.ok d, stage) => check config d stage

theorem deployed_of_checked (text : String) (check : DeploymentConfig → Deployment → Stage → Bool)
    (h : checked text check = true) : ∃ config d stage,
      DeploymentConfig.ofToml text = .ok config ∧
        Deployment.start createPool config bare = (.ok d, stage) ∧ check config d stage = true := by
  unfold checked at h
  cases htext : DeploymentConfig.ofToml text with
  | error e =>
      rw [htext] at h
      cases h
  | ok config =>
      rcases hstart : Deployment.start createPool config bare with ⟨r, stage⟩
      simp only [htext, hstart] at h
      cases r with
      | error e => cases h
      | ok d => exact ⟨config, d, stage, rfl, hstart, h⟩

end Stage

/-- A session that holds a connection of a node's pool draws the name of the node. -/
theorem held_name_usable :
    ∃ config d stage, DeploymentConfig.ofToml Stage.deploymentText = .ok config ∧
      Deployment.start Stage.createPool config Stage.bare = (.ok d, stage) ∧
      let w := Stage.played d stage
        [.call (.newSession "s"), .call (.acquire 0 "ds" 1 .memoryStrictly)]
      0 < w.sessions.length ∧ (w.session 0).router.schema = config.schema ∧
        (Stage.surroundings.deployed d).pick w 0 0 = some "ds" ∧
        DrawsUsable (Stage.surroundings.deployed d) config w 0 := by
  obtain ⟨config, d, stage, htext, hstart, hcheck⟩ := Stage.deployed_of_checked
    Stage.deploymentText (fun config d stage =>
      let w := Stage.played d stage
        [.call (.newSession "s"), .call (.acquire 0 "ds" 1 .memoryStrictly)]
      decide (0 < w.sessions.length ∧ (w.session 0).router.schema = config.schema ∧
        (Stage.surroundings.deployed d).pick w 0 0 = some "ds")) (by decide +kernel)
  obtain ⟨hs, hschema, hdraw⟩ := of_decide_eq_true hcheck
  refine ⟨config, d, stage, htext, hstart, hs, hschema, hdraw, ?_⟩
  exact drawn_names_usable Stage.surroundings htext hstart 0 _ stage _
    (List.mem_append_right _ List.mem_cons_self) 0 hs hschema

/-- The empty name is drawn, and refused although the table can be built. -/
theorem empty_name_refused :
    ∃ config d stage, DeploymentConfig.ofToml Stage.unnamedText = .ok config ∧
      Deployment.start Stage.createPool config Stage.bare = (.ok d, stage) ∧
      let k := Stage.surroundings.deployed d
      let w := Stage.played d stage [.call (.newSession "s")]
      let m : Occurrence Stage := ⟨0, .call (.acquire 0 "" 1 .memoryStrictly), w⟩
      0 < w.sessions.length ∧ (w.session 0).router.schema = config.schema ∧
        k.pick w 0 0 = some "" ∧ (∃ routes w₁, m.build k (.ofSession 0) = (.ok routes, w₁)) ∧
        (m.result k).1 =
          .failed (.invalidArgument "data source name must not be empty") := by
  obtain ⟨config, d, stage, htext, hstart, hcheck⟩ := Stage.deployed_of_checked
    Stage.unnamedText (fun config d stage =>
      let k := Stage.surroundings.deployed d
      let w := Stage.played d stage [.call (.newSession "s")]
      let m : Occurrence Stage := ⟨0, .call (.acquire 0 "" 1 .memoryStrictly), w⟩
      decide (0 < w.sessions.length ∧ (w.session 0).router.schema = config.schema ∧
        k.pick w 0 0 = some "" ∧ (m.build k (.ofSession 0)).1.toOption.isSome)) (by decide +kernel)
  obtain ⟨hs, hschema, hdraw, hbuild⟩ := of_decide_eq_true hcheck
  refine ⟨config, d, stage, htext, hstart, hs, hschema, hdraw, ?_, ?_⟩
  · rcases hbuilt : Occurrence.build _ _ _ with ⟨r, w₁⟩
    rw [hbuilt] at hbuild
    cases r with
    | error e => cases hbuild
    | ok routes => exact ⟨routes, w₁, rfl⟩
  · rw [Surroundings.result_unnamed rfl hs]

end SessionBroker
