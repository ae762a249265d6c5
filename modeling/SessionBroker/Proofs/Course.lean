import SessionBroker.Proofs.Tables
import SessionBroker.Session.Run

/-!
# The course of a step

A step is carried out by nested functions, and the steps inside its attempts by the same
functions again. Here it becomes a chain of moves: each move changes the world in one way and
causes at most one event of the step's own. What the functions do is read off once, in the
lemmas that give every function its course; what holds along every run is then proved move by
move.

The handler `nested` for the steps inside attempts is arbitrary. A course that is one for every
handler makes no attempt.
-/

namespace SessionBroker

/-! ## Events of a kind -/

/-- The events of a look at the cluster and of the creation of a pool. -/
def Event.isLookup : Event → Bool
  | .nodesLoaded _ _ | .propertiesLoaded _ | .usersLoaded | .poolCreated _ _ | .poolFailed _ => true
  | _ => false

/-- The events of an attempt to open a connection, by what it came to. -/
def openEvents (source : SourceId) : Except Error Connection → List Event
  | .ok c => [.opening source, .opened source c]
  | .error _ => [.opening source, .openFailed source]

/-- The events of an attempt to close a connection, by what it came to. -/
def closeEvents (c : Connection) : Except Error Unit → List Event
  | .ok _ => [.closing c, .closed c]
  | .error _ => [.closing c, .closeFailed c]

/-- The events of a batch of opened connections. -/
def openingEvents (source : SourceId) (opened : List Connection) : List Event :=
  opened.flatMap fun c => openEvents source (.ok c)

/-- The events of attempts to close connections, by what they came to. -/
def closingEvents : List Connection → List (Except Error Unit) → List Event
  | c :: cs, r :: rs => closeEvents c r ++ closingEvents cs rs
  | _, _ => []

namespace Surroundings

variable {ε : Type}

/-! ## Moves -/

/-- A look at the cluster, the creation of a pool, or the beginning of an attempt: what changes
the surroundings without ending an attempt. -/
inductive Stirs (k : Surroundings ε) : ε → ε → Prop where
  | beginOpen (source : SourceId) (env : ε) : Stirs k env (k.beginOpen source env).2
  | beginClose (c : Connection) (env : ε) : Stirs k env (k.beginClose c env).2
  | loadNodes {env₀ : ε} {r : Registry ε} (h : k.cluster.registry env₀ = some r)
      (kind : NodeKind) (labels : List String) (env : ε) :
      Stirs k env (r.loadNodes kind labels env).2
  | loadProperties {env₀ : ε} {r : Registry ε} (h : k.cluster.registry env₀ = some r)
      (schema : String) (env : ε) : Stirs k env (r.loadProperties schema env).2
  | loadUsers {env₀ : ε} {r : Registry ε} (h : k.cluster.registry env₀ = some r) (env : ε) :
      Stirs k env (r.loadUsers env).2
  | createPool (props : PoolProperties) (env : ε) :
      Stirs k env (k.cluster.createPool props env).2

/-- The steps that run inside attempts. -/
def Cues (k : Surroundings ε) (step : Step ε) : Prop :=
  ∃ env, (∃ source, step ∈ (k.beginOpen source env).1) ∨ ∃ c, step ∈ (k.beginClose c env).1

section Moves

variable (k : Surroundings ε) (nested : Step ε → StateM (World ε) Unit) (call : Nat)
  (step : Step ε)

/-- One move of `step`, carried out with the number `call`: the world before, the step's own
events, and the world after. -/
inductive Move : World ε → List Event → World ε → Prop where
  | stir {w : World ε} {env : ε} (h : k.Stirs w.env env) : Move w [] { w with env := env }
  | outside {w : World ε} {a : StateM ε Answer} (h : step = .outside a) :
      Move w [] { w with env := (a w.env).2 }
  | nested {w : World ε} {inner : Step ε} (h : k.Cues inner) : Move w [] (nested inner w).2
  | asked (w : World ε) (q : Question) : Move w [] (w.ask call q)
  | lookup {w : World ε} {e : Event} (h : e.isLookup = true) : Move w [e] (w.record call e)
  | opening (w : World ε) (source : SourceId) :
      Move w [.opening source] (w.record call (.opening source))
  | opened {w : World ε} {source : SourceId} {c : Connection} {env : ε}
      (h : k.finishOpen source w.env = (.ok c, env)) :
      Move w [.opened source c] ({ w with env := env }.record call (.opened source c))
  | openFailed {w : World ε} {source : SourceId} {e : Error} {env : ε}
      (h : k.finishOpen source w.env = (.error e, env)) :
      Move w [.openFailed source] ({ w with env := env }.record call (.openFailed source))
  | closing (w : World ε) (c : Connection) : Move w [.closing c] (w.record call (.closing c))
  | closed {w : World ε} {c : Connection} {u : Unit} {env : ε}
      (h : k.finishClose c w.env = (.ok u, env)) :
      Move w [.closed c] ({ w with env := env }.record call (.closed c))
  | closeFailed {w : World ε} {c : Connection} {e : Error} {env : ε}
      (h : k.finishClose c w.env = (.error e, env)) :
      Move w [.closeFailed c] ({ w with env := env }.record call (.closeFailed c))
  | kept {w : World ε} {s : Nat} (h : s < w.sessions.length) (name : String)
      (batch : List Connection) : Move w [.kept s name batch] (w.keep call s name batch)
  | drained {w : World ε} {s : Nat} (h : s < w.sessions.length) :
      Move w [.drained s (w.session s).holdings.entries] (w.drain call s)
  | routed (w : World ε) (s : Nat) (routes : Routes) : Move w [] (World.keepRoutes s routes w)
  | routerRouted (w : World ε) (r : Nat) (routes : Routes) :
      Move w [] (World.keepRouterRoutes r routes w)
  | newSession (w : World ε) (schema : String) : Move w [] (w.addSession schema)
  | newRouter (w : World ε) (schema : String) : Move w [] (w.addRouter schema)

/-- A chain of moves. -/
inductive Course : World ε → List Event → World ε → Prop where
  | refl (w : World ε) : Course w [] w
  | step {w w₁ w' : World ε} {es es' : List Event} (h : k.Move nested call step w es w₁)
      (rest : Course w₁ es' w') : Course w (es ++ es') w'

end Moves

section Chains

variable {k : Surroundings ε} {nested : Step ε → StateM (World ε) Unit} {call : Nat}
  {step : Step ε} {w w₁ w' : World ε} {es es' : List Event}

theorem Course.trans (h : k.Course nested call step w es w₁)
    (h' : k.Course nested call step w₁ es' w') :
    k.Course nested call step w (es ++ es') w' := by
  induction h with
  | refl w => exact h'
  | step hm _ ih =>
      rw [List.append_assoc]
      exact .step hm (ih h')

theorem Course.of_move (h : k.Move nested call step w es w') :
    k.Course nested call step w es w' := by
  have hc := Course.step h (.refl w')
  rwa [List.append_nil] at hc

/-- What every move keeps, a course keeps. -/
theorem Course.keeps {I : World ε → Prop} (h : k.Course nested call step w es w')
    (hmove : ∀ {u es u'}, k.Move nested call step u es u' → I u → I u') (hw : I w) : I w' := by
  induction h with
  | refl w => exact hw
  | step hm _ ih => exact ih (hmove hm hw)

/-- Sessions do not go away in the steps of a handler. -/
def Grows (nested : Step ε → StateM (World ε) Unit) : Prop :=
  ∀ inner w, w.sessions.length ≤ (nested inner w).2.sessions.length

theorem Course.sessions_le (hnested : Grows nested) (h : k.Course nested call step w es w') :
    w.sessions.length ≤ w'.sessions.length := by
  refine h.keeps (I := fun u => w.sessions.length ≤ u.sessions.length) ?_ (Nat.le_refl _)
  intro u es u' hmove hu
  refine Nat.le_trans hu ?_
  cases hmove with
  | @nested inner => exact hnested inner u
  | newSession schema => simp [World.addSession]
  | kept => simp
  | drained => simp
  | routed => simp
  | _ => exact Nat.le_refl _

end Chains

/-! ## Attempts -/

section AttemptCourses

variable {k : Surroundings ε} {nested : Step ε → StateM (World ε) Unit} {call : Nat}
  {step : Step ε}

theorem forM_cons_apply (inner : Step ε) (steps : List (Step ε)) (w : World ε) :
    (inner :: steps).forM nested w = steps.forM nested (nested inner w).2 := rfl

theorem forM_nil_apply (w : World ε) : ([] : List (Step ε)).forM nested w = (⟨⟩, w) := rfl

/-- The steps of a list are nested steps, one after the other. -/
theorem course_forM {steps : List (Step ε)} (h : ∀ inner ∈ steps, k.Cues inner) (w : World ε) :
    k.Course nested call step w [] (steps.forM nested w).2 := by
  induction steps generalizing w with
  | nil => exact .refl w
  | cons inner steps ih =>
      rw [forM_cons_apply]
      have hm : k.Move nested call step w [] (nested inner w).2 :=
        .nested (h inner List.mem_cons_self)
      exact .step hm (ih (fun i hi => h i (List.mem_cons_of_mem inner hi)) _)

/-- An attempt to open, step by step. -/
theorem attemptOpen_apply (source : SourceId) (w : World ε) :
    k.attemptOpen nested call source w =
      (let begun := w.record call (.opening source)
        let cued := k.beginOpen source begun.env
        let inner := (cued.1.forM nested { begun with env := cued.2 }).2
        let ending := k.finishOpen source inner.env
        (ending.1, { inner with env := ending.2 }.record call
          (match ending.1 with | .ok c => .opened source c | .error _ => .openFailed source))) := by
  simp only [attemptOpen, ExceptT.mk, stateM_bind_apply, stateM_modify_apply, onEnv_apply,
    ExceptT.run]
  generalize ((k.beginOpen source _).1.forM nested _).2 = inner
  rcases k.finishOpen source inner.env with ⟨r, env⟩
  cases r <;> rfl

/-- An attempt to close, step by step. -/
theorem attemptClose_apply (c : Connection) (w : World ε) :
    k.attemptClose nested call c w =
      (let begun := w.record call (.closing c)
        let cued := k.beginClose c begun.env
        let inner := (cued.1.forM nested { begun with env := cued.2 }).2
        let ending := k.finishClose c inner.env
        (ending.1, { inner with env := ending.2 }.record call
          (match ending.1 with | .ok _ => .closed c | .error _ => .closeFailed c))) := by
  simp only [attemptClose, ExceptT.mk, stateM_bind_apply, stateM_modify_apply, onEnv_apply,
    ExceptT.run]
  generalize ((k.beginClose c _).1.forM nested _).2 = inner
  rcases k.finishClose c inner.env with ⟨r, env⟩
  cases r <;> rfl

/-- An attempt begins: it stands in the log before anything runs inside it. -/
theorem course_begun {e : Event} {w : World ε} {env : ε} {steps : List (Step ε)}
    (hmove : k.Move nested call step w [e] (w.record call e))
    (hstir : k.Stirs (w.record call e).env env) (hcues : ∀ inner ∈ steps, k.Cues inner) :
    k.Course nested call step w [e] (steps.forM nested { w.record call e with env := env }).2 := by
  have hstirred : k.Course nested call step (w.record call e) [] { w.record call e with env := env } :=
    .of_move (.stir hstir)
  exact .step hmove (hstirred.trans (course_forM hcues _))

theorem attemptOpen_course {source : SourceId} {w w' : World ε} {r : Except Error Connection}
    (h : k.attemptOpen nested call source w = (r, w')) :
    k.Course nested call step w (openEvents source r) w' := by
  let w₁ := w.record call (.opening source)
  let w₂ := ((k.beginOpen source w₁.env).1.forM nested
    { w₁ with env := (k.beginOpen source w₁.env).2 }).2
  have hbegun : k.Course nested call step w [.opening source] w₂ :=
    course_begun (.opening w source) (.beginOpen source w₁.env)
      fun inner hi => ⟨w₁.env, .inl ⟨source, hi⟩⟩
  rcases hf : k.finishOpen source w₂.env with ⟨r₁, env⟩
  rw [attemptOpen_apply] at h
  dsimp only at h
  rw [show k.finishOpen source _ = _ from hf] at h
  cases r₁ with
  | ok c =>
      cases h
      exact hbegun.trans (.of_move (.opened hf))
  | error e =>
      cases h
      exact hbegun.trans (.of_move (.openFailed hf))

theorem attemptClose_course {c : Connection} {w w' : World ε} {r : Except Error Unit}
    (h : k.attemptClose nested call c w = (r, w')) :
    k.Course nested call step w (closeEvents c r) w' := by
  let w₁ := w.record call (.closing c)
  let w₂ := ((k.beginClose c w₁.env).1.forM nested
    { w₁ with env := (k.beginClose c w₁.env).2 }).2
  have hbegun : k.Course nested call step w [.closing c] w₂ :=
    course_begun (.closing w c) (.beginClose c w₁.env) fun inner hi => ⟨w₁.env, .inr ⟨c, hi⟩⟩
  rcases hf : k.finishClose c w₂.env with ⟨r₁, env⟩
  rw [attemptClose_apply] at h
  dsimp only at h
  rw [show k.finishClose c _ = _ from hf] at h
  cases r₁ with
  | ok u =>
      cases h
      exact hbegun.trans (.of_move (.closed hf))
  | error e =>
      cases h
      exact hbegun.trans (.of_move (.closeFailed hf))

/-- Attempts to open connections, one after the other. -/
theorem opens_course {source : SourceId} {n : Nat} {w w' : World ε}
    {rs : List (Except Error Connection)}
    (h : inTurn (List.replicate n (k.attemptOpen nested call source)) w = (rs, w')) :
    k.Course nested call step w (rs.flatMap (openEvents source)) w' := by
  induction n generalizing w rs with
  | zero =>
      cases h
      exact .refl _
  | succ n ih =>
      rw [List.replicate_succ, inTurn_cons] at h
      cases h
      exact (attemptOpen_course rfl).trans (ih rfl)

/-- Attempts to close connections, one after the other. -/
theorem closes_course {cs : List Connection} {w w' : World ε} {rs : List (Except Error Unit)}
    (h : inTurn (cs.map (k.attemptClose nested call)) w = (rs, w')) :
    k.Course nested call step w (closingEvents cs rs) w' := by
  induction cs generalizing w rs with
  | nil =>
      cases h
      exact .refl _
  | cons c cs ih =>
      rw [List.map_cons, inTurn_cons] at h
      cases h
      exact (attemptClose_course rfl).trans (ih rfl)

end AttemptCourses

/-! ## Lookups -/

/-- An action of the call `call` whose course is one for every handler, with nothing but lookups
among its events. -/
def Looks (k : Surroundings ε) (call : Nat) {α : Type} (a : Action (World ε) α) : Prop :=
  ∀ (nested : Step ε → StateM (World ε) Unit) (step : Step ε) (w : World ε),
    ∃ es, (∀ e ∈ es, e.isLookup = true) ∧ k.Course nested call step w es (a w).2

section Lookups

variable {k : Surroundings ε} {call : Nat} {α β : Type}

theorem Looks.of_still {a : Action (World ε) α} (h : ∀ w, (a w).2 = w) : k.Looks call a := by
  intro nested step w
  refine ⟨[], by simp, ?_⟩
  rw [h]
  exact .refl w

theorem Looks.bind {a : Action (World ε) α} {f : α → Action (World ε) β} (ha : k.Looks call a)
    (hf : ∀ x, k.Looks call (f x)) : k.Looks call (a >>= f) := by
  intro nested step w
  obtain ⟨es, hes, hc⟩ := ha nested step w
  rw [Action.bind_apply]
  rcases hw : a w with ⟨r, w₁⟩
  rw [hw] at hc
  cases r with
  | error e => exact ⟨es, hes, hc⟩
  | ok x =>
      obtain ⟨es', hes', hc'⟩ := hf x nested step w₁
      refine ⟨es ++ es', ?_, hc.trans hc'⟩
      intro e he
      rcases List.mem_append.mp he with he | he
      · exact hes e he
      · exact hes' e he

/-- A question is not an event. -/
theorem looks_inquire (q : Question) (answer : ε → α) :
    k.Looks call (liftM (World.inquire call q answer)) :=
  fun _ _ w => ⟨[], by simp, .of_move (.asked w q)⟩

theorem looks_physical (schema : String) :
    k.Looks call (liftM ((k.cluster.logged call).physical schema)) :=
  looks_inquire (.physical schema) fun env => k.cluster.physical env schema

theorem looks_trafficRule (k : Surroundings ε) (call : Nat) :
    k.Looks call (liftM (k.cluster.logged call).trafficRule) :=
  looks_inquire .trafficRule k.cluster.trafficRule

theorem looks_loads {env₀ : ε} {r : Registry ε} (h : k.cluster.registry env₀ = some r) :
    Loads (fun _ a => k.Looks call a) (r.logged call) where
  nodes := by
    intro kind labels nested step w
    refine ⟨[.nodesLoaded kind labels], by simp [Event.isLookup], ?_⟩
    exact .step (.lookup rfl) (.of_move (.stir (.loadNodes h kind labels w.env)))
  properties := by
    intro schema nested step w
    refine ⟨[.propertiesLoaded schema], by simp [Event.isLookup], ?_⟩
    exact .step (.lookup rfl) (.of_move (.stir (.loadProperties h schema w.env)))
  users := by
    intro nested step w
    refine ⟨[.usersLoaded], by simp [Event.isLookup], ?_⟩
    exact .step (.lookup rfl) (.of_move (.stir (.loadUsers h w.env)))

/-- What asks for a registry looks, if it looks with each registry that the cluster can have. -/
theorem looks_registry {f : Option (Registry (World ε)) → Action (World ε) β}
    (hnone : k.Looks call (f none))
    (hsome : ∀ r, Loads (fun _ a => k.Looks call a) r → k.Looks call (f (some r))) :
    k.Looks call (liftM (k.cluster.logged call).registry >>= f) := by
  intro nested step w
  rw [registry_bind_apply]
  have hrest : ∃ es, (∀ e ∈ es, e.isLookup = true) ∧
      k.Course nested call step (w.ask call .registry) es
        (f ((k.cluster.registry w.env).map (·.logged call)) (w.ask call .registry)).2 := by
    cases hregistry : k.cluster.registry w.env with
    | none => exact hnone nested step (w.ask call .registry)
    | some r => exact hsome _ (looks_loads hregistry) nested step (w.ask call .registry)
  obtain ⟨es, hes, hcourse⟩ := hrest
  exact ⟨es, hes, .step (.asked w .registry) hcourse⟩

theorem looks_candidates (s : Nat) :
    k.Looks call (liftM (World.candidates (k.cluster.logged call) s)) := by
  intro nested step w
  refine ⟨[], by simp, ?_⟩
  rw [Action.lift_apply, candidates_apply]
  split
  · exact .of_move (.asked w _)
  · exact .refl w

theorem looks_createPool (props : PoolProperties) :
    k.Looks call ((k.cluster.logged call).createPool props) := by
  intro nested step w
  simp only [Cluster.logged, ExceptT.mk, stateM_bind_apply, onEnv_apply, ExceptT.run]
  have hstir : k.Move nested call step w [] { w with env := (k.cluster.createPool props w.env).2 } :=
    .stir (.createPool props w.env)
  cases (k.cluster.createPool props w.env).1 with
  | ok source => exact ⟨[.poolCreated source props], by simp [Event.isLookup],
      .step hstir (.of_move (.lookup rfl))⟩
  | error e => exact ⟨[.poolFailed props], by simp [Event.isLookup],
      .step hstir (.of_move (.lookup rfl))⟩

theorem looks_builds (k : Surroundings ε) (call : Nat) :
    Builds (k.cluster.logged call) fun _ a => k.Looks call a where
  still := .of_still
  bind := .bind
  trafficRule := looks_trafficRule k call
  registry := looks_registry
  createPool := looks_createPool

/-- A router's table is built with lookups alone; `keep` is a move of its own. -/
theorem looks_resolve {router : World ε → Router} {keep : Routes → World ε → World ε}
    (hkeep : ∀ nested step routes w, k.Move nested call step w [] (keep routes w)) :
    k.Looks call (Router.resolve (k.cluster.logged call) router keep) := by
  have hget : k.Looks call (get : Action (World ε) (World ε)) := .of_still fun _ => rfl
  refine hget.bind fun w₁ => ?_
  split
  · exact .of_still fun _ => rfl
  refine hget.bind fun w₂ => ((looks_builds k call).buildRoutes _).bind fun routes => ?_
  exact fun nested step w => ⟨[], by simp, .of_move (hkeep nested step routes w)⟩

theorem looks_resolveRoutes (s : Nat) :
    k.Looks call (World.resolveRoutes (k.cluster.logged call) s) :=
  looks_resolve fun _ _ routes w => .routed w s routes

theorem looks_resolveSource (s : Nat) (name : String) :
    k.Looks call (World.resolveSource (k.cluster.logged call) s name) := by
  refine (looks_resolveRoutes s).bind fun routes => ?_
  split
  · exact .of_still fun _ => rfl
  refine (Looks.of_still fun _ => rfl).bind fun w₁ => ?_
  refine (looks_physical _).bind fun physical => ?_
  split
  · exact .of_still fun _ => rfl
  · exact .of_still fun _ => rfl

end Lookups

end Surroundings

end SessionBroker
