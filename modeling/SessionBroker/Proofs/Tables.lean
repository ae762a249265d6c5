import SessionBroker.Proofs.Attempts
import SessionBroker.Proofs.World

/-!
# Route tables

A router without a table builds one when it is asked, and keeps it; a router with a table answers
from it and looks at nothing. The routers of sessions and those outside of sessions are treated
alike here: `lookUp` asks a router for its table.

A build asks, loads and creates pools, and does nothing else. `Builds` says so as a principle: what
questions, loads and pool creations do, and what is closed under doing one thing after the other, a
build does.
-/

namespace SessionBroker

/-! ## What a build is made of -/

section Building

variable {σ : Type}

/-- A registry whose loads are of a kind. -/
structure Loads (P : ∀ α : Type, Action σ α → Prop) (r : Registry σ) : Prop where
  nodes : ∀ kind labels, P _ (r.loadNodes kind labels)
  properties : ∀ schema, P _ (r.loadProperties schema)
  users : P _ r.loadUsers

/-- A kind of actions that a build does not leave. -/
structure Builds (access : Access σ) (P : ∀ α : Type, Action σ α → Prop) : Prop where
  still : ∀ {α : Type} {a : Action σ α}, (∀ w, (a w).2 = w) → P α a
  bind : ∀ {α β : Type} {a : Action σ α} {f : α → Action σ β}, P α a → (∀ x, P β (f x)) →
    P β (a >>= f)
  trafficRule : P _ (liftM access.trafficRule)
  /-- What asks for a registry goes on with none, or with one whose loads are of the kind. -/
  registry : ∀ {β : Type} {f : Option (Registry σ) → Action σ β}, P β (f none) →
    (∀ r, Loads P r → P β (f (some r))) → P β (liftM access.registry >>= f)
  createPool : ∀ props, P _ (access.createPool props)

namespace Builds

variable {access : Access σ} {P : ∀ α : Type, Action σ α → Prop}

theorem createPools (h : Builds access P) (props : OrderedMap String PoolProperties) :
    P _ (createPools access.createPool props) := by
  have hfold : ∀ (es : List (String × PoolProperties)) (created : SourceMap),
      P _ (es.foldlM (fun created e => do
        let source ← access.createPool e.2
        return created.insert e.1 source) created) := by
    intro es
    induction es with
    | nil => exact fun created => h.still fun w => rfl
    | cons e es ih =>
        intro created
        rw [List.foldlM_cons]
        exact h.bind (h.bind (h.createPool e.2) fun source => h.still fun w => rfl) ih
  exact hfold props.entries .empty

theorem buildRoutes (h : Builds access P) (schema : String) :
    P _ (buildRoutes access schema) := by
  refine h.bind h.trafficRule fun rule => ?_
  cases rule with
  | none => exact h.still fun _ => rfl
  | some rule =>
      dsimp only
      split
      · exact h.still fun _ => rfl
      refine h.registry (h.still fun _ => rfl) fun registry hloads => ?_
      refine h.bind (hloads.nodes .proxy rule.labels) fun nodes => ?_
      split
      · exact h.still fun _ => rfl
      refine h.bind (hloads.properties schema) fun known => ?_
      split
      · exact h.still fun _ => rfl
      refine h.bind hloads.users fun users => ?_
      exact h.bind (h.still fun _ => rfl) h.createPools

end Builds

namespace Router

variable (access : Access σ) (router : σ → Router) (keep : Routes → σ → σ) {w : σ}

theorem resolve_known {routes : Routes} (h : (router w).routes = some routes) :
    resolve access router keep w = (.ok routes, w) := by
  simp only [resolve, Action.bind_apply, Action.get_apply, h]
  rfl

theorem resolve_unknown (h : (router w).routes = none) :
    resolve access router keep w =
      match SessionBroker.buildRoutes access (router w).schema w with
      | (.ok routes, w₁) => (.ok routes, keep routes w₁)
      | (.error e, w₁) => (.error e, w₁) := by
  simp only [resolve, Action.bind_apply, Action.get_apply, h]
  rcases SessionBroker.buildRoutes access (router w).schema w with ⟨r, w₁⟩
  cases r <;> rfl

end Router

end Building

/-! ## Routers and their tables -/

/-- The router of a session, or one outside of sessions. -/
inductive RouterId where
  | ofSession (s : Nat)
  | alone (r : Nat)
deriving DecidableEq

namespace World

variable {ε : Type}

def routerOf (w : World ε) : RouterId → Router
  | .ofSession s => (w.session s).router
  | .alone r => w.router r

def table (w : World ε) (ρ : RouterId) : Option Routes := (w.routerOf ρ).routes

def hasRouter (w : World ε) : RouterId → Prop
  | .ofSession s => s < w.sessions.length
  | .alone r => r < w.routers.length

def keepTable : RouterId → Routes → World ε → World ε
  | .ofSession s => keepRoutes s
  | .alone r => keepRouterRoutes r

/-- The table of a router: the one it has, or a fresh one that it then keeps. -/
def lookUp (access : Access (World ε)) (ρ : RouterId) : Action (World ε) Routes :=
  Router.resolve access (fun w => w.routerOf ρ) (keepTable ρ)

section Tables

variable {w w' : World ε} {ρ σ : RouterId} {routes : Routes}

theorem routerOf_eq (hsessions : w'.sessions = w.sessions) (hrouters : w'.routers = w.routers)
    (ρ : RouterId) : w'.routerOf ρ = w.routerOf ρ := by
  cases ρ with
  | ofSession s => simp only [routerOf, session, hsessions]
  | alone r => simp only [routerOf, router, hrouters]

theorem table_keepTable_self (h : w.hasRouter ρ) (routes : Routes) :
    (keepTable ρ routes w).table ρ = some routes := by
  cases ρ with
  | ofSession s =>
      show ((w.updateSession s _).session s).router.routes = some routes
      rw [session_updateSession, if_pos ⟨rfl, h⟩]
  | alone r =>
      have hr : r < w.routers.length := h
      simp [keepTable, table, routerOf, router, keepRouterRoutes, hr]

theorem table_keepTable_of_ne (h : σ ≠ ρ) (routes : Routes) :
    (keepTable ρ routes w).table σ = w.table σ := by
  cases ρ with
  | ofSession s =>
      cases σ with
      | ofSession t =>
          have hst : s ≠ t := fun hst => h (by rw [hst])
          show ((w.updateSession s _).session t).router.routes = _
          rw [session_updateSession, if_neg fun hboth => hst hboth.1]
          rfl
      | alone r => rfl
  | alone r =>
      cases σ with
      | ofSession t => rfl
      | alone q =>
          have hrq : r ≠ q := fun hrq => h (by rw [hrq])
          simp [keepTable, table, routerOf, router, keepRouterRoutes, hrq]

theorem schema_keepTable (ρ σ : RouterId) (routes : Routes) (w : World ε) :
    ((keepTable ρ routes w).routerOf σ).schema = (w.routerOf σ).schema := by
  cases ρ with
  | ofSession s =>
      cases σ with
      | ofSession t =>
          show ((w.updateSession s _).session t).router.schema = _
          rw [session_updateSession]
          split
          next h =>
            rw [h.1]
            rfl
          next => rfl
      | alone r => rfl
  | alone r =>
      cases σ with
      | ofSession t => rfl
      | alone q =>
          simp only [keepTable, routerOf, router, keepRouterRoutes, List.getElem?_modify]
          split
          · cases w.routers[q]? <;> rfl
          · simp

/-- A new session has no table, and had none before. -/
theorem table_addSession (w : World ε) (schema : String) (ρ : RouterId) :
    (w.addSession schema).table ρ = w.table ρ := by
  cases ρ with
  | ofSession s =>
      simp only [table, routerOf, session_addSession]
      split
      next h =>
        rw [h, session_length]
        rfl
      next => rfl
  | alone r => rfl

theorem table_addRouter (w : World ε) (schema : String) (ρ : RouterId) :
    (w.addRouter schema).table ρ = w.table ρ := by
  cases ρ with
  | ofSession s => rfl
  | alone r =>
      simp only [table, routerOf, router, addRouter]
      rcases Nat.lt_trichotomy r w.routers.length with h | h | h
      · rw [List.getElem?_append_left h]
      · simp [h, Router.new]
      · rw [List.getElem?_eq_none, List.getElem?_eq_none]
        · omega
        · simp
          omega

theorem table_asking (w : World ε) (call : Nat) (qs : List Question) (ρ : RouterId) :
    (w.asking call qs).table ρ = w.table ρ := by
  cases ρ <;> rfl

end Tables

/-! ## Looking a table up -/

/-- An action that leaves sessions and routers alone. -/
def Aloof {α : Type} (a : Action (World ε) α) : Prop :=
  ∀ w, (a w).2.sessions = w.sessions ∧ (a w).2.routers = w.routers

section Lookups

variable {cluster : Cluster ε} {call : Nat} {ρ : RouterId} {w w₁ : World ε} {routes : Routes}
  {e : Error}

theorem Aloof.of_still {α : Type} {a : Action (World ε) α} (h : ∀ w, (a w).2 = w) : Aloof a := by
  intro w
  rw [h]
  exact ⟨rfl, rfl⟩

theorem Aloof.bind {α β : Type} {a : Action (World ε) α} {f : α → Action (World ε) β}
    (ha : Aloof a) (hf : ∀ x, Aloof (f x)) : Aloof (a >>= f) := by
  intro w
  have hw := ha w
  rw [Action.bind_apply]
  rcases haw : a w with ⟨r, w₁⟩
  rw [haw] at hw
  cases r with
  | error e => exact hw
  | ok x =>
      obtain ⟨hsessions, hrouters⟩ := hf x w₁
      exact ⟨hsessions.trans hw.1, hrouters.trans hw.2⟩

theorem aloof_loads (r : Registry ε) (call : Nat) :
    Loads (fun _ a => Aloof a) (r.logged call) where
  nodes := fun _ _ _ => ⟨rfl, rfl⟩
  properties := fun _ _ => ⟨rfl, rfl⟩
  users := fun _ => ⟨rfl, rfl⟩

/-- Questions, loads and pool creations change what was asked, the log and the surroundings. -/
theorem aloof_builds (cluster : Cluster ε) (call : Nat) :
    Builds (cluster.logged call) fun _ a => Aloof a where
  still := .of_still
  bind := .bind
  trafficRule := fun _ => ⟨rfl, rfl⟩
  registry := by
    intro β f hnone hsome w
    rw [registry_bind_apply]
    cases cluster.registry w.env with
    | none => exact hnone (w.ask call .registry)
    | some r => exact hsome _ (aloof_loads r call) (w.ask call .registry)
  createPool := by
    intro props w
    simp only [Cluster.logged, ExceptT.mk, stateM_bind_apply, onEnv_apply, ExceptT.run]
    cases (cluster.createPool props w.env).1 with
    | ok source => exact ⟨rfl, rfl⟩
    | error e => exact ⟨rfl, rfl⟩

theorem aloof_buildRoutes (cluster : Cluster ε) (call : Nat) (schema : String) :
    Aloof (buildRoutes (cluster.logged call) schema) :=
  (aloof_builds cluster call).buildRoutes schema

theorem aloof_candidates (cluster : Cluster ε) (call s : Nat) :
    Aloof (liftM (candidates (cluster.logged call) s) : Action (World ε) (List String)) := by
  intro w
  rw [Action.lift_apply, candidates_apply]
  split <;> exact ⟨rfl, rfl⟩

theorem lookUp_known {access : Access (World ε)} (h : w.table ρ = some routes) :
    lookUp access ρ w = (.ok routes, w) :=
  Router.resolve_known access (fun w => w.routerOf ρ) (keepTable ρ) h

theorem lookUp_unknown {access : Access (World ε)} (h : w.table ρ = none) :
    lookUp access ρ w =
      match buildRoutes access (w.routerOf ρ).schema w with
      | (.ok routes, w₁) => (.ok routes, keepTable ρ routes w₁)
      | (.error e, w₁) => (.error e, w₁) := by
  rw [lookUp, Router.resolve_unknown access (fun w => w.routerOf ρ) (keepTable ρ) h]
  rcases buildRoutes access (w.routerOf ρ).schema w with ⟨r, w₁⟩
  cases r <;> rfl

/-- A build that fails leaves every router as it was. -/
theorem lookUp_of_failed (h : w.table ρ = none)
    (hbuild : buildRoutes (cluster.logged call) (w.routerOf ρ).schema w = (.error e, w₁)) :
    lookUp (cluster.logged call) ρ w = (.error e, w₁) ∧
      w₁.sessions = w.sessions ∧ w₁.routers = w.routers := by
  have haloof := aloof_buildRoutes cluster call (w.routerOf ρ).schema w
  rw [hbuild] at haloof
  rw [lookUp_unknown h, hbuild]
  exact ⟨rfl, haloof⟩

theorem hasRouter_iff {w' : World ε} (hsessions : w'.sessions = w.sessions)
    (hrouters : w'.routers = w.routers) (ρ : RouterId) : w'.hasRouter ρ ↔ w.hasRouter ρ := by
  cases ρ with
  | ofSession s => simp only [hasRouter, hsessions]
  | alone r => simp only [hasRouter, hrouters]

/-- A build that succeeds is kept, and asking again gives what was kept. -/
theorem lookUp_of_built (hρ : w.hasRouter ρ) (h : w.table ρ = none)
    (hbuild : buildRoutes (cluster.logged call) (w.routerOf ρ).schema w = (.ok routes, w₁)) :
    lookUp (cluster.logged call) ρ w = (.ok routes, keepTable ρ routes w₁) ∧
      (keepTable ρ routes w₁).table ρ = some routes := by
  have haloof := aloof_buildRoutes cluster call (w.routerOf ρ).schema w
  rw [hbuild] at haloof
  rw [lookUp_unknown h, hbuild]
  exact ⟨rfl, table_keepTable_self ((hasRouter_iff haloof.1 haloof.2 ρ).mpr hρ) routes⟩

/-- A router that was looked up has the table that it answered with. -/
theorem table_of_lookUp (hρ : w.hasRouter ρ)
    (h : lookUp (cluster.logged call) ρ w = (.ok routes, w₁)) : w₁.table ρ = some routes := by
  cases htable : w.table ρ with
  | some known =>
      rw [lookUp_known htable] at h
      cases h
      exact htable
  | none =>
      rcases hbuild : buildRoutes (cluster.logged call) (w.routerOf ρ).schema w with ⟨r, w₂⟩
      cases r with
      | error e =>
          rw [(lookUp_of_failed htable hbuild).1] at h
          cases h
      | ok built =>
          obtain ⟨hlookUp, hkept⟩ := lookUp_of_built hρ htable hbuild
          rw [hlookUp] at h
          cases h
          exact hkept

theorem table_lookUp_of_ne {σ : RouterId} (h : σ ≠ ρ) (w : World ε) :
    (lookUp (cluster.logged call) ρ w).2.table σ = w.table σ := by
  cases htable : w.table ρ with
  | some routes => rw [lookUp_known htable]
  | none =>
      have haloof := aloof_buildRoutes cluster call (w.routerOf ρ).schema w
      rw [lookUp_unknown htable]
      rcases hbuild : buildRoutes (cluster.logged call) (w.routerOf ρ).schema w with ⟨r, w₁⟩
      rw [hbuild] at haloof
      have htables : w₁.table σ = w.table σ :=
        congrArg Router.routes (routerOf_eq haloof.1 haloof.2 σ)
      cases r with
      | error e => exact htables
      | ok routes => exact (table_keepTable_of_ne h routes).trans htables

/-- A router keeps its schema. -/
theorem schema_lookUp (ρ σ : RouterId) (w : World ε) :
    ((lookUp (cluster.logged call) ρ w).2.routerOf σ).schema = (w.routerOf σ).schema := by
  cases htable : w.table ρ with
  | some routes => rw [lookUp_known htable]
  | none =>
      have haloof := aloof_buildRoutes cluster call (w.routerOf ρ).schema w
      rw [lookUp_unknown htable]
      rcases hbuild : buildRoutes (cluster.logged call) (w.routerOf ρ).schema w with ⟨r, w₁⟩
      rw [hbuild] at haloof
      have hrouter : w₁.routerOf σ = w.routerOf σ := routerOf_eq haloof.1 haloof.2 σ
      cases r with
      | error e => exact congrArg Router.schema hrouter
      | ok routes => exact (schema_keepTable ρ σ routes w₁).trans (congrArg Router.schema hrouter)

end Lookups

end World

end SessionBroker
