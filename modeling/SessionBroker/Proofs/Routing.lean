import SessionBroker.Proofs.Carried
import SessionBroker.Proofs.Questions

/-!
# Tables are built once

A router without a table builds one whenever it is looked up, from what the cluster says there and
then. A build that fails is the outcome of the lookup and leaves no trace in any router; the first
one that succeeds is kept for good, and from then on lookups answer from it and ask the cluster for
nothing but physical sources. A session that holds connections has a table.
-/

namespace SessionBroker

/-- The router that a call looks up. -/
def Call.looksUp : Call → Option RouterId
  | .acquire s name count _ => if name = "" ∨ count = 0 then none else some (.ofSession s)
  | .isRouted s _ => some (.ofSession s)
  | .routes r | .route r _ => some (.alone r)
  | _ => none

/-- What a call that looks up a table does with it, if it does nothing else. -/
def Call.readOff (routes : Routes) : Call → Option Answer
  | .isRouted _ name => some (.flag (routes.contains name))
  | .routes _ => some (.names routes.keys)
  | .route _ name => some (.source (routes.get? name))
  | _ => none

/-- An acquisition looks the table up if its arguments pass. -/
theorem Call.looksUp_acquire {s count : Nat} {name : String} {mode : AcquisitionMode}
    {ρ : RouterId} : (Call.acquire s name count mode).looksUp = some ρ ↔
      ρ = .ofSession s ∧ name ≠ "" ∧ count ≠ 0 := by
  simp only [looksUp]
  split
  next hinvalid =>
    constructor
    · intro h
      cases h
    · exact fun h => absurd hinvalid (not_or.mpr h.2)
  next hvalid =>
    constructor
    · intro h
      cases h
      exact ⟨rfl, not_or.mp hvalid⟩
    · exact fun h => congrArg some h.1.symm

/-- A call that looks a table up reads the answer off it, or it is an acquisition. -/
theorem Call.readOff_or_acquires {c : Call} {ρ : RouterId} (hc : c.looksUp = some ρ)
    (routes : Routes) : (∃ a, c.readOff routes = some a) ∨
      ∃ s name count mode, c = .acquire s name count mode ∧
        ρ = .ofSession s ∧ name ≠ "" ∧ count ≠ 0 := by
  cases c with
  | acquire s name count mode =>
      exact .inr ⟨s, name, count, mode, rfl, looksUp_acquire.mp hc⟩
  | isRouted s name => exact .inl ⟨_, rfl⟩
  | routes r => exact .inl ⟨_, rfl⟩
  | route r name => exact .inl ⟨_, rfl⟩
  | _ => cases hc

/-- What a call that is answered from a table asks the cluster. -/
def Call.asks {ε : Type} (routes : Routes) (w : World ε) : Call → List Question
  | .acquire s name _ _ => sourceQuestions routes (w.session s).router.schema name
  | _ => []

namespace Occurrence

variable {ε : Type}

/-- The router that is looked up as the step begins. -/
def looksUp (m : Occurrence ε) : Option RouterId :=
  match m.step with
  | .call c => if Surroundings.isPossible m.begun c then c.looksUp else none
  | _ => none

/-- A build of a router's table as the step begins. -/
def build (k : Surroundings ε) (m : Occurrence ε) (ρ : RouterId) :
    Except Error Routes × World ε :=
  buildRoutes (k.cluster.logged m.number) (m.begun.routerOf ρ).schema m.begun

theorem looksUp_eq_some {m : Occurrence ε} {ρ : RouterId} (h : m.looksUp = some ρ) :
    ∃ c, m.step = .call c ∧ Surroundings.isPossible m.begun c = true ∧ c.looksUp = some ρ := by
  unfold looksUp at h
  split at h
  next c hstep =>
    split at h
    next hpossible => exact ⟨c, hstep, hpossible, h⟩
    next => cases h
  next => cases h

end Occurrence

namespace Surroundings

variable {ε : Type} {k : Surroundings ε} {sources : Sources (World ε)} {call : Nat} {w w₁ : World ε}
  {ρ : RouterId} {c : Call} {routes : Routes} {e : Error}

/-! ## One lookup -/

theorem isPossible_router {r : Nat} (hrouter : c.router? = some r) (h : isPossible w c = true) :
    r < w.routers.length := by
  simp only [isPossible, hrouter, Option.all_some, Bool.and_eq_true, decide_eq_true_eq] at h
  exact h.2

theorem isPossible_congr {w' : World ε} (hsessions : w'.sessions.length = w.sessions.length)
    (hrouters : w'.routers.length = w.routers.length) : isPossible w' c = isPossible w c := by
  simp only [isPossible, hsessions, hrouters]

theorem hasRouter_of_possible (hpossible : isPossible w c = true) (h : c.looksUp = some ρ) :
    w.hasRouter ρ := by
  cases c with
  | acquire s name count mode =>
      obtain ⟨rfl, -⟩ := Call.looksUp_acquire.mp h
      exact isPossible_session rfl hpossible
  | isRouted s name =>
      cases h
      exact isPossible_session rfl hpossible
  | routes r =>
      cases h
      exact isPossible_router rfl hpossible
  | route r name =>
      cases h
      exact isPossible_router rfl hpossible
  | _ => cases h

/-- A name is resolved by a lookup, and after that by questions alone. -/
theorem resolveSource_snd (cluster : Cluster ε) (call s : Nat) (name : String) (w : World ε) :
    ∃ qs, (World.resolveSource (cluster.logged call) s name w).2 =
      (World.lookUp (cluster.logged call) (.ofSession s) w).2.asking call qs := by
  show ∃ qs, _ = (World.resolveRoutes (cluster.logged call) s w).2.asking call qs
  rcases hroutes : World.resolveRoutes (cluster.logged call) s w with ⟨r, w₁⟩
  cases r with
  | error e => exact ⟨[], by rw [resolveSource_of_error hroutes, World.asking_nil]⟩
  | ok routes =>
      refine ⟨sourceQuestions routes (w₁.session s).router.schema name, ?_⟩
      cases hsource : sourceOf routes
        (cluster.physical w₁.env (w₁.session s).router.schema) name with
      | none => rw [resolveSource_of_none hroutes hsource]
      | some source => rw [resolveSource_of_some hroutes hsource]

/-- A call that looks up a table does so first, and goes on with the table alone. -/
theorem answer_eq_bind (hc : c.looksUp = some ρ) :
    ∃ rest, k.answer sources call c = World.lookUp (k.cluster.logged call) ρ >>= rest := by
  cases c with
  | acquire s name count mode =>
      obtain ⟨rfl, hname, hcount⟩ := Call.looksUp_acquire.mp hc
      have hnamed : name.isEmpty = false := by simpa using hname
      simp only [answer, World.acquire, World.resolveSource, hnamed, hcount, Bool.false_eq_true,
        if_false, bind_assoc]
      exact ⟨_, rfl⟩
  | isRouted s name =>
      cases hc
      exact ⟨_, rfl⟩
  | routes r =>
      cases hc
      exact ⟨_, rfl⟩
  | route r name =>
      cases hc
      exact ⟨_, rfl⟩
  | _ => cases hc

/-- A lookup that fails is the failure of the call. -/
theorem answer_of_failed (hc : c.looksUp = some ρ)
    (h : World.lookUp (k.cluster.logged call) ρ w = (.error e, w₁)) :
    k.answer sources call c w = (.error e, w₁) := by
  obtain ⟨rest, hrest⟩ := answer_eq_bind hc
  rw [hrest, Action.bind_apply, h]

/-- A lookup that succeeds could have been made before. -/
theorem answer_of_found (hc : c.looksUp = some ρ)
    (h : World.lookUp (k.cluster.logged call) ρ w = (.ok routes, w₁))
    (htable : w₁.table ρ = some routes) :
    k.answer sources call c w = k.answer sources call c w₁ := by
  obtain ⟨rest, hrest⟩ := answer_eq_bind hc
  rw [hrest, Action.bind_apply, Action.bind_apply, h, World.lookUp_known htable]

/-- A call is answered from a table. -/
structure AnsweredFrom (k : Surroundings ε) (routes : Routes) (sources : Sources (World ε))
    (call : Nat) (c : Call) (w : World ε) : Prop where
  /-- What is asked of the table alone is read off it, and nothing happens. -/
  read : ∀ a, c.readOff routes = some a → k.outcome sources call (.call c) w = (.answered a, w)
  /-- A name stands for what the table or else the physical sources say, and until then nothing
  happens but that these are asked for. -/
  resolved : ∀ s name count mode, c = .acquire s name count mode →
    World.resolveSource (k.cluster.logged call) s name w =
      ((sourceOf routes (k.cluster.physical w.env (w.session s).router.schema) name).elim
        (.error (.unknownDataSource name)) .ok, w.asking call (c.asks routes w))
  /-- No rule, no registry and no pool creation has a part in it. -/
  unasked : ∀ other : Surroundings ε, other.cluster.physical = k.cluster.physical →
    other.outcome sources call (.call c) w = k.outcome sources call (.call c) w
  /-- Whatever runs inside its attempts, the call asks nothing but for physical sources, and for
  these if the table does not have the name; it loads nothing and creates no pool. -/
  quiet : ∀ depth, sources = k.sources (k.nested depth) call → call < w.calls →
    AsksOnly call (c.asks routes w) w (k.outcome sources call (.call c) w).2

theorem resolveSource_of_known (k : Surroundings ε) {s : Nat}
    (h : (w.session s).router.routes = some routes) (call : Nat) (name : String) :
    World.resolveSource (k.cluster.logged call) s name w =
      ((sourceOf routes (k.cluster.physical w.env (w.session s).router.schema) name).elim
        (.error (.unknownDataSource name)) .ok,
        w.asking call (sourceQuestions routes (w.session s).router.schema name)) := by
  have hroutes : World.resolveRoutes (k.cluster.logged call) s w = (.ok routes, w) :=
    resolveRoutes_known h
  cases hsource : sourceOf routes (k.cluster.physical w.env (w.session s).router.schema) name with
  | none => exact resolveSource_of_none hroutes hsource
  | some source => exact resolveSource_of_some hroutes hsource

/-- What is asked of the table alone is read off it. -/
theorem answer_of_readOff {a : Answer} (hc : c.looksUp = some ρ) (htable : w.table ρ = some routes)
    (ha : c.readOff routes = some a) : k.answer sources call c w = (.ok a, w) := by
  have hlookUp : World.lookUp (k.cluster.logged call) ρ w = (.ok routes, w) :=
    World.lookUp_known htable
  cases c with
  | isRouted s name =>
      cases hc
      cases ha
      simp only [answer, Action.bind_apply]
      rw [show World.resolveRoutes (k.cluster.logged call) s w = _ from hlookUp]
      rfl
  | routes r =>
      cases hc
      cases ha
      simp only [answer, Action.bind_apply]
      rw [show Router.resolve (k.cluster.logged call) (World.router r) (World.keepRouterRoutes r) w =
        _ from hlookUp]
      rfl
  | route r name =>
      cases hc
      cases ha
      simp only [answer, Action.bind_apply]
      rw [show Router.resolve (k.cluster.logged call) (World.router r) (World.keepRouterRoutes r) w =
        _ from hlookUp]
      rfl
  | _ => cases ha

theorem answeredFrom (hpossible : isPossible w c = true) (hc : c.looksUp = some ρ)
    (htable : w.table ρ = some routes) : k.AnsweredFrom routes sources call c w where
  read := by
    intro a ha
    rw [outcome_call, if_pos hpossible, answer_of_readOff hc htable ha]
    rfl
  resolved := by
    rintro s name count mode rfl
    obtain ⟨rfl, -⟩ := Call.looksUp_acquire.mp hc
    exact resolveSource_of_known k htable call name
  unasked := by
    intro other hphysical
    rw [outcome_call, outcome_call, if_pos hpossible, if_pos hpossible]
    rcases Call.readOff_or_acquires hc routes with
      ⟨a, ha⟩ | ⟨s, name, count, mode, rfl, rfl, hname, hcount⟩
    · rw [answer_of_readOff hc htable ha, answer_of_readOff hc htable ha]
    · have hsource : World.resolveSource (other.cluster.logged call) s name w =
          World.resolveSource (k.cluster.logged call) s name w := by
        rw [resolveSource_of_known other htable, resolveSource_of_known k htable, hphysical]
      rw [answer_acquire, answer_acquire, acquire_named hname hcount, acquire_named hname hcount,
        hsource]
  quiet := by
    rintro depth rfl hcall
    rw [outcome_call, if_pos hpossible]
    rcases Call.readOff_or_acquires hc routes with
      ⟨a, ha⟩ | ⟨s, name, count, mode, rfl, rfl, hname, hcount⟩
    · have hasks : c.asks routes w = [] := by cases c <;> first | rfl | cases ha
      rw [answer_of_readOff hc htable ha, hasks]
      exact .refl call w
    · rw [answer_acquire]
      exact .asking (acquire_asksOnly hcall (Prod.eta _).symm hname hcount
        (resolveSource_of_known k htable call name))

/-! ## Lookups of a run -/

/-- What holds of a step that looks up the table of a router. -/
structure LooksUp (k : Surroundings ε) (m : Occurrence ε) (ρ : RouterId) : Prop where
  /-- A build that fails is what the step comes to, and no router is any different. -/
  failed : ∀ e w₁, m.begun.table ρ = none → m.build k ρ = (.error e, w₁) →
    m.result k = (.failed e, w₁) ∧
      w₁.sessions = m.begun.sessions ∧ w₁.routers = m.begun.routers
  /-- A build that succeeds is kept, and the step goes on as if it had been there before. -/
  built : ∀ routes w₁, m.begun.table ρ = none → m.build k ρ = (.ok routes, w₁) →
    (World.keepTable ρ routes w₁).table ρ = some routes ∧
      m.result k = k.outcome (k.sources (k.nested m.depth) m.number) m.number m.step
        (World.keepTable ρ routes w₁) ∧
      ∀ c, m.step = .call c → k.AnsweredFrom routes (k.sources (k.nested m.depth) m.number) m.number
        c (World.keepTable ρ routes w₁)
  /-- A table that is there is not built again. -/
  known : ∀ routes c, m.begun.table ρ = some routes → m.step = .call c →
    k.AnsweredFrom routes (k.sources (k.nested m.depth) m.number) m.number c m.begun

theorem possible_keepTable (haloof : w₁.sessions = w.sessions ∧ w₁.routers = w.routers)
    (hpossible : isPossible w c = true) (ρ : RouterId) (routes : Routes) :
    isPossible (World.keepTable ρ routes w₁) c = true := by
  have hsame : isPossible w₁ c = isPossible w c :=
    isPossible_congr (by rw [haloof.1]) (by rw [haloof.2])
  rw [← hpossible, ← hsame]
  cases ρ with
  | ofSession s => exact isPossible_congr (World.length_keepRoutes w₁ s routes) rfl
  | alone r => exact isPossible_congr rfl (by simp [World.keepTable, World.keepRouterRoutes])

theorem looksUp_of {m : Occurrence ε} (h : m.looksUp = some ρ) : k.LooksUp m ρ := by
  obtain ⟨c, hstep, hpossible, hc⟩ := Occurrence.looksUp_eq_some h
  have hρ := hasRouter_of_possible hpossible hc
  refine ⟨?_, ?_, ?_⟩
  · intro e w₁ htable hbuild
    obtain ⟨hlookUp, haloof⟩ := World.lookUp_of_failed htable hbuild
    refine ⟨?_, haloof⟩
    rw [Occurrence.result, hstep, outcome_call, if_pos hpossible, answer_of_failed hc hlookUp]
    rfl
  · intro routes w₁ htable hbuild
    obtain ⟨hlookUp, hkept⟩ := World.lookUp_of_built hρ htable hbuild
    have haloof := World.aloof_buildRoutes k.cluster m.number (m.begun.routerOf ρ).schema m.begun
    rw [show buildRoutes _ _ _ = _ from hbuild] at haloof
    have hpossible' := possible_keepTable haloof hpossible ρ routes
    refine ⟨hkept, ?_, ?_⟩
    · rw [Occurrence.result, hstep, outcome_call, outcome_call, if_pos hpossible, if_pos hpossible',
        answer_of_found hc hlookUp hkept]
    · intro c' hstep'
      cases hstep.symm.trans hstep'
      exact answeredFrom hpossible' hc hkept
  · intro routes c' htable hstep'
    cases hstep.symm.trans hstep'
    exact answeredFrom hpossible hc htable

theorem readOff_of_inspects (hc : c.looksUp = some ρ) (hinspects : c.inspects = true)
    (routes : Routes) : ∃ a, c.readOff routes = some a := by
  refine (Call.readOff_or_acquires hc routes).resolve_right ?_
  rintro ⟨s, name, count, mode, rfl, -⟩
  cases hinspects

/-- A call that does nothing but look a table up. -/
theorem answer_snd_of_inspects (hρ : w.hasRouter ρ) (hc : c.looksUp = some ρ)
    (hinspects : c.inspects = true) :
    (k.answer sources call c w).2 = (World.lookUp (k.cluster.logged call) ρ w).2 := by
  rcases hlookUp : World.lookUp (k.cluster.logged call) ρ w with ⟨r, w₁⟩
  cases r with
  | error e => rw [answer_of_failed hc hlookUp]
  | ok routes =>
      have htable := World.table_of_lookUp hρ hlookUp
      obtain ⟨a, ha⟩ := readOff_of_inspects hc hinspects routes
      rw [answer_of_found hc hlookUp htable, answer_of_readOff hc htable ha]

/-- Until its attempts a step that looks a table up does nothing else, but for questions. -/
theorem ready_of_looksUp {m : Occurrence ε} (h : m.looksUp = some ρ) :
    ∃ qs, m.ready k =
      (World.lookUp (k.cluster.logged m.number) ρ m.begun).2.asking m.number qs := by
  obtain ⟨c, hstep, hpossible, hc⟩ := Occurrence.looksUp_eq_some h
  rw [Occurrence.ready, hstep]
  by_cases hinspects : c.inspects = true
  · refine ⟨[], ?_⟩
    rw [ready_inspects hpossible hinspects, World.asking_nil]
    exact answer_snd_of_inspects (hasRouter_of_possible hpossible hc) hc hinspects
  · cases c with
    | acquire s name count mode =>
        obtain ⟨rfl, hvalid⟩ := Call.looksUp_acquire.mp hc
        rw [ready_acquire hpossible, if_neg (not_or.mpr hvalid)]
        exact resolveSource_snd k.cluster m.number s name m.begun
    | release s => cases hc
    | _ => exact absurd rfl hinspects

theorem table_ready_of_looksUp {m : Occurrence ε} (h : m.looksUp = some ρ) (σ : RouterId) :
    (m.ready k).table σ = (World.lookUp (k.cluster.logged m.number) ρ m.begun).2.table σ := by
  obtain ⟨qs, hready⟩ := ready_of_looksUp (k := k) h
  rw [hready, World.table_asking]

/-- What inspects without looking a table up changes none. -/
theorem table_answer (hinspects : c.inspects = true) (hc : c.looksUp = none) (w : World ε)
    (ρ : RouterId) : (k.answer sources call c w).2.table ρ = w.table ρ := by
  have haloof : ∀ {a : Action (World ε) Answer}, World.Aloof a → (a w).2.table ρ = w.table ρ :=
    fun ha => congrArg Router.routes (World.routerOf_eq (ha w).1 (ha w).2 ρ)
  have hbuilds := World.aloof_builds k.cluster call
  cases c with
  | newSession schema => exact World.table_addSession w schema ρ
  | newRouter schema => exact World.table_addRouter w schema ρ
  | createPools props =>
      exact haloof ((hbuilds.createPools props).bind fun _ => .of_still fun _ => rfl)
  | storedProperties schema =>
      exact haloof (hbuilds.registry (.of_still fun _ => rfl) fun r hloads =>
        (hloads.properties schema).bind fun _ => .of_still fun _ => rfl)
  | storedNodes kind labels =>
      exact haloof (hbuilds.registry (.of_still fun _ => rfl) fun r hloads =>
        (hloads.nodes kind labels).bind fun _ => .of_still fun _ => rfl)
  | storedUsers =>
      exact haloof (hbuilds.registry (.of_still fun _ => rfl) fun r hloads =>
        hloads.users.bind fun _ => .of_still fun _ => rfl)
  | choices s =>
      exact haloof ((World.aloof_candidates k.cluster call s).bind fun _ => .of_still fun _ => rfl)
  | acquire => cases hinspects
  | release => cases hinspects
  | isRouted => cases hc
  | routes => cases hc
  | route => cases hc
  | _ => rfl

/-- Until its attempts a step changes the table of the router that it looks up, and no other. -/
theorem table_ready_of_ne {m : Occurrence ε} (h : m.looksUp ≠ some ρ) :
    (m.ready k).table ρ = m.begun.table ρ := by
  cases hlooks : m.looksUp with
  | some σ =>
      have hne : ρ ≠ σ := by
        rintro rfl
        exact h hlooks
      rw [table_ready_of_looksUp hlooks]
      exact World.table_lookUp_of_ne hne m.begun
  | none =>
      unfold Occurrence.ready
      cases hstep : m.step with
      | outside a => rfl
      | closeConnection find => rfl
      | call c =>
          by_cases hpossible : isPossible m.begun c = true
          · have hc : c.looksUp = none := by
              simpa only [Occurrence.looksUp, hstep, if_pos hpossible] using hlooks
            by_cases hinspects : c.inspects = true
            · rw [ready_inspects hpossible hinspects]
              exact table_answer hinspects hc m.begun ρ
            · cases c with
              | acquire s name count mode =>
                  simp only [Call.looksUp] at hc
                  split at hc
                  next hinvalid => rw [ready_acquire hpossible, if_pos hinvalid]
                  next => cases hc
              | release s => rw [ready_release]
              | _ => exact absurd rfl hinspects
          · rw [ready_impossible hpossible]

/-- Until its attempts a step leaves alone what is held. -/
theorem holdings_ready (k : Surroundings ε) (m : Occurrence ε) (t : Nat) :
    ((m.ready k).session t).holdings = (m.begun.session t).holdings := by
  have hnumber : m.number < m.begun.calls := Nat.lt_succ_self _
  unfold Occurrence.ready
  cases hstep : m.step with
  | outside a => rfl
  | closeConnection find => rfl
  | call c =>
      by_cases hpossible : isPossible m.begun c = true
      · by_cases hinspects : c.inspects = true
        · rw [ready_inspects hpossible hinspects]
          exact ((looks_answer hinspects).onlyLooks hnumber).held_eq t
        · cases c with
          | acquire s name count mode =>
              rw [ready_acquire hpossible]
              split
              · rfl
              · exact (onlyLooks_resolve hnumber rfl).held_eq t
          | release s => rw [ready_release]
          | _ => exact absurd rfl hinspects
      · rw [ready_impossible hpossible]

/-! ## Tables along a run -/

/-- A session that holds connections, under whatever name, has a table. -/
def Seated (w : World ε) : Prop :=
  ∀ s, (w.session s).holdings.names ≠ [] → (w.table (.ofSession s)).isSome

/-- A step that finds no table and leaves none: if it looks it up, the build fails. -/
def Unbuilt (k : Surroundings ε) (ρ : RouterId) (m : Occurrence ε) : Prop :=
  m.world.table ρ = none ∧ (m.looksUp = some ρ → ∃ e w₁, m.build k ρ = (.error e, w₁))

/-- The tables from the world `w` on, to the world `w'`: none is there until the first lookup that
builds one, and that one is there from then on. -/
def BuiltOnce (k : Surroundings ε) (ρ : RouterId) (ms : List (Occurrence ε)) (w' : World ε) : Prop :=
  (∀ m ∈ ms, k.Unbuilt ρ m) ∧ w'.table ρ = none ∨
    ∃ pre m post routes, ms = pre ++ m :: post ∧ (∀ x ∈ pre, k.Unbuilt ρ x) ∧
      m.world.table ρ = none ∧ m.looksUp = some ρ ∧ (∃ w₁, m.build k ρ = (.ok routes, w₁)) ∧
      (∀ x ∈ post, x.world.table ρ = some routes) ∧
      (∀ x ∈ m :: post, (x.after k).table ρ = some routes) ∧ w'.table ρ = some routes

/-- How the tables are carried along. -/
structure Charted (k : Surroundings ε) (w : World ε) (ms : List (Occurrence ε)) (w' : World ε) :
    Prop where
  frozen : ∀ ρ routes, w.table ρ = some routes →
    (∀ m ∈ ms, m.world.table ρ = some routes ∧ (m.after k).table ρ = some routes) ∧
      w'.table ρ = some routes
  once : ∀ ρ, w.table ρ = none → k.BuiltOnce ρ ms w'
  seated : Seated w → (∀ m ∈ ms, Seated m.world ∧ Seated (m.after k)) ∧ Seated w'

section Charts

variable {w' : World ε} {ms ms' : List (Occurrence ε)}

theorem BuiltOnce.trans (h : k.BuiltOnce ρ ms w₁) (h' : k.Charted w₁ ms' w') :
    k.BuiltOnce ρ (ms ++ ms') w' := by
  rcases h with ⟨hms, hnone⟩ |
    ⟨pre, m, post, routes, rfl, hpre, hworld, hlooks, hbuild, hpost, hafter, hsome⟩
  · rcases h'.once ρ hnone with ⟨hms', hnone'⟩ |
      ⟨pre, m, post, routes, rfl, hpre, hrest⟩
    · refine .inl ⟨fun m hm => ?_, hnone'⟩
      exact (List.mem_append.mp hm).elim (hms m) (hms' m)
    · refine .inr ⟨ms ++ pre, m, post, routes, (List.append_assoc _ _ _).symm, fun x hx => ?_, hrest⟩
      exact (List.mem_append.mp hx).elim (hms x) (hpre x)
  · obtain ⟨hms', hsome'⟩ := h'.frozen ρ routes hsome
    refine .inr ⟨pre, m, post ++ ms', routes, by simp, hpre, hworld, hlooks, hbuild, ?_, ?_, hsome'⟩
    · intro x hx
      exact (List.mem_append.mp hx).elim (hpost x) fun hx => (hms' x hx).1
    · intro x hx
      rcases List.mem_cons.mp hx with rfl | hx
      · exact hafter x List.mem_cons_self
      · exact (List.mem_append.mp hx).elim (fun hx => hafter x (List.mem_cons_of_mem m hx))
          fun hx => (hms' x hx).2

/-- A table that a step finds was built by a step of the run. -/
theorem BuiltOnce.built_of_found (h : k.BuiltOnce ρ ms w') {m : Occurrence ε} (hm : m ∈ ms)
    (htable : m.world.table ρ = some routes) :
    ∃ x ∈ ms, x.looksUp = some ρ ∧ ∃ w₁, x.build k ρ = (.ok routes, w₁) := by
  rcases h with ⟨hms, -⟩ | ⟨pre, x, post, built, rfl, hpre, hworld, hlooks, hbuild, hpost, -⟩
  · cases htable.symm.trans (hms m hm).1
  · have hx : x ∈ pre ++ x :: post := List.mem_append_right _ List.mem_cons_self
    rcases List.mem_append.mp hm with hm | hm
    · cases htable.symm.trans (hpre m hm).1
    · rcases List.mem_cons.mp hm with rfl | hm
      · cases htable.symm.trans hworld
      · cases htable.symm.trans (hpost m hm)
        exact ⟨x, hx, hlooks, hbuild⟩

theorem Charted.trans (h : k.Charted w ms w₁) (h' : k.Charted w₁ ms' w') :
    k.Charted w (ms ++ ms') w' where
  frozen := by
    intro ρ routes hsome
    obtain ⟨hms, hsome₁⟩ := h.frozen ρ routes hsome
    obtain ⟨hms', hsome'⟩ := h'.frozen ρ routes hsome₁
    exact ⟨fun m hm => (List.mem_append.mp hm).elim (hms m) (hms' m), hsome'⟩
  once := fun ρ hnone => (h.once ρ hnone).trans h'
  seated := by
    intro hw
    obtain ⟨hms, hw₁⟩ := h.seated hw
    obtain ⟨hms', hw'⟩ := h'.seated hw₁
    exact ⟨fun m hm => (List.mem_append.mp hm).elim (hms m) (hms' m), hw'⟩

/-- A change that no table shows. -/
theorem Charted.of_still (htable : ∀ ρ, w'.table ρ = w.table ρ) (hseated : Seated w → Seated w') :
    k.Charted w [] w' where
  frozen := fun ρ routes hsome => ⟨by simp, (htable ρ).trans hsome⟩
  once := fun ρ hnone => .inl ⟨by simp, (htable ρ).trans hnone⟩
  seated := fun hw => ⟨by simp, hseated hw⟩

theorem table_eq_of_undisturbed (h : w.Undisturbed w') (ρ : RouterId) : w'.table ρ = w.table ρ := by
  cases ρ with
  | ofSession s => exact congrArg Router.routes (h.router_eq s)
  | alone r =>
      simp only [World.table, World.routerOf, World.router, h.routers_eq]

theorem Seated.of_undisturbed (h : w.Undisturbed w') (hw : Seated w) : Seated w' := by
  intro s hnames
  rw [table_eq_of_undisturbed h]
  refine hw s fun hnil => hnames ?_
  exact List.eq_nil_of_subset_nil (hnil ▸ h.names_subset s)

theorem table_keep (w : World ε) (call s : Nat) (name : String) (batch : List Connection)
    (ρ : RouterId) : (w.keep call s name batch).table ρ = w.table ρ := by
  cases ρ with
  | ofSession t =>
      show ((w.updateSession s _).session t).router.routes = _
      rw [World.session_updateSession]
      split
      next h =>
        rw [h.1]
        rfl
      next => rfl
  | alone r => rfl

/-- A session that has a table may hold connections. -/
theorem Seated.keep {s : Nat} {name : String} {batch : List Connection} (hw : Seated w)
    (hs : s < w.sessions.length) (htable : (w.table (.ofSession s)).isSome) :
    Seated (w.keep call s name batch) := by
  intro t hnames
  rw [table_keep]
  by_cases ht : t = s
  · rwa [ht]
  · rw [holdings_keep_of_ne hs ht] at hnames
    exact hw t hnames

theorem table_after (m : Occurrence ε) (ρ : RouterId) :
    (m.after k).table ρ = (m.result k).2.table ρ := by
  rw [m.after_eq]
  rfl

/-- A table that is there is still there when the step is ready. -/
theorem table_ready_of_known {m : Occurrence ε} (h : m.world.table ρ = some routes) :
    (m.ready k).table ρ = some routes := by
  by_cases hlooks : m.looksUp = some ρ
  · rw [table_ready_of_looksUp hlooks, World.lookUp_known (w := m.begun) h]
    exact h
  · rw [table_ready_of_ne hlooks]
    exact h

theorem Seated.ready {m : Occurrence ε} (hw : Seated m.world) : Seated (m.ready k) := by
  intro s hnames
  rw [holdings_ready] at hnames
  obtain ⟨routes, hroutes⟩ := Option.isSome_iff_exists.mp (hw s hnames)
  rw [table_ready_of_known hroutes]
  rfl

theorem table_ready_of_unbuilt {m : Occurrence ε} (h : k.Unbuilt ρ m) :
    (m.ready k).table ρ = none := by
  by_cases hlooks : m.looksUp = some ρ
  · obtain ⟨e, w₁, hbuild⟩ := h.2 hlooks
    obtain ⟨hlookUp, hsessions, hrouters⟩ := World.lookUp_of_failed (w := m.begun) h.1 hbuild
    rw [table_ready_of_looksUp hlooks, hlookUp]
    exact (congrArg Router.routes (World.routerOf_eq hsessions hrouters ρ)).trans h.1
  · exact (table_ready_of_ne hlooks).trans h.1

theorem table_ready_of_built {m : Occurrence ε} (hlooks : m.looksUp = some ρ)
    (hnone : m.world.table ρ = none) (hbuild : m.build k ρ = (.ok routes, w₁)) :
    (m.ready k).table ρ = some routes := by
  obtain ⟨c, hstep, hpossible, hc⟩ := Occurrence.looksUp_eq_some hlooks
  obtain ⟨hlookUp, hkept⟩ :=
    World.lookUp_of_built (hasRouter_of_possible hpossible hc) hnone hbuild
  rw [table_ready_of_looksUp hlooks, hlookUp]
  exact hkept

/-- The step lemma of `once`: it is the lookup of the step itself that builds the table, or none
does before the steps inside. -/
theorem BuiltOnce.enclose {m : Occurrence ε} (h : k.Charted (m.ready k) ms (m.result k).2)
    (hnone : m.world.table ρ = none) : k.BuiltOnce ρ (m :: ms) (m.after k) := by
  have hunbuilt : k.Unbuilt ρ m → k.BuiltOnce ρ (m :: ms) (m.after k) := by
    intro hm
    rcases h.once ρ (table_ready_of_unbuilt hm) with ⟨hms, hresult⟩ |
      ⟨pre, m', post, routes, rfl, hpre, hrest⟩
    · exact .inl ⟨List.forall_mem_cons.mpr ⟨hm, hms⟩, by rwa [table_after]⟩
    · refine .inr ⟨m :: pre, m', post, routes, rfl, List.forall_mem_cons.mpr ⟨hm, hpre⟩, ?_⟩
      rwa [table_after]
  by_cases hlooks : m.looksUp = some ρ
  · rcases hbuild : m.build k ρ with ⟨r, w₁⟩
    cases r with
    | error e => exact hunbuilt ⟨hnone, fun _ => ⟨e, w₁, hbuild⟩⟩
    | ok routes =>
        obtain ⟨hms, hresult⟩ := h.frozen ρ routes (table_ready_of_built hlooks hnone hbuild)
        have hafter : (m.after k).table ρ = some routes := by rwa [table_after]
        exact .inr ⟨[], m, ms, routes, rfl, by simp, hnone, hlooks, ⟨w₁, hbuild⟩,
          fun x hx => (hms x hx).1, List.forall_mem_cons.mpr ⟨hafter, fun x hx => (hms x hx).2⟩,
          hafter⟩
  · exact hunbuilt ⟨hnone, fun h => absurd h hlooks⟩

/-- The table that a step has when it is ready is the table in the end. -/
theorem BuiltOnce.table_of_ready (h : k.BuiltOnce ρ ms w') {m : Occurrence ε} (hm : m ∈ ms)
    (hready : (m.ready k).table ρ = some routes) : w'.table ρ = some routes := by
  rcases h with ⟨hms, -⟩ |
    ⟨pre, x, post, built, rfl, hpre, hworld, hlooks, ⟨w₁, hbuild⟩, hpost, -, hsome⟩
  · cases (table_ready_of_unbuilt (hms m hm)).symm.trans hready
  · rw [hsome]
    rcases List.mem_append.mp hm with hm | hm
    · cases (table_ready_of_unbuilt (hpre m hm)).symm.trans hready
    · rcases List.mem_cons.mp hm with rfl | hm
      · rw [← hready, table_ready_of_built hlooks hworld hbuild]
      · rw [← hready, table_ready_of_known (hpost m hm)]

theorem Charted.enclose {m : Occurrence ε} (h : k.Charted (m.ready k) ms (m.result k).2) :
    k.Charted m.world (m :: ms) (m.after k) where
  frozen := by
    intro ρ routes hsome
    obtain ⟨hms, hresult⟩ := h.frozen ρ routes (table_ready_of_known hsome)
    have hafter : (m.after k).table ρ = some routes := by rwa [table_after]
    exact ⟨List.forall_mem_cons.mpr ⟨⟨hsome, hafter⟩, hms⟩, hafter⟩
  once := fun ρ hnone => .enclose h hnone
  seated := by
    intro hw
    obtain ⟨hms, hresult⟩ := h.seated hw.ready
    have hafter : Seated (m.after k) := by
      rw [m.after_eq]
      exact hresult
    exact ⟨List.forall_mem_cons.mpr ⟨⟨hw, hafter⟩, hms⟩, hafter⟩

theorem carried_charted (k : Surroundings ε) : k.Carried (fun _ => True) k.Charted where
  refl := fun w => .of_still (fun _ => rfl) id
  trans := .trans
  move := fun _ hstill => .of_still (table_eq_of_undisturbed hstill) (.of_undisturbed hstill)
  kept := by
    intro w ms w' call s name batch h hs hknown
    obtain ⟨routes, hroutes⟩ := Option.isSome_iff_exists.mp hknown
    have hsome : (w'.table (.ofSession s)).isSome := by
      rw [(h.frozen (.ofSession s) routes hroutes).2]
      rfl
    have hkept : k.Charted w' [] (w'.keep call s name batch) :=
      .of_still (table_keep w' call s name batch) fun hw => hw.keep hs hsome
    have hboth := h.trans hkept
    rwa [List.append_nil] at hboth
  step := fun _ h => h.enclose

theorem builtOnce_run (k : Surroundings ε) (depth : Nat) (steps : List (Step ε)) (env : ε)
    (ρ : RouterId) :
    k.BuiltOnce ρ (k.tourRun depth steps (.new env)) (k.run depth steps (.new env)) := by
  have hcharted : k.Charted (.new env) (k.tourRun depth steps (.new env)) _ :=
    carried_run (carried_charted k) (fun _ _ => trivial) depth (fun _ _ => trivial) (.new env)
  refine hcharted.once ρ ?_
  cases ρ <;> rfl

/-- A table that is there when a step has ended stays. -/
theorem carried_frozen (k : Surroundings ε) : k.Carried (fun _ => True) fun w ms w' =>
    k.Charted w ms w' ∧ ∀ m ∈ ms, ∀ ρ routes, (m.after k).table ρ = some routes →
      w'.table ρ = some routes where
  refl := fun w => ⟨(carried_charted k).refl w, by simp⟩
  trans := by
    rintro w w₁ w' ms ms' ⟨h, hms⟩ ⟨h', hms'⟩
    refine ⟨h.trans h', fun m hm ρ routes hafter => ?_⟩
    rcases List.mem_append.mp hm with hm | hm
    · exact (h'.frozen ρ routes (hms m hm ρ routes hafter)).2
    · exact hms' m hm ρ routes hafter
  move := fun hmove hstill => ⟨(carried_charted k).move hmove hstill, by simp⟩
  kept := by
    rintro w ms w' call s name batch ⟨h, hms⟩ hs hknown
    refine ⟨(carried_charted k).kept h hs hknown, fun m hm ρ routes hafter => ?_⟩
    rw [table_keep]
    exact hms m hm ρ routes hafter
  step := by
    rintro m ms _ ⟨h, hms⟩
    refine ⟨h.enclose, fun x hx ρ routes hafter => ?_⟩
    rcases List.mem_cons.mp hx with rfl | hx
    · exact hafter
    · rw [table_after]
      exact hms x hx ρ routes hafter

end Charts

end Surroundings

/-! ## Main result -/

/-- What holds of the tables in a run that visits `ms` and ends in `w'`. -/
structure TablesOnce {ε : Type} (k : Surroundings ε) (ms : List (Occurrence ε)) (w' : World ε) :
    Prop where
  /-- A lookup builds if there is no table, and answers from the table if there is one. -/
  lookups : ∀ m ∈ ms, ∀ ρ, m.looksUp = some ρ → k.LooksUp m ρ
  /-- For every router the first build that succeeds is the last build. -/
  once : ∀ ρ, k.BuiltOnce ρ ms w'
  /-- Sessions that hold connections have tables, at the beginning and at the end of every step. -/
  seated : (∀ m ∈ ms, Surroundings.Seated m.world ∧ Surroundings.Seated (m.after k)) ∧
    Surroundings.Seated w'

/-- Route tables are built at most once and then stay, whatever the cluster does in the meantime. -/
theorem tables_built_once {ε : Type} (k : Surroundings ε) (depth : Nat) (steps : List (Step ε))
    (env : ε) :
    k.Accounted (.new env) (k.tourRun depth steps (.new env)) (k.run depth steps (.new env)) ∧
      TablesOnce k (k.tourRun depth steps (.new env)) (k.run depth steps (.new env)) := by
  have hnone : ∀ ρ, (World.new env).table ρ = none := by
    intro ρ
    cases ρ with
    | ofSession s => rfl
    | alone r => rfl
  have hseated : Surroundings.Seated (World.new env) := fun s hnames => absurd rfl hnames
  have hcharted : k.Charted (World.new env) (k.tourRun depth steps (World.new env))
      (k.run depth steps (World.new env)) :=
    Surroundings.carried_run (Surroundings.carried_charted k) (fun _ _ => trivial) depth
      (fun _ _ => trivial) (World.new env)
  refine ⟨k.accounted_run depth steps (.new env), ?_, ?_, hcharted.seated hseated⟩
  · exact fun m _ ρ hlooks => Surroundings.looksUp_of hlooks
  · exact fun ρ => hcharted.once ρ (hnone ρ)

/-- A table routes to a node, and then the traffic rule is taken back. The session is still served
from its table, and nothing more is asked for it; a session that is new then has an empty table. -/
example :
    let stage : Stage :=
      ⟨[.new "ds" .plain], [], 0, .scripted (.ofList [("s", ["ds"])]) (some ⟨["x"]⟩)
        (some ⟨.ofList [("s", .ofList [("ds", ⟨"p", .ofList [("jdbcUrl", .string "j://h/d")]⟩)])],
          [⟨⟨.proxy, "n@1"⟩, ["x"]⟩], [⟨⟨"u", "%"⟩, ""⟩], none, none, none⟩)⟩
    let after := fun steps : List Stage.Instruction =>
      Stage.surroundings.run 0 (steps.map Stage.Instruction.step) (.new stage)
    let built : List Stage.Instruction := [.call (.newSession "s"), .call (.isRouted 0 "n@1")]
    let w := after built
    let w' := after (built ++ [.change ⟨some none, none, none, none⟩,
      .call (.acquire 0 "n@1" 1 .memoryStrictly), .call (.newSession "s"),
      .call (.isRouted 1 "n@1")])
    (w.table (.ofSession 0)).map OrderedMap.entries = some [("n@1", 1)] ∧
      (w'.table (.ofSession 0)).map OrderedMap.entries = some [("n@1", 1)] ∧
      w'.heldFor 0 "n@1" = [⟨1, 0⟩] ∧
      (w'.table (.ofSession 1)).map OrderedMap.entries = some [] ∧
      w.inquiries.toList = [⟨1, .trafficRule⟩, ⟨1, .registry⟩] ∧
      w'.inquiries.toList = w.inquiries.toList ++ [⟨5, .trafficRule⟩] := by
  decide +kernel

end SessionBroker
