import SessionBroker.Proofs.Deployment
import SessionBroker.Proofs.Growth
import SessionBroker.Proofs.Ledger

/-!
# Where connections come from

What a session holds under a name, and what an acquisition of the name hands out, was opened by an
acquisition of this name in this session. It comes from the source that the name stands for: in a
table that is there before the first connection and never changes, or else among the physical
sources. So there is one source for a name, as long as the physical sources of the schema stay.
-/

namespace SessionBroker

/-! ## Openers -/

/-- An acquisition of a name in a session opened the connection from a source. -/
def OpenedFor (es : List Entry) (s : Nat) (name : String) (source : SourceId) (c : Connection) :
    Prop :=
  ∃ n count mode, ⟨n, .begun (some (.acquire s name count mode))⟩ ∈ es ∧ ⟨n, .opened source c⟩ ∈ es

theorem OpenedFor.mono {es es' : List Entry} {s : Nat} {name : String} {source : SourceId}
    {c : Connection} (h : OpenedFor es s name source c) (hle : es <+: es') :
    OpenedFor es' s name source c := by
  obtain ⟨n, count, mode, hbegun, hopened⟩ := h
  exact ⟨n, count, mode, hle.subset hbegun, hle.subset hopened⟩

namespace World.Settled

variable {ε : Type} {w : World ε} {s t : Nat} {name other : String} {source source' : SourceId}
  {c : Connection}

/-- What is held under a name was opened for it. -/
theorem openedFor_of_held (h : w.Settled) {pre : List Entry} (hle : pre <+: w.log.toList)
    (hc : c ∈ (replay s .empty pre).heldFor name) : ∃ source, OpenedFor pre s name source c := by
  obtain ⟨post, heq⟩ := hle
  obtain ⟨n, batch, hkept, hbatch⟩ := (mem_heldFor_replay hc).resolve_left (by simp)
  obtain ⟨first, last, rfl⟩ := List.append_of_mem hkept
  rw [List.append_assoc, List.cons_append] at heq
  have hmem : ⟨n, .kept s name batch⟩ ∈ w.log.toList := by simp [← heq]
  obtain ⟨call, body, o, view, ht⟩ := h.transcript hmem
  obtain ⟨before, after, hbody, hbefore⟩ := ht.split heq.symm rfl
  have hjoins : .kept s name batch ∈ body := by simp [hbody]
  obtain ⟨count, rfl⟩ := ht.script.acquires_of_kept hjoins
  -- the events of the call before the batch joins
  have hown : ∀ e ∈ Event.begun (some (.acquire s name count .memoryStrictly)) :: before,
      ⟨n, e⟩ ∈ first ++ ⟨n, .kept s name batch⟩ :: last := by
    intro e he
    rw [← hbefore, mem_eventsOf] at he
    exact List.mem_append_left _ he
  obtain ⟨e, he, hce⟩ := List.mem_flatMap.mp (ht.script.opened_before_kept hbody hbatch)
  cases e with
  | opened source d =>
      cases List.mem_singleton.mp hce
      exact ⟨source, n, count, _, hown _ List.mem_cons_self, hown _ (List.mem_cons_of_mem _ he)⟩
  | _ => cases hce

/-- No two acquisitions open the same connection. -/
theorem openedFor_unique (h : w.Settled) (hfresh : (gather Event.opens w.log.toList).Nodup)
    (hopened : OpenedFor w.log.toList s name source c)
    (hopened' : OpenedFor w.log.toList t other source' c) : t = s ∧ other = name := by
  obtain ⟨n, count, mode, hbegun, he⟩ := hopened
  obtain ⟨n', count', mode', hbegun', he'⟩ := hopened'
  cases opener_unique hfresh he he'
  obtain ⟨call, body, o, view, ht⟩ := h.transcript he
  cases (ht.begun_eq hbegun).trans (ht.begun_eq hbegun').symm
  exact ⟨rfl, rfl⟩

end World.Settled

/-! ## Sources -/

/-- A name stands for a source in a session: one of its table, or else a physical one. -/
def World.StandsFor {ε : Type} (w : World ε) (physical : SourceMap) (s : Nat) (name : String)
    (source : SourceId) : Prop :=
  ∃ routes, w.table (.ofSession s) = some routes ∧ sourceOf routes physical name = some source

namespace Surroundings

variable {ε : Type} {k : Surroundings ε} {depth call s count : Nat} {name : String}
  {mode : AcquisitionMode} {w w' : World ε} {source : SourceId} {c : Connection}

/-- An acquisition opens from the source that its name was resolved to. -/
theorem resolved_of_acquire (hcall : call < w.calls) {r : Except Error (List Connection)}
    (h : World.acquire (k.cluster.logged call) (k.sources (k.nested depth) call) call s name count
      mode w = (r, w'))
    (hopened : .opened source c ∈ eventsOf call (w.since w')) :
    name ≠ "" ∧ count ≠ 0 ∧
      ∃ w₁, World.resolveSource (k.cluster.logged call) s name w = (.ok source, w₁) := by
  have hquiet : ∀ {new : List Entry}, (∀ e ∈ eventsOf call new, e.isLookup = true) →
      .opened source c ∉ eventsOf call new := fun hlooks he => by cases hlooks _ he
  have hbatch : ∀ {source' opened}, .opened source c ∈ openingEvents source' opened →
      source' = source := by
    intro source' opened he
    rcases mem_openingEvents he with heq | ⟨d, heq⟩
    · cases heq
    · cases heq
      rfl
  cases acquires h with
  | unnamed =>
      rw [since_self] at hopened
      cases hopened
  | uncounted =>
      rw [since_self] at hopened
      cases hopened
  | unresolved _ _ hsource =>
      obtain ⟨new, hnew, hlooks⟩ := stretch_resolve hcall hsource
      rw [since_eq hnew.log_eq] at hopened
      exact absurd hopened (hquiet hlooks)
  | reused _ _ hsource =>
      obtain ⟨new, hnew, hlooks⟩ := stretch_resolve hcall hsource
      rw [since_eq hnew.log_eq] at hopened
      exact absurd hopened (hquiet hlooks)
  | rolledBack hname hcount hsource _ hopen hclose =>
      obtain ⟨new, hnew, hlooks⟩ := stretch_resolve hcall hsource
      obtain ⟨new', hnew', hown⟩ :=
        stretch_rolledBack (Nat.lt_of_lt_of_le hcall hnew.calls_le) hopen hclose
      rw [since_eq (hnew.append hcall hnew').log_eq, eventsOf_append, hown] at hopened
      have hattempt := (List.mem_append.mp hopened).resolve_left (hquiet hlooks)
      rcases List.mem_append.mp hattempt with he | he
      · rcases List.mem_append.mp he with he | he
        · cases hbatch he
          exact ⟨hname, hcount, _, hsource⟩
        · simp at he
      · rcases mem_closingEvents he with ⟨d, heq | heq | heq⟩ <;> cases heq
  | @opened _ _ source' _ hname hcount hsource _ _ hopen =>
      obtain ⟨new, hnew, hlooks⟩ := stretch_resolve hcall hsource
      obtain ⟨new', hnew', hown⟩ := stretch_opens (Nat.lt_of_lt_of_le hcall hnew.calls_le) hopen
      rw [map_ok_flatMap] at hown
      rw [since_eq (log_kept (hnew.append hcall hnew').log_eq mode call s name _), eventsOf_append,
        eventsOf_append, hown] at hopened
      have hsame : source' = source := by
        rcases List.mem_append.mp hopened with he | he
        · exact hbatch ((List.mem_append.mp he).resolve_left (hquiet hlooks))
        · cases mode <;> simp [AcquisitionMode.keepsNew, eventsOf] at he
      rw [← hsame]
      exact ⟨hname, hcount, _, hsource⟩

theorem step_of_call? {step : Step ε} {c : Call} (h : call? step = some c) : step = .call c := by
  cases step with
  | call c' =>
      cases h
      rfl
  | _ => cases h

/-- A step that opens a connection for a name has looked up the table of the session, and found the
source there or among the physical ones. -/
theorem looksUp_of_opened {m : Occurrence ε} (hstep : m.step = .call (.acquire s name count mode))
    (hopened : ⟨m.number, .opened source c⟩ ∈ m.world.since (m.after k)) :
    m.looksUp = some (.ofSession s) ∧ (m.ready k).StandsFor
      (k.cluster.physical (m.ready k).env ((m.ready k).session s).router.schema) s name source := by
  have hown := Occurrence.mem_own_of_since rfl hopened
  rw [Occurrence.result, hstep, outcome_call] at hown
  by_cases hpossible : isPossible m.begun (.acquire s name count mode) = true
  · rw [if_pos hpossible, answer_acquire] at hown
    obtain ⟨hname, hcount, w₁, hsource⟩ :=
      resolved_of_acquire (Nat.lt_succ_self m.number) (Prod.eta _).symm hown
    have hvalid : ¬ (name = "" ∨ count = 0) := fun h => h.elim hname hcount
    have hready : m.ready k = w₁ := by
      rw [Occurrence.ready, hstep, ready_acquire hpossible, if_neg hvalid, hsource]
    obtain ⟨routes, w₀, hroutes, hsome, rfl⟩ := resolveSource_ok hsource
    refine ⟨?_, routes, ?_, ?_⟩
    · simp only [Occurrence.looksUp, hstep, if_pos hpossible, Call.looksUp, if_neg hvalid]
    · rw [hready, World.table_asking]
      exact World.table_of_lookUp (isPossible_session rfl hpossible) hroutes
    · rw [hready]
      exact hsome
  · rw [if_neg hpossible, since_self] at hown
    cases hown

/-! ## Schemas -/

/-- Sessions stay, and each of them stays on its schema. -/
structure SchemasStay (w w' : World ε) : Prop where
  sessions_le : w.sessions.length ≤ w'.sessions.length
  schema_eq : ∀ s < w.sessions.length,
    (w'.session s).router.schema = (w.session s).router.schema

theorem SchemasStay.of_same (h : w'.sessions = w.sessions) : SchemasStay w w' where
  sessions_le := Nat.le_of_eq (congrArg List.length h.symm)
  schema_eq := fun s _ => by rw [World.session, World.session, h]

theorem SchemasStay.trans {w₁ : World ε} (h : SchemasStay w w₁) (h' : SchemasStay w₁ w') :
    SchemasStay w w' where
  sessions_le := Nat.le_trans h.sessions_le h'.sessions_le
  schema_eq := fun s hs =>
    (h'.schema_eq s (Nat.lt_of_lt_of_le hs h.sessions_le)).trans (h.schema_eq s hs)

theorem SchemasStay.of_update {f : Session → Session} (h : w'.sessions = w.sessions.modify s f)
    (hf : ∀ t, (f t).router.schema = t.router.schema) : SchemasStay w w' where
  sessions_le := by simp [h]
  schema_eq := by
    intro t _
    have hupdate : w'.session t = (w.updateSession s f).session t := by
      rw [World.session, World.session, h]
      rfl
    rw [hupdate, World.session_updateSession]
    split
    next hst => rw [hf, hst.1]
    next => rfl

theorem schemas_addSession (w : World ε) (schema : String) :
    SchemasStay w (w.addSession schema) where
  sessions_le := by simp [World.addSession]
  schema_eq := by
    intro s hs
    rw [World.session_addSession, if_neg (Nat.ne_of_lt hs)]

/-- With a handler that does nothing, a course is the step's own doing. -/
theorem schemas_of_course {step : Step ε} {es : List Event}
    (h : k.Course (fun _ => pure ()) call step w es w') : SchemasStay w w' := by
  refine h.keeps (I := SchemasStay w) ?_ (.of_same rfl)
  intro u es u' hmove hu
  refine hu.trans ?_
  cases hmove with
  | kept => exact .of_update rfl fun _ => rfl
  | drained => exact .of_update rfl fun _ => rfl
  | routed => exact .of_update rfl fun _ => rfl
  | newSession schema => exact schemas_addSession u schema
  | _ => exact .of_same rfl

theorem carried_schemas (k : Surroundings ε) :
    k.Carried (fun _ => True) fun w ms w' =>
      SchemasStay w w' ∧ ∀ m ∈ ms, SchemasStay (m.ready k) w' where
  refl := fun w => ⟨.of_same rfl, by simp⟩
  trans := by
    rintro w w₁ w' ms ms' ⟨h, hms⟩ ⟨h', hms'⟩
    refine ⟨h.trans h', fun m hm => ?_⟩
    exact (List.mem_append.mp hm).elim (fun hm => (hms m hm).trans h') (hms' m)
  move := fun hmove _ =>
    ⟨schemas_of_course (.of_move (hmove (fun _ => pure ()) (.outside (pure .done)))), by simp⟩
  kept := by
    rintro w ms w' call s name batch ⟨h, hms⟩ _ _
    have hkept : SchemasStay w' (w'.keep call s name batch) := .of_update rfl fun _ => rfl
    exact ⟨h.trans hkept, fun m hm => (hms m hm).trans hkept⟩
  step := by
    rintro m ms _ ⟨h, hms⟩
    obtain ⟨es, hready⟩ := m.ready_course k fun _ => pure ()
    have hbegun : SchemasStay m.world m.begun := .of_same rfl
    have hafter : SchemasStay (m.result k).2 (m.after k) := .of_same (by rw [m.after_eq]; rfl)
    have hown : SchemasStay (m.ready k) (m.after k) := h.trans hafter
    refine ⟨hbegun.trans ((schemas_of_course hready).trans hown), fun x hx => ?_⟩
    rcases List.mem_cons.mp hx with rfl | hx
    · exact hown
    · exact (hms x hx).trans hafter

end Surroundings

/-! ## Main result -/

section MainResult

variable {ε : Type}

/-- A connection shows up in a session under a name, and the log up to then. -/
inductive ShowsUp (k : Surroundings ε) (ms : List (Occurrence ε)) (w' : World ε) (s : Nat)
    (name : String) (c : Connection) : List Entry → Prop where
  | held {u : World ε} (hu : u ∈ momentsOf k ms w') (hc : c ∈ u.heldFor s name) :
      ShowsUp k ms w' s name c u.log.toList
  /-- It is held at a moment at which no step begins or ends. -/
  | replayed {pre : List Entry} (hle : pre <+: w'.log.toList)
      (hc : c ∈ (replay s .empty pre).heldFor name) : ShowsUp k ms w' s name c pre
  | handedOut {m : Occurrence ε} (hm : m ∈ ms) {count : Nat} {mode : AcquisitionMode}
      {cs : List Connection} (hstep : m.step = .call (.acquire s name count mode))
      (hresult : (m.result k).1 = .answered (.connections cs)) (hc : c ∈ cs) :
      ShowsUp k ms w' s name c (m.after k).log.toList

/-- What holds of the connections of a session in a run that visits `ms` and ends in `w'`, if its
schema has these physical sources. -/
structure FromOneSource (k : Surroundings ε) (physical : SourceMap) (ms : List (Occurrence ε))
    (w' : World ε) (s : Nat) : Prop where
  /-- The table of the session at any moment is its table in the end. -/
  table : ∀ u ∈ momentsOf k ms w', ∀ routes, u.table (.ofSession s) = some routes →
    w'.table (.ofSession s) = some routes
  /-- Before it shows up under a name, the session opened it for the name, and from the one source
  that the name stands for. -/
  opened : ∀ name c es, ShowsUp k ms w' s name c es →
    ∃ source, w'.StandsFor physical s name source ∧ OpenedFor es s name source c
  /-- Whoever opens for a name opens from the one source that the name stands for. -/
  source_eq : ∀ name source c, OpenedFor w'.log.toList s name source c →
    w'.StandsFor physical s name source
  /-- If a name is in the table, it does not matter what else it stands for. -/
  routed : ∀ routes name pool, w'.table (.ofSession s) = some routes →
    routes.get? name = some pool →
      ∀ source c, OpenedFor w'.log.toList s name source c → source = pool
  /-- What was opened for a name does not show up under another name or in another session, if no
  connection is opened twice. -/
  apart : (gather Event.opens w'.log.toList).Nodup → ∀ name source c,
    OpenedFor w'.log.toList s name source c →
      ∀ t other es, ShowsUp k ms w' t other c es → t = s ∧ other = name

section Runs

variable {k : Surroundings ε} {depth : Nat} {steps : List (Step ε)} {env : ε} {s : Nat}
  {name : String} {source : SourceId} {c : Connection} {es : List Entry}

/-- What an acquisition hands out and did not reuse. -/
theorem openedFor_of_served {m : Occurrence ε} {count : Nat} {mode : AcquisitionMode}
    {cs opened : List Connection} {within : List Entry} {w₂ : World ε}
    (hstep : m.step = .call (.acquire s name count mode))
    (hserved : k.Served m.depth m.number s name count mode cs opened within m.begun w₂
      (m.result k).2) (hc : c ∈ opened) :
    ∃ source, OpenedFor (m.after k).log.toList s name source c := by
  rw [← hserved.opens_eq] at hc
  obtain ⟨e, he, hce⟩ := mem_flatMap_eventsOf.mp hc
  have hafter := Occurrence.log_after hserved.log_eq
  cases e with
  | opened source d =>
      cases List.mem_singleton.mp hce
      refine ⟨source, m.number, count, mode, ?_, ?_⟩
      · simp [hafter, hstep, Surroundings.call?]
      · simp [hafter, he]
  | _ => cases hce

/-- What shows up was opened before. -/
theorem openedFor_of_showsUp
    (h : ShowsUp k (k.tourRun depth steps (.new env)) (k.run depth steps (.new env)) s name c es) :
    es <+: (k.run depth steps (.new env)).log.toList ∧ ∃ source, OpenedFor es s name source c := by
  have hsettled := k.settled_run depth steps env
  have htold := told_of_run k depth steps env
  have hheld : ∀ u ∈ momentsOf k (k.tourRun depth steps (.new env)) (k.run depth steps (.new env)),
      c ∈ u.heldFor s name → ∃ source, OpenedFor u.log.toList s name source c := by
    intro u hu hc
    obtain ⟨hle, hreplay⟩ := htold u hu
    rw [World.heldFor, hreplay] at hc
    exact hsettled.openedFor_of_held hle hc
  cases h with
  | replayed hle hc => exact ⟨hle, hsettled.openedFor_of_held hle hc⟩
  | @held u hu hc => exact ⟨(htold u hu).1, hheld u hu hc⟩
  | @handedOut m hm count mode cs hstep hresult hc =>
      refine ⟨((k.accounted_run depth steps (.new env)).logs_le m hm).2, ?_⟩
      obtain ⟨-, hacquire⟩ := Occurrence.acquired_of_result hstep hresult
      obtain ⟨opened, within, w₂, hserved⟩ :=
        Surroundings.acquire_served (Nat.lt_succ_self m.number) hacquire
      rw [hserved.batch_eq] at hc
      rcases List.mem_append.mp hc with hreused | hopened
      · have hworld : m.world ∈
            momentsOf k (k.tourRun depth steps (.new env)) (k.run depth steps (.new env)) :=
          List.mem_append_left _ (List.mem_flatMap.mpr ⟨m, hm, List.mem_cons_self⟩)
        obtain ⟨source, hsource⟩ := hheld m.world hworld (List.mem_of_mem_take hreused)
        exact ⟨source, hsource.mono ⟨_, (Occurrence.log_after hserved.log_eq).symm⟩⟩
      · exact openedFor_of_served hstep hserved hopened

/-- The step that opened a connection, and what it had resolved the name to. -/
theorem resolved_of_openedFor
    (h : OpenedFor (k.run depth steps (.new env)).log.toList s name source c) :
    ∃ m ∈ k.tourRun depth steps (.new env), m.looksUp = some (.ofSession s) ∧
      (k.run depth steps (.new env)).StandsFor (k.cluster.physical (m.ready k).env
        ((k.run depth steps (.new env)).session s).router.schema) s name source := by
  obtain ⟨n, count, mode, hbegun, hopened⟩ := h
  obtain ⟨m, hm, rfl, hwithin⟩ := Surroundings.occurrence_of_event hopened
  have hstep : m.step = .call (.acquire s name count mode) := by
    obtain ⟨call, body, o, view, ht⟩ := (k.settled_run depth steps env).transcript hopened
    exact Surroundings.step_of_call?
      ((ht.begun_eq (Surroundings.begun_of_visited hm)).trans (ht.begun_eq hbegun).symm)
  obtain ⟨hlooks, routes, htable, hsource⟩ := Surroundings.looksUp_of_opened hstep hwithin
  have hs : s < (m.ready k).sessions.length := by
    obtain ⟨c, -, hpossible, hc⟩ := Occurrence.looksUp_eq_some hlooks
    obtain ⟨es, hready⟩ := m.ready_course k fun _ => pure ()
    exact Nat.lt_of_lt_of_le (Surroundings.hasRouter_of_possible hpossible hc)
      (Surroundings.schemas_of_course hready).sessions_le
  have hschemas := (Surroundings.carried_run (Surroundings.carried_schemas k) (fun _ _ => trivial)
    depth (fun _ _ => trivial) (.new env)).2 m hm
  have honce := k.builtOnce_run depth steps env (.ofSession s)
  refine ⟨m, hm, hlooks, routes, honce.table_of_ready hm htable, ?_⟩
  rwa [hschemas.schema_eq s hs]

theorem fromOneSource {physical : SourceMap}
    (hsteady : ∀ m ∈ k.tourRun depth steps (.new env), m.looksUp = some (.ofSession s) →
      k.cluster.physical (m.ready k).env
        ((k.run depth steps (.new env)).session s).router.schema = physical) :
    FromOneSource k physical (k.tourRun depth steps (.new env)) (k.run depth steps (.new env))
      s where
  table := by
    apply forall_momentsOf
    · intro m hm
      constructor
      · intro routes htable
        have honce := k.builtOnce_run depth steps env (.ofSession s)
        exact honce.table_of_ready hm (Surroundings.table_ready_of_known htable)
      · exact (Surroundings.carried_run (Surroundings.carried_frozen k) (fun _ _ => trivial) depth
          (fun _ _ => trivial) (.new env)).2 m hm _
    · intro routes htable
      exact htable
  opened := by
    intro name c es h
    obtain ⟨hle, source, hopened⟩ := openedFor_of_showsUp h
    obtain ⟨m, hm, hlooks, hsource⟩ := resolved_of_openedFor (hopened.mono hle)
    rw [hsteady m hm hlooks] at hsource
    exact ⟨source, hsource, hopened⟩
  source_eq := by
    intro name source c h
    obtain ⟨m, hm, hlooks, hsource⟩ := resolved_of_openedFor h
    rwa [hsteady m hm hlooks] at hsource
  routed := by
    intro routes name pool htable hpool source c h
    obtain ⟨m, hm, hlooks, routes', htable', hsource⟩ := resolved_of_openedFor h
    cases htable.symm.trans htable'
    rw [sourceOf, hpool, Option.some_or] at hsource
    exact (Option.some.inj hsource).symm
  apart := by
    intro hfresh name source c h t other es hshows
    obtain ⟨hle, source', h'⟩ := openedFor_of_showsUp hshows
    exact (k.settled_run depth steps env).openedFor_unique hfresh h (h'.mono hle)

/-- The data sources of a deployment stay as they are. -/
theorem fromOneSource_deployed {d : Deployment} :
    FromOneSource (k.deployed d)
      (if (((k.deployed d).run depth steps (.new env)).session s).router.schema = d.schema
        then d.sources else .empty)
      ((k.deployed d).tourRun depth steps (.new env)) ((k.deployed d).run depth steps (.new env))
      s :=
  fromOneSource fun _ _ _ => rfl

end Runs

/-- If the physical sources of a session's schema are the same whenever the session looks up its
table, all its connections come from the sources that their names stand for. Whatever else the
cluster says may change at any time. -/
theorem served_from_one_source (k : Surroundings ε) (depth : Nat) (steps : List (Step ε)) (env : ε)
    (s : Nat) (physical : SourceMap)
    (hsteady : ∀ m ∈ k.tourRun depth steps (.new env), m.looksUp = some (.ofSession s) →
      k.cluster.physical (m.ready k).env
        ((k.run depth steps (.new env)).session s).router.schema = physical) :
    k.Accounted (.new env) (k.tourRun depth steps (.new env)) (k.run depth steps (.new env)) ∧
      FromOneSource k physical (k.tourRun depth steps (.new env)) (k.run depth steps (.new env))
        s :=
  ⟨k.accounted_run depth steps (.new env), fromOneSource hsteady⟩

end MainResult

namespace Stage

/-- A stage with a source and a node of the same name. While the second connection of the node's
pool is opened, another session acquires under the name, and the traffic rule is taken back. -/
def shadowing : Stage :=
  ⟨[.new "ds" .plain],
    [⟨"//", none, ⟨none, none, false, [⟨.opening 1, [.call (.acquire 1 "ds" 1 .memoryStrictly),
      .change ⟨some none, none, none, none⟩]⟩]⟩⟩],
    0, .scripted (.ofList [("s", ["ds"])]) (some ⟨["x"]⟩)
      (some ⟨.ofList [("s", .ofList [("ds", ⟨"p", .ofList [("jdbcUrl", .string "a://b")]⟩)])],
        [⟨⟨.proxy, "ds"⟩, ["x"]⟩], [⟨⟨"u", "%"⟩, ""⟩], none, none, none⟩)⟩

/-- Two sessions; one acquires. -/
def shadowed : List Instruction :=
  [.call (.newSession "s"), .call (.newSession "s"), .call (.acquire 0 "ds" 2 .memoryStrictly)]

end Stage

/-- Both sessions are served from pools of the node, and not from the physical source. -/
theorem shadowed_from_one_source :
    let k := Stage.surroundings
    let steps := Stage.shadowed.map Stage.Instruction.step
    let w' := k.run 1 steps (.new Stage.shadowing)
    k.Accounted (.new Stage.shadowing) (k.tourRun 1 steps (.new Stage.shadowing)) w' ∧
      FromOneSource k (.ofList [("ds", 0)]) (k.tourRun 1 steps (.new Stage.shadowing)) w' 0 ∧
      w'.heldFor 0 "ds" = [⟨1, 0⟩, ⟨1, 1⟩] ∧ w'.heldFor 1 "ds" = [⟨2, 0⟩] := by
  intro k steps w'
  obtain ⟨haccount, hsource⟩ := served_from_one_source k 1 steps Stage.shadowing 0
    (.ofList [("ds", 0)]) (by decide +kernel)
  exact ⟨haccount, hsource, by decide +kernel, by decide +kernel⟩

end SessionBroker
