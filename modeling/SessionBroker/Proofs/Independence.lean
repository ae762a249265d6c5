import SessionBroker.Proofs.Apart

/-!
# What a request touches

A request touches the source that it draws on, what its session holds, and what it opens; all other
sources, connections and sessions stay as they are. So a request is answered the same in worlds that
agree on that source and on what the session holds, whatever else they contain.

`touched_report` is about one world before and after a request, `report_alongside` about one request
in two worlds.
-/

namespace SessionBroker

/-! ## What a request touches -/

/-- The connections that a step opened. -/
def Record.opened (r : Record) : List Connection := r.events.flatMap Event.opens

/-- The source from which a request opens connections, if it opens any. -/
def Site.drawn {ε : Type} (p : Site ε) (env : ε) : Request → Option SourceId
  | .acquire name _ _ => p.resolve env name
  | _ => none

/-- Of the sessions only one was changed, and it holds nothing but what it held or opened. -/
structure KeepsTo {ε : Type} (s : Nat) (new : List Connection) (w w' : World ε) : Prop where
  length_eq : w'.sessions.length = w.sessions.length
  others_eq : ∀ t, t ≠ s → w'.session t = w.session t
  router_eq : (w'.session s).router = (w.session s).router
  held : ∀ c ∈ (w'.session s).holdings.all, c ∈ (w.session s).holdings.all ∨ c ∈ new

namespace KeepsTo

variable {ε : Type} {s : Nat} {new : List Connection} {w w₁ w' : World ε}

theorem of_same (h : w'.sessions = w.sessions) : KeepsTo s new w w' := by
  have hsession := World.session_congr h
  exact ⟨congrArg List.length h, fun t _ => hsession t, by rw [hsession],
    fun c hc => .inl (hsession s ▸ hc)⟩

theorem of_update {f : Session → Session} (hs : s < w.sessions.length)
    (h : w'.sessions = (w.updateSession s f).sessions)
    (hrouter : (f (w.session s)).router = (w.session s).router)
    (hheld : ∀ c ∈ (f (w.session s)).holdings.all, c ∈ (w.session s).holdings.all ∨ c ∈ new) :
    KeepsTo s new w w' := by
  have hsession := World.session_congr h
  have hown : w'.session s = f (w.session s) := by
    rw [hsession, World.session_updateSession, if_pos ⟨rfl, hs⟩]
  refine ⟨by rw [h, World.length_updateSession], fun t ht => ?_, hown ▸ hrouter, hown ▸ hheld⟩
  rw [hsession, World.session_updateSession, if_neg fun heq => ht heq.1.symm]

theorem trans_same (h : KeepsTo s new w w₁) (h' : w'.sessions = w₁.sessions) :
    KeepsTo s new w w' := by
  have hsession := World.session_congr h'
  exact ⟨h' ▸ h.length_eq, fun t ht => (hsession t).trans (h.others_eq t ht),
    hsession s ▸ h.router_eq, hsession s ▸ h.held⟩

theorem of_before {w₀ : World ε} (h : KeepsTo s new w w') (h' : w.sessions = w₀.sessions) :
    KeepsTo s new w₀ w' := by
  have hsession := World.session_congr h'
  exact ⟨h' ▸ h.length_eq, fun t ht => (h.others_eq t ht).trans (hsession t),
    hsession s ▸ h.router_eq, hsession s ▸ h.held⟩

end KeepsTo

namespace Site.In

variable {ε : Type} {p : Site ε} {w w₁ : World ε} {n : Nat} {name : String}

/-- The table is there, so looking up a name at most asks a question. -/
theorem world_eq (hp : p.In w) {r : Except Error SourceId}
    (h : World.resolveSource (p.surroundings.cluster.logged n) p.session name w = (r, w₁)) :
    w₁ = w.asking n (sourceQuestions p.routes p.schema name) := by
  rw [hp.resolveSource_eq] at h
  exact (Prod.mk.inj h).2.symm

theorem resolve_eq_some (hp : p.In w) {source : SourceId}
    (h : World.resolveSource (p.surroundings.cluster.logged n) p.session name w =
      (.ok source, w₁)) : p.resolve w.env name = some source := by
  rw [hp.resolveSource_eq] at h
  cases hresolve : p.resolve w.env name with
  | none =>
      rw [hresolve] at h
      cases h
  | some other =>
      rw [hresolve] at h
      cases h
      rfl

end Site.In

section Requests

variable {ε α β : Type} {o : Outlook ε α β} {p : Site ε} {w : World ε}
  {S : SourceId → Prop} {C : Connection → Prop}

theorem touched_keep (hcalm : o.calm w.env) (n : Nat) (name : String) (batch : List Connection) :
    Touched p.surroundings o S C [] w (w.keep n p.session name batch) :=
  .of_still hcalm rfl (World.log_keep w n p.session name batch) (by simp [Event.isOpenFrom]) rfl

theorem touched_drain (hcalm : o.calm w.env) (n : Nat) :
    Touched p.surroundings o S C [] w (w.drain n p.session) :=
  .of_still hcalm rfl (World.log_drain w n p.session) (by simp [Event.isOpenFrom]) rfl

variable (h : Apart p.surroundings o) (hp : p.In w) (hcalm : o.calm w.env)
  {nested : Step ε → StateM (World ε) Unit} {n : Nat}

include h hp hcalm

theorem touched_acquire {name : String} {count : Nat} {mode : AcquisitionMode}
    {r : Except Error (List Connection)} {w' : World ε}
    (hacquire : World.acquire (p.surroundings.cluster.logged n) (p.surroundings.sources nested n) n
      p.session name count mode w = (r, w')) :
    ∃ new, Touched p.surroundings o (· ∈ p.drawn w.env (.acquire name count mode)) C new w w' ∧
      KeepsTo p.session new w w' := by
  have hstill : ∀ qs, ∃ new, Touched p.surroundings o (· ∈ p.drawn w.env (.acquire name count mode))
      C new w (w.asking n qs) ∧ KeepsTo p.session new w (w.asking n qs) := fun qs =>
    ⟨[], .of_still hcalm rfl (List.append_nil _).symm (by simp) rfl, .of_same rfl⟩
  have hasked : o.calm (w.asking n (sourceQuestions p.routes p.schema name)).env := hcalm
  have hdrawn : ∀ {source}, p.resolve w.env name = some source →
      ∀ other, other = source → other ∈ p.drawn w.env (.acquire name count mode) := by
    rintro source hsource _ rfl
    exact hsource
  cases acquires hacquire with
  | unnamed => exact World.asking_nil w n ▸ hstill []
  | uncounted => exact World.asking_nil w n ▸ hstill []
  | unresolved _ _ hsource =>
      cases hp.world_eq hsource
      exact hstill _
  | reused _ _ hsource =>
      cases hp.world_eq hsource
      exact hstill _
  | @rolledBack w₁ w₂ _ source opened cause rs _ _ hsource _ hopen hclose =>
      cases hp.world_eq hsource
      have hq := hdrawn (hp.resolve_eq_some hsource)
      obtain ⟨hopened, hsessions⟩ := touched_opens h hasked hopen
      have hnew : ((opened.map Except.ok ++ [Except.error cause]).flatMap
          (openEvents source)).flatMap Event.opens = opened := by
        rw [List.flatMap_append, List.flatMap_append, Surroundings.map_ok_flatMap,
          opens_openingEvents]
        simp [openEvents, Event.opens]
      rw [hnew] at hopened
      obtain ⟨hclosed, hsessions'⟩ := touched_closes h hopened.calm
        (fun c hc => (hopened.fresh c hc).2) hclose
      have hboth := hopened.trans hclosed fun c hc => .inr hc
      exact ⟨_, hboth.of_asking.mono hq fun _ hc => hc.elim,
        .of_same (hsessions'.trans hsessions)⟩
  | @opened w₁ w₂ source opened _ _ hsource _ _ hopen =>
      cases hp.world_eq hsource
      have hq := hdrawn (hp.resolve_eq_some hsource)
      obtain ⟨hopened, hsessions⟩ := touched_opens h hasked hopen
      rw [Surroundings.map_ok_flatMap, opens_openingEvents] at hopened
      have hopened : Touched p.surroundings o (· ∈ p.drawn w.env (.acquire name count mode)) C
          opened w w₂ :=
        hopened.of_asking.mono hq fun _ hc => hc.elim
      cases mode with
      | connectionStrictly => exact ⟨opened, hopened, .of_same hsessions⟩
      | memoryStrictly =>
          have hkept := hopened.trans (touched_keep (C := C) hopened.calm n name opened)
            fun c hc => .inl hc
          rw [List.append_nil] at hkept
          have hs : p.session < w₂.sessions.length := hsessions ▸ hp.session_lt
          refine ⟨opened, hkept, KeepsTo.of_before (.of_update hs rfl rfl fun c hc => ?_) hsessions⟩
          exact Holdings.mem_all_hold.mp hc

theorem touched_release {r : Except Error Unit} {w' : World ε}
    (hheld : ∀ c ∈ (w.session p.session).holdings.all, (o.ofConnection w.env c).isSome)
    (hrelease : World.release (p.surroundings.sources nested n) n p.session w = (r, w')) :
    Touched p.surroundings o S (· ∈ (w.session p.session).holdings.all) [] w w' ∧
      KeepsTo p.session [] w w' := by
  rw [release_eq] at hrelease
  have hdrained : Touched p.surroundings o S (· ∈ (w.session p.session).holdings.all) [] w
      (w.drain n p.session) := touched_drain hcalm n
  have hdrain : KeepsTo p.session [] w (w.drain n p.session) :=
    .of_update hp.session_lt rfl rfl fun c hc => absurd hc (by simp [Holdings.drain])
  cases hrelease
  obtain ⟨hclosed, hsessions⟩ := touched_closes h hdrained.calm hheld rfl
  exact ⟨hdrained.trans hclosed fun c hc => .inl hc, hdrain.trans_same hsessions⟩

theorem touched_outcome (hheld : ∀ c ∈ (w.session p.session).holdings.all,
    (o.ofConnection w.env c).isSome) (q : Request) :
    ∃ new, Touched p.surroundings o (· ∈ p.drawn w.env q)
        (· ∈ (w.session p.session).holdings.all) new w
        (p.surroundings.outcome (p.surroundings.sources nested n) n (.call (q.on p.session)) w).2 ∧
      KeepsTo p.session new w
        (p.surroundings.outcome (p.surroundings.sources nested n) n (.call (q.on p.session))
          w).2 := by
  have hstill : ∃ new, Touched p.surroundings o (· ∈ p.drawn w.env q)
      (· ∈ (w.session p.session).holdings.all) new w w ∧ KeepsTo p.session new w w :=
    ⟨[], .of_still hcalm rfl (List.append_nil _).symm (by simp) rfl, .of_same rfl⟩
  rw [Surroundings.outcome_call, if_pos (hp.isPossible q)]
  cases q with
  | acquire name count mode =>
      rw [Request.on, Surroundings.answer_acquire]
      exact touched_acquire h hp hcalm rfl
  | release =>
      rw [Request.on, Surroundings.answer_release]
      exact ⟨[], touched_release h hp hcalm hheld rfl⟩
  | held name => exact hstill
  | heldNames => exact hstill
  | isValid => exact hstill

/-- A request touches the source that it draws on, what the session holds, and what it opens. -/
theorem touched_report (hheld : ∀ c ∈ (w.session p.session).holdings.all,
    (o.ofConnection w.env c).isSome) (q : Request) :
    Touched p.surroundings o (· ∈ p.drawn w.env q) (· ∈ (w.session p.session).holdings.all)
        (p.report q w).1.opened w (p.report q w).2 ∧
      KeepsTo p.session (p.report q w).1.opened w (p.report q w).2 := by
  have hbegun : Touched p.surroundings o (· ∈ p.drawn w.env q)
      (· ∈ (w.session p.session).holdings.all) [] w (p.asks q w).begun :=
    .of_still hcalm rfl (World.log_record _ _ _) (by simp [Event.isOpenFrom]) rfl
  obtain ⟨new, htouched, hkeeps⟩ : ∃ new, Touched p.surroundings o (· ∈ p.drawn w.env q)
        (· ∈ (w.session p.session).holdings.all) new (p.asks q w).begun
        ((p.asks q w).result p.surroundings).2 ∧
      KeepsTo p.session new (p.asks q w).begun ((p.asks q w).result p.surroundings).2 :=
    touched_outcome (w := (p.asks q w).begun) h (hp.of_same rfl) hbegun.calm hheld q
  have hended : Touched p.surroundings o (· ∈ p.drawn w.env q)
      (· ∈ (w.session p.session).holdings.all) [] ((p.asks q w).result p.surroundings).2
      (p.report q w).2 := by
    rw [p.report_eq, (p.asks q w).after_eq]
    exact .of_still htouched.calm rfl (World.log_record _ _ _) (by simp [Event.isOpenFrom]) rfl
  have hnew : (p.report q w).1.opened = new := by
    obtain ⟨es, hlog, hopens⟩ := htouched.opens_eq
    rw [p.report_eq, Record.opened, since_eq hlog, List.flatMap_map]
    exact hopens
  have hall := (hbegun.trans htouched fun c hc => .inl hc).trans hended fun c hc => .inl hc
  rw [List.nil_append, List.append_nil] at hall
  have hresult : KeepsTo p.session new w ((p.asks q w).result p.surroundings).2 :=
    hkeeps.of_before rfl
  rw [hnew]
  refine ⟨hall, hresult.trans_same ?_⟩
  rw [p.report_eq, (p.asks q w).after_eq]
  rfl

end Requests

/-! ## Two runs side by side -/

section SideBySide

variable {ε α β : Type}

/-- A session in two worlds, in which it holds the same. They agree on the sources `S` and on the
connections that are known, and the session resolves names by `look`. -/
structure Alongside (o : Outlook ε α β) (p : Site ε) (S : SourceId → Prop)
    (look : String → Option SourceId) (known : Connection → Prop) (u v : World ε) : Prop where
  agree : Agree p.surroundings o S known u v
  left : p.In u
  right : p.In v
  held_eq : (u.session p.session).holdings = (v.session p.session).holdings
  held_known : ∀ c ∈ (u.session p.session).holdings.all, known c
  known_some : ∀ c, known c → (o.ofConnection u.env c).isSome
  resolve_eq : p.resolve u.env = look

/-- Two such worlds in the course of a request, which began with these attempts and connections
known. -/
structure InCourse (o : Outlook ε α β) (p : Site ε) (S : SourceId → Prop)
    (look : String → Option SourceId) (base : Connection → Prop) (before₁ before₂ : List Event)
    (known : Connection → Prop) (u v : World ε) : Prop extends
    Alongside o p S look known u v where
  base_known : ∀ c, base c → known c
  attempts : ∃ new, attemptsIn u.log.toList = before₁ ++ new ∧
    attemptsIn v.log.toList = before₂ ++ new ∧ ∀ c ∈ new.flatMap Event.opens, known c

variable {o : Outlook ε α β} {p : Site ε} {S : SourceId → Prop}
  {look : String → Option SourceId} {base known : Connection → Prop} {before₁ before₂ : List Event}
  {u v u' v' : World ε}

theorem opens_closeEvents (c : Connection) (r : Except Error Unit) :
    (closeEvents c r).flatMap Event.opens = [] := by
  cases r <;> rfl

theorem isOpenFrom_of_no_attempt {e : Event} (h : e.isAttempt = false) (source : SourceId) :
    e.isOpenFrom source = false := by
  cases e <;> first | rfl | cases h

theorem opensFrom_map (source : SourceId) (n : Nat) (es : List Event) :
    opensFrom source (es.map fun e => ⟨n, e⟩) = es.filter (Event.isOpenFrom source) := by
  rw [opensFrom, List.map_map]
  exact congrArg (List.filter _) (List.map_id es)

theorem attemptsIn_map (n : Nat) (es : List Event) :
    attemptsIn (es.map fun e => ⟨n, e⟩) = es.filter Event.isAttempt := by
  rw [attemptsIn, List.map_map]
  exact congrArg (List.filter _) (List.map_id es)

namespace InCourse

/-- Attempts with the same events, which leave the sessions alone. -/
theorem attempt {known' : Connection → Prop} {n₁ n₂ : Nat} {events : List Event}
    (h : InCourse o p S look base before₁ before₂ known u v)
    (hsessions : u'.sessions = u.sessions) (hsessions' : v'.sessions = v.sessions)
    (hlog : u'.log.toList = u.log.toList ++ events.map fun e => ⟨n₁, e⟩)
    (hlog' : v'.log.toList = v.log.toList ++ events.map fun e => ⟨n₂, e⟩)
    (hcalm : o.calm u'.env) (hcalm' : o.calm v'.env)
    (hphysical : p.surroundings.cluster.physical u'.env = p.surroundings.cluster.physical u.env)
    (hphysical' : p.surroundings.cluster.physical v'.env = p.surroundings.cluster.physical v.env)
    (hsource : ∀ source, S source → o.ofSource u'.env source = o.ofSource v'.env source)
    (hknown : ∀ c, known c → known' c) (hopens : ∀ c ∈ events.flatMap Event.opens, known' c)
    (hconnection : ∀ c, known' c → (o.ofConnection u'.env c).isSome ∧
      o.ofConnection u'.env c = o.ofConnection v'.env c) :
    InCourse o p S look base before₁ before₂ known' u' v' where
  agree :=
    { calm_left := hcalm
      calm_right := hcalm'
      physical_eq := by rw [hphysical, hphysical', h.agree.physical_eq]
      source_eq := hsource
      opens_eq := fun source hs => by
        rw [hlog, hlog', opensFrom_append, opensFrom_append, h.agree.opens_eq source hs,
          opensFrom_map, opensFrom_map]
      connection_eq := fun c hc => (hconnection c hc).2 }
  left := h.left.of_same hsessions
  right := h.right.of_same hsessions'
  held_eq := by
    rw [World.session, World.session, hsessions, hsessions']
    exact h.held_eq
  held_known := by
    rw [World.session, hsessions]
    exact fun c hc => hknown c (h.held_known c hc)
  known_some := fun c hc => (hconnection c hc).1
  resolve_eq := by
    rw [← h.resolve_eq]
    funext name
    rw [Site.resolve, Site.resolve, hphysical]
  base_known := fun c hc => hknown c (h.base_known c hc)
  attempts := by
    obtain ⟨new, hnew, hnew', hall⟩ := h.attempts
    refine ⟨new ++ events.filter Event.isAttempt, ?_, ?_, fun c hc => ?_⟩
    · rw [hlog, attemptsIn_append, attemptsIn_map, hnew, List.append_assoc]
    · rw [hlog', attemptsIn_append, attemptsIn_map, hnew', List.append_assoc]
    · rw [List.flatMap_append] at hc
      rcases List.mem_append.mp hc with hc | hc
      · exact hknown c (hall c hc)
      · obtain ⟨e, he, hc⟩ := List.mem_flatMap.mp hc
        exact hopens c (List.mem_flatMap.mpr ⟨e, (List.mem_filter.mp he).1, hc⟩)

/-- Questions in both, as many as may be. -/
theorem asking (h : InCourse o p S look base before₁ before₂ known u v) (n₁ n₂ : Nat)
    (qs₁ qs₂ : List Question) :
    InCourse o p S look base before₁ before₂ known (u.asking n₁ qs₁) (v.asking n₂ qs₂) where
  agree := h.agree.of_same rfl rfl (fun _ => rfl) fun _ => rfl
  left := h.left.of_same rfl
  right := h.right.of_same rfl
  held_eq := h.held_eq
  held_known := h.held_known
  known_some := h.known_some
  resolve_eq := h.resolve_eq
  base_known := h.base_known
  attempts := h.attempts

/-- The session comes to hold something else in both, with an event that is no attempt. -/
theorem update (h : InCourse o p S look base before₁ before₂ known u v)
    (f : Holdings Connection → Holdings Connection) (n₁ n₂ : Nat) {e₁ e₂ : Event}
    (he₁ : e₁.isAttempt = false) (he₂ : e₂.isAttempt = false)
    (hheld : ∀ c ∈ (f (u.session p.session).holdings).all, known c) :
    InCourse o p S look base before₁ before₂ known
      ((u.updateSession p.session fun t => { t with holdings := f t.holdings }).record n₁ e₁)
      ((v.updateSession p.session fun t => { t with holdings := f t.holdings }).record n₂ e₂) where
  agree := by
    refine h.agree.of_same rfl rfl (fun source => ?_) fun source => ?_
    · rw [World.log_record, opensFrom_append]
      simp [opensFrom, isOpenFrom_of_no_attempt he₁, World.updateSession]
    · rw [World.log_record, opensFrom_append]
      simp [opensFrom, isOpenFrom_of_no_attempt he₂, World.updateSession]
  left := (h.left.update f).of_same rfl
  right := (h.right.update f).of_same rfl
  held_eq := by
    show Session.holdings (World.session (World.updateSession _ _ _) _) =
      Session.holdings (World.session (World.updateSession _ _ _) _)
    rw [h.left.session_update, h.right.session_update]
    exact congrArg f h.held_eq
  held_known := by
    show ∀ c ∈ (Session.holdings (World.session (World.updateSession _ _ _) _)).all, known c
    rw [h.left.session_update]
    exact hheld
  known_some := h.known_some
  resolve_eq := h.resolve_eq
  base_known := h.base_known
  attempts := by
    obtain ⟨new, hnew, hnew', hall⟩ := h.attempts
    refine ⟨new, ?_, ?_, hall⟩
    · rw [World.log_record, attemptsIn_append]
      simp [attemptsIn, he₁, ← hnew, World.updateSession]
    · rw [World.log_record, attemptsIn_append]
      simp [attemptsIn, he₂, ← hnew', World.updateSession]

end InCourse

section Steps

variable (h : Apart p.surroundings o) {nested₁ nested₂ : Step ε → StateM (World ε) Unit}
  {n₁ n₂ : Nat}

include h

theorem openTogether_attemptOpen {source : SourceId} (hsource : S source) :
    OpenTogether (InCourse o p S look base before₁ before₂)
      (p.surroundings.attemptOpen nested₁ n₁ source)
      (p.surroundings.attemptOpen nested₂ n₂ source) := by
  intro known u v hw
  have hu := attemptOpen_leaves h nested₁ n₁ source hw.agree.calm_left
  have hv := attemptOpen_leaves h nested₂ n₂ source hw.agree.calm_right
  obtain ⟨hresult, hsame, hnew⟩ := h.open_own source hw.agree.calm_left hw.agree.calm_right
    (hw.agree.source_eq source hsource)
  have hresults : (p.surroundings.attemptOpen nested₁ n₁ source u).1 =
      (p.surroundings.attemptOpen nested₂ n₂ source v).1 := by
    rw [hu.result_eq, hv.result_eq, hresult]
  refine ⟨hresults, hw.attempt hu.sessions_eq hv.sessions_eq hu.log_eq (hresults ▸ hv.log_eq)
    ?_ ?_ ?_ ?_ ?_ (fun c hc => .inl hc) ?_ ?_⟩
  · rw [hu.env_eq]
    exact h.open_calm source hw.agree.calm_left
  · rw [hv.env_eq]
    exact h.open_calm source hw.agree.calm_right
  · rw [hu.env_eq, h.open_physical source hw.agree.calm_left]
  · rw [hv.env_eq, h.open_physical source hw.agree.calm_right]
  · intro other hother
    rw [hu.env_eq, hv.env_eq]
    by_cases hne : other = source
    · rw [hne, hsame]
    · rw [h.open_source hw.agree.calm_left hne, h.open_source hw.agree.calm_right hne,
        hw.agree.source_eq other hother]
  · intro c hc
    right
    cases hr : (p.surroundings.attemptOpen nested₁ n₁ source u).1 with
    | error e =>
        rw [hr] at hc
        simp [openEvents, Event.opens] at hc
    | ok d =>
        rw [hr] at hc
        have hcd : c = d := by simpa [openEvents, Event.opens] using hc
        rw [hcd]
  · intro c hc
    rw [hu.env_eq, hv.env_eq]
    by_cases hopened : (p.surroundings.openAlone source u.env).1 = .ok c
    · exact ⟨(h.open_new hw.agree.calm_left hopened).2, hnew c hopened⟩
    · have hc := hc.resolve_right (hu.result_eq ▸ hopened)
      rw [h.open_connection hw.agree.calm_left hopened,
        h.open_connection hw.agree.calm_right (hresult ▸ hopened)]
      exact ⟨hw.known_some c hc, hw.agree.connection_eq c hc⟩

theorem lockstep_attemptClose_of_known {c : Connection} (hc : known c) :
    Lockstep (InCourse o p S look base before₁ before₂ known)
      (p.surroundings.attemptClose nested₁ n₁ c) (p.surroundings.attemptClose nested₂ n₂ c) := by
  intro u v hw
  have hcalm := hw.agree.calm_left
  have hcalm' := hw.agree.calm_right
  have hsome := hw.known_some c hc
  have hsome' : (o.ofConnection v.env c).isSome := hw.agree.connection_eq c hc ▸ hsome
  have hu := attemptClose_leaves h nested₁ n₁ c hcalm
  have hv := attemptClose_leaves h nested₂ n₂ c hcalm'
  obtain ⟨hresult, hstays, hsame⟩ := h.close_own hcalm hcalm' hsome (hw.agree.connection_eq c hc)
  have hresults : (p.surroundings.attemptClose nested₁ n₁ c u).1 =
      (p.surroundings.attemptClose nested₂ n₂ c v).1 := by
    rw [hu.result_eq, hv.result_eq, hresult]
  refine ⟨hresults, hw.attempt hu.sessions_eq hv.sessions_eq hu.log_eq (hresults ▸ hv.log_eq)
    ?_ ?_ ?_ ?_ ?_ (fun c hc => hc) ?_ ?_⟩
  · rw [hu.env_eq]
    exact h.close_calm hcalm hsome
  · rw [hv.env_eq]
    exact h.close_calm hcalm' hsome'
  · rw [hu.env_eq, h.close_physical hcalm hsome]
  · rw [hv.env_eq, h.close_physical hcalm' hsome']
  · intro other hother
    rw [hu.env_eq, hv.env_eq, h.close_source hcalm hsome, h.close_source hcalm' hsome',
      hw.agree.source_eq other hother]
  · intro d hd
    rw [opens_closeEvents] at hd
    cases hd
  · intro d hd
    rw [hu.env_eq, hv.env_eq]
    by_cases hdc : d = c
    · rw [hdc]
      exact ⟨hstays, hsame⟩
    · rw [h.close_connection hcalm hsome hdc, h.close_connection hcalm' hsome' hdc]
      exact ⟨hw.known_some d hd, hw.agree.connection_eq d hd⟩

/-- The names that a request resolves stand for sources on which both worlds agree. -/
theorem inStep_apart :
    InStep p p nested₁ nested₂ n₁ n₂ (fun name => ∀ source, look name = some source → S source)
      (InCourse o p S look base before₁ before₂) where
  sites := fun hw => ⟨hw.left, hw.right⟩
  held_eq := fun hw => hw.held_eq
  held_known := fun hw => hw.held_known
  isValid_eq := by
    intro known u v hw
    rw [Surroundings.isValid, Surroundings.isValid, ← hw.held_eq, Bool.eq_iff_iff,
      List.all_eq_true, List.all_eq_true]
    refine forall_congr' fun e => forall_congr' fun he => ?_
    rw [List.all_eq_true, List.all_eq_true]
    refine forall_congr' fun c => forall_congr' fun hc => ?_
    have hknown : known c := hw.held_known c (List.mem_flatMap.mpr ⟨e, he, hc⟩)
    rw [h.isClosed_eq hw.agree.calm_left hw.agree.calm_right (hw.agree.connection_eq c hknown)]
  resolve_eq := by
    intro known u v name hw _
    rw [Site.resolve, Site.resolve, hw.agree.physical_eq]
  asks := fun hw qs₁ qs₂ => hw.asking n₁ n₂ qs₁ qs₂
  opens := fun hw hserved hsource =>
    openTogether_attemptOpen h (hserved _ (hw.resolve_eq ▸ hsource))
  closes := fun known c hc => lockstep_attemptClose_of_known h hc
  keeps := fun hw name batch hbatch => hw.update (fun held => held.hold name batch) n₁ n₂ rfl rfl
    fun c hc => (Holdings.mem_all_hold.mp hc).elim (hw.held_known c) (hbatch c)
  drains := fun hw => hw.update (fun held => held.drain.2) n₁ n₂ rfl rfl fun c hc =>
    absurd hc (by simp [Holdings.drain])

end Steps

theorem Alongside.of_same (h : Alongside o p S look known u v) (henv : u'.env = u.env)
    (henv' : v'.env = v.env) (hsessions : u'.sessions = u.sessions)
    (hsessions' : v'.sessions = v.sessions)
    (hlog : ∀ source, opensFrom source u'.log.toList = opensFrom source u.log.toList)
    (hlog' : ∀ source, opensFrom source v'.log.toList = opensFrom source v.log.toList) :
    Alongside o p S look known u' v' where
  agree := h.agree.of_same henv henv' hlog hlog'
  left := h.left.of_same hsessions
  right := h.right.of_same hsessions'
  held_eq := by
    rw [World.session, World.session, hsessions, hsessions']
    exact h.held_eq
  held_known := by
    rw [World.session, hsessions]
    exact h.held_known
  known_some := henv ▸ h.known_some
  resolve_eq := henv ▸ h.resolve_eq

theorem Alongside.mono {known' : Connection → Prop} (h : Alongside o p S look known u v)
    (hknown : ∀ c, known' c → known c)
    (hheld : ∀ c ∈ (u.session p.session).holdings.all, known' c) :
    Alongside o p S look known' u v :=
  { h with
    agree := h.agree.mono (fun _ hs => hs) hknown
    held_known := hheld
    known_some := fun c hc => h.known_some c (hknown c hc) }

theorem Alongside.session_eq (h : Alongside o p S look known u v) :
    u.session p.session = v.session p.session := by
  have hrouter := h.left.router_eq.trans h.right.router_eq.symm
  have hheld := h.held_eq
  cases hu : u.session p.session
  cases hv : v.session p.session
  rw [hu, hv] at hrouter hheld
  cases hrouter
  cases hheld
  rfl

/-- A request on another session, which draws on other sources, is not noticed. -/
theorem Alongside.of_elsewhere {S' : SourceId → Prop} {C' : Connection → Prop}
    {new : List Connection} (hw : Alongside o p S look known u v)
    (htouched : Touched p.surroundings o S' C' new u u') (hS : ∀ source, S source → ¬ S' source)
    (hC : ∀ c, known c → ¬ C' c) (hlength : u'.sessions.length = u.sessions.length)
    (hsession : u'.session p.session = u.session p.session) :
    Alongside o p S look known u' v := by
  refine ⟨(htouched.agree.mono hS fun c hc =>
      ⟨hC c hc, htouched.not_mem_of_isSome (hw.known_some c hc)⟩).trans hw.agree,
    ⟨hlength ▸ hw.left.session_lt, hsession ▸ hw.left.router_eq⟩, hw.right, ?_, ?_,
    fun c hc => htouched.known c (hw.known_some c hc), ?_⟩
  · rw [hsession, hw.held_eq]
  · rw [hsession]
    exact hw.held_known
  · rw [← hw.resolve_eq]
    funext name
    rw [Site.resolve, Site.resolve, htouched.agree.physical_eq]

theorem opensFrom_record {ε : Type} (w : World ε) (n : Nat) {e : Event}
    (he : e.isAttempt = false) (source : SourceId) :
    opensFrom source (w.record n e).log.toList = opensFrom source w.log.toList := by
  rw [World.log_record, opensFrom_append]
  simp [opensFrom, isOpenFrom_of_no_attempt he]

/-- Only attempts open connections. -/
theorem flatMap_opens_filter (es : List Event) :
    (es.filter Event.isAttempt).flatMap Event.opens = es.flatMap Event.opens := by
  induction es with
  | nil => rfl
  | cons e es ih =>
      cases e <;> simp [List.filter_cons, Event.isAttempt, Event.opens, ih]

theorem Record.opened_shown (r : Record) : r.shown.opened = r.opened :=
  flatMap_opens_filter r.events

/-- A request on a session whose sources and connections two worlds agree on is answered the same in
both, and they still agree, also on what it opened. -/
theorem report_alongside (h : Apart p.surroundings o) {q : Request}
    (hq : q.Within fun name => ∀ source, look name = some source → S source)
    (hw : Alongside o p S look known u v) :
    (p.report q u).1.shown = (p.report q v).1.shown ∧
      Alongside o p S look (fun c => known c ∨ c ∈ (p.report q u).1.opened) (p.report q u).2
        (p.report q v).2 := by
  have hstart : Alongside o p S look known (p.asks q u).begun (p.asks q v).begun :=
    hw.of_same rfl rfl rfl rfl (opensFrom_record _ _ rfl) (opensFrom_record _ _ rfl)
  have hbegun : InCourse o p S look known (attemptsIn (p.asks q u).begun.log.toList)
      (attemptsIn (p.asks q v).begun.log.toList) known (p.asks q u).begun (p.asks q v).begun :=
    { hstart with
      base_known := fun _ hc => hc
      attempts := ⟨[], (List.append_nil _).symm, (List.append_nil _).symm, by simp⟩ }
  obtain ⟨hshown, known', hresult⟩ := (inStep_apart h).report hq hbegun fun hu =>
    have ⟨new, hnew, hnew', _⟩ := hu.attempts
    ⟨new, hnew, hnew'⟩
  refine ⟨hshown, ?_⟩
  have hafter : Alongside o p S look known' (p.report q u).2 (p.report q v).2 := by
    rw [p.report_eq, p.report_eq, (p.asks q u).after_eq, (p.asks q v).after_eq]
    exact hresult.toAlongside.of_same rfl rfl rfl rfl (opensFrom_record _ _ rfl)
      (opensFrom_record _ _ rfl)
  have hopened : ∀ c ∈ (p.report q u).1.opened, known' c := by
    obtain ⟨new, hnew, -, hall⟩ := hresult.attempts
    obtain ⟨es, hes⟩ := (p.asks q u).stretch_result p.surroundings
    have hevents : (p.report q u).1.shown.events = new := by
      rw [p.report_eq]
      exact attemptsIn_since hes.log_eq hnew
    rw [← Record.opened_shown, Record.opened, hevents]
    exact hall
  obtain ⟨-, hkeeps⟩ := touched_report h hw.left hw.agree.calm_left
    (fun c hc => hw.known_some c (hw.held_known c hc)) q
  exact hafter.mono (fun c hc => hc.elim (hresult.base_known c) (hopened c)) fun c hc =>
    (hkeeps.held c hc).imp_left (hw.held_known c)

end SideBySide

end SessionBroker
