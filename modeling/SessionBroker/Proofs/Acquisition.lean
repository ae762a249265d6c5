import SessionBroker.Proofs.Stage

/-!
# What an acquisition does

All or nothing: an acquisition hands out just as many connections as were asked for, the held ones
first, or it fails, has attempted to close what it opened, and keeps nothing. What calls nested in
its attempts do to the holdings is theirs: `othersOf` replays what they left in the log.
-/

namespace SessionBroker

/-! ## Since a world -/

/-- What was added to the log since an earlier world. -/
def World.since {ε : Type} (w w' : World ε) : List Entry :=
  w'.log.toList.drop w.log.toList.length

/-- What others than the call `call` left in a stretch of a log. -/
def othersOf (call : Nat) (es : List Entry) : List Entry := es.filter fun e => e.call != call

def Event.leavesHeld : Event → Bool
  | .kept _ _ _ | .drained _ _ => false
  | _ => true

section Since

variable {ε : Type} {w w' : World ε} {new es : List Entry} {call : Nat}

theorem since_eq (h : w'.log.toList = w.log.toList ++ new) : w.since w' = new := by
  rw [World.since, h, List.drop_left]

theorem since_self (w : World ε) : w.since w = [] := since_eq (List.append_nil _).symm

theorem leavesHeld_of_lookup (e : Event) (h : e.isLookup = true) : e.leavesHeld = true := by
  cases e <;> first | rfl | cases h

theorem leavesHeld_of_attempt (e : Event) (h : e.isAttempt = true) : e.leavesHeld = true := by
  cases e <;> first | rfl | cases h

theorem onHeld_of_leavesHeld {e : Event} (h : e.leavesHeld = true) (t : Nat)
    (held : Holdings Connection) : e.onHeld t held = held := by
  cases e <;> first | rfl | cases h

/-- A call that leaves the holdings alone leaves them to others. -/
theorem replay_othersOf (h : ∀ e ∈ eventsOf call es, e.leavesHeld = true) (t : Nat)
    (held : Holdings Connection) : replay t held (othersOf call es) = replay t held es := by
  induction es generalizing held with
  | nil => rfl
  | cons e es ih =>
      obtain ⟨n, ev⟩ := e
      by_cases hn : n = call
      · subst hn
        rw [eventsOf_cons_self] at h
        have hskip : othersOf n (⟨n, ev⟩ :: es) = othersOf n es := by simp [othersOf]
        rw [hskip, ih (fun e he => h e (List.mem_cons_of_mem ev he)), replay_cons,
          onHeld_of_leavesHeld (h ev List.mem_cons_self)]
      · have hkeep : othersOf call (⟨n, ev⟩ :: es) = ⟨n, ev⟩ :: othersOf call es := by
          simp [othersOf, hn]
        have hown : eventsOf call (⟨n, ev⟩ :: es) = eventsOf call es := by simp [eventsOf, hn]
        rw [hkeep, replay_cons, replay_cons, ih (by rwa [hown] at h)]

end Since

/-! ## Resolving a name -/

/-- The source of a name: a routed node's pool before a physical source. -/
def sourceOf (routes physical : SourceMap) (name : String) : Option SourceId :=
  (routes.get? name).or (physical.get? name)

/-- What is asked for a name: if the table does not have it, what the physical sources are. -/
def sourceQuestions (routes : Routes) (schema name : String) : List Question :=
  match routes.get? name with
  | some _ => []
  | none => [.physical schema]

section Resolving

variable {ε : Type} {cluster : Cluster ε} {call : Nat} {w w₁ : World ε} {s : Nat} {name : String}

theorem resolveRoutes_known {access : Access (World ε)} {routes : Routes}
    (h : (w.session s).router.routes = some routes) :
    World.resolveRoutes access s w = (.ok routes, w) :=
  Router.resolve_known access (fun w => (w.session s).router) (World.keepRoutes s) h

theorem resolveRoutes_unknown {access : Access (World ε)}
    (h : (w.session s).router.routes = none) :
    World.resolveRoutes access s w =
      match buildRoutes access (w.session s).router.schema w with
      | (.ok routes, w₁) => (.ok routes, World.keepRoutes s routes w₁)
      | (.error e, w₁) => (.error e, w₁) := by
  rw [World.resolveRoutes,
    Router.resolve_unknown access (fun w => (w.session s).router) (World.keepRoutes s) h]
  rcases buildRoutes access (w.session s).router.schema w with ⟨r, w₁⟩
  cases r <;> rfl

/-- A table is there, or it is built, or the build fails. -/
theorem resolveRoutes_error {access : Access (World ε)} {e : Error} :
    World.resolveRoutes access s w = (.error e, w₁) ↔
      (w.session s).router.routes = none ∧
        buildRoutes access (w.session s).router.schema w = (.error e, w₁) := by
  cases hroutes : (w.session s).router.routes with
  | some routes =>
      rw [resolveRoutes_known hroutes]
      constructor
      · intro h
        cases h
      · intro h
        cases h.1
  | none =>
      rw [resolveRoutes_unknown hroutes]
      rcases buildRoutes access (w.session s).router.schema w with ⟨r, w₂⟩
      cases r with
      | error e₁ =>
          constructor
          · intro h
            exact ⟨rfl, h⟩
          · intro h
            exact h.2
      | ok routes =>
          constructor
          · intro h
            cases h
          · intro h
            cases h.2

theorem resolveSource_eq :
    World.resolveSource (cluster.logged call) s name w =
      match World.resolveRoutes (cluster.logged call) s w with
      | (.error e, w₁) => (.error e, w₁)
      | (.ok routes, w₁) =>
        match sourceOf routes (cluster.physical w₁.env (w₁.session s).router.schema) name with
        | some source =>
          (.ok source, w₁.asking call (sourceQuestions routes (w₁.session s).router.schema name))
        | none =>
          (.error (.unknownDataSource name),
            w₁.asking call (sourceQuestions routes (w₁.session s).router.schema name)) := by
  simp only [World.resolveSource, Action.bind_apply]
  rcases World.resolveRoutes (cluster.logged call) s w with ⟨r, w₁⟩
  cases r with
  | error e => rfl
  | ok routes =>
      simp only [sourceOf, sourceQuestions]
      cases routes.get? name with
      | some source => exact congrArg (Prod.mk _) (World.asking_nil w₁ call).symm
      | none =>
          dsimp only
          rw [Action.bind_apply, Action.get_apply]
          dsimp only
          rw [physical_bind_apply, World.ask_eq_asking, Option.none_or]
          cases (cluster.physical w₁.env (w₁.session s).router.schema).get? name <;> rfl

theorem resolveSource_of_error {e : Error}
    (h : World.resolveRoutes (cluster.logged call) s w = (.error e, w₁)) :
    World.resolveSource (cluster.logged call) s name w = (.error e, w₁) := by
  rw [resolveSource_eq, h]

theorem resolveSource_of_none {routes : Routes}
    (h : World.resolveRoutes (cluster.logged call) s w = (.ok routes, w₁))
    (hnone : sourceOf routes (cluster.physical w₁.env (w₁.session s).router.schema) name = none) :
    World.resolveSource (cluster.logged call) s name w =
      (.error (.unknownDataSource name),
        w₁.asking call (sourceQuestions routes (w₁.session s).router.schema name)) := by
  rw [resolveSource_eq, h]
  simp only [hnone]

theorem resolveSource_of_some {routes : Routes} {source : SourceId}
    (h : World.resolveRoutes (cluster.logged call) s w = (.ok routes, w₁))
    (hsome : sourceOf routes (cluster.physical w₁.env (w₁.session s).router.schema) name =
      some source) :
    World.resolveSource (cluster.logged call) s name w =
      (.ok source, w₁.asking call (sourceQuestions routes (w₁.session s).router.schema name)) := by
  rw [resolveSource_eq, h]
  simp only [hsome]

/-- A name is resolved: the table is there in `w₀`, and what it does not have is asked for. -/
structure ResolvedBy (cluster : Cluster ε) (call s : Nat) (name : String) (w : World ε)
    (routes : Routes) (w₀ : World ε) (source : SourceId) (w₁ : World ε) : Prop where
  table : World.resolveRoutes (cluster.logged call) s w = (.ok routes, w₀)
  source_eq : sourceOf routes (cluster.physical w₀.env (w₀.session s).router.schema) name =
    some source
  asking : w₁ = w₀.asking call (sourceQuestions routes (w₀.session s).router.schema name)

/-- There is no other way for a name to be resolved. -/
theorem resolveSource_ok {source : SourceId}
    (h : World.resolveSource (cluster.logged call) s name w = (.ok source, w₁)) :
    ∃ routes w₀, ResolvedBy cluster call s name w routes w₀ source w₁ := by
  rcases hroutes : World.resolveRoutes (cluster.logged call) s w with ⟨r, w₀⟩
  cases r with
  | error e =>
      rw [resolveSource_of_error hroutes] at h
      cases h
  | ok routes =>
      cases hsource : sourceOf routes
        (cluster.physical w₀.env (w₀.session s).router.schema) name with
      | none =>
          rw [resolveSource_of_none hroutes hsource] at h
          cases h
      | some source' =>
          rw [resolveSource_of_some hroutes hsource] at h
          cases h
          exact ⟨routes, w₀, hroutes, hsource, rfl⟩

end Resolving

/-! ## Lookups and attempts as stretches -/

namespace Surroundings

variable {ε : Type} {k : Surroundings ε} {call depth : Nat} {w w' : World ε}

/-- The call itself looked something up, and nothing else happened. -/
structure OnlyLooks (call : Nat) (w w' : World ε) : Prop where
  log_eq : w'.log.toList = w.log.toList ++ w.since w'
  asked : ∃ qs : List Question,
    w'.inquiries.toList = w.inquiries.toList ++ qs.map (Inquiry.mk call)
  looks : ∀ e ∈ w.since w', e.call = call ∧ e.event.isLookup = true
  calls_eq : w'.calls = w.calls
  sessions_le : w.sessions.length ≤ w'.sessions.length
  held_eq : ∀ t, (w'.session t).holdings = (w.session t).holdings

/-- With a handler that does nothing, a course is the step's own doing. -/
theorem calls_of_course {step : Step ε} {es : List Event}
    (h : k.Course (fun _ => pure ()) call step w es w') : w'.calls = w.calls := by
  refine h.keeps (I := fun u => u.calls = w.calls) ?_ rfl
  intro u es u' hmove hu
  cases hmove <;> exact hu

theorem Looks.onlyLooks {α : Type} {a : Action (World ε) α} (ha : k.Looks call a)
    (hcall : call < w.calls) : OnlyLooks call w (a w).2 := by
  -- the handler does not matter to a lookup, so it is taken to do nothing
  have hstill : Stretches (ε := ε) fun _ => pure () := fun _ u => ⟨[], .refl none u⟩
  obtain ⟨es, hes, hcourse⟩ := ha (fun _ => pure ()) (.outside (pure .done)) w
  obtain ⟨new, hnew, rfl⟩ := stretch_course hstill hcall hcourse
  have hsince := since_eq hnew.log_eq
  have hcalls := calls_of_course hcourse
  have hlooks : ∀ e ∈ new, e.call = call ∧ e.event.isLookup = true := by
    intro e he
    have hown : e.call = call := by
      rcases hnew.numbered e he with hrun | ⟨hle, hlt⟩
      · exact Option.some.inj hrun
      · omega
    refine ⟨hown, hes e.event (mem_eventsOf.mpr ?_)⟩
    rwa [← hown]
  have hasked : ∃ qs : List Question,
      (a w).2.inquiries.toList = w.inquiries.toList ++ qs.map (Inquiry.mk call) := by
    obtain ⟨asked, heq, hown⟩ := hnew.inquired
    refine ⟨asked.map Inquiry.question, ?_⟩
    rw [heq, List.map_map, List.map_congr_left (g := id), List.map_id]
    intro i hi
    rcases hown i hi with hrun | ⟨hle, hlt⟩
    · rw [← Option.some.inj hrun]
      rfl
    · omega
  refine ⟨by rw [hsince, hnew.log_eq], hasked, by rwa [hsince], hcalls, hnew.sessions_le,
    fun t => ?_⟩
  have hothers : othersOf call new = [] := by
    rw [othersOf, List.filter_eq_nil_iff]
    intro e he
    simp [(hlooks e he).1]
  rw [hnew.held_eq, ← replay_othersOf (fun e he => leavesHeld_of_lookup e (hes e he)), hothers,
    replay_nil]

/-- Attempts to open, one after the other, with all that runs inside them. -/
theorem stretch_opens (hcall : call < w.calls) {source : SourceId} {n : Nat}
    {rs : List (Except Error Connection)}
    (h : inTurn (List.replicate n (k.attemptOpen (k.nested depth) call source)) w = (rs, w')) :
    ∃ new, Stretch (some call) w w' new ∧ eventsOf call new = rs.flatMap (openEvents source) :=
  have hcourse : k.Course (k.nested depth) call (.outside (pure .done)) w _ w' := opens_course h
  stretch_course (stretches_nested k depth) hcall hcourse

theorem stretch_closes (hcall : call < w.calls) {cs : List Connection}
    {rs : List (Except Error Unit)}
    (h : inTurn (cs.map (k.attemptClose (k.nested depth) call)) w = (rs, w')) :
    ∃ new, Stretch (some call) w w' new ∧ eventsOf call new = closingEvents cs rs :=
  have hcourse : k.Course (k.nested depth) call (.outside (pure .done)) w _ w' := closes_course h
  stretch_course (stretches_nested k depth) hcall hcourse

theorem onlyLooks_resolve (hcall : call < w.calls) {s : Nat} {name : String}
    {r : Except Error SourceId}
    (h : World.resolveSource (k.cluster.logged call) s name w = (r, w')) : OnlyLooks call w w' := by
  have hlooks : k.Looks call (World.resolveSource (k.cluster.logged call) s name) :=
    looks_resolveSource s name
  have honly := hlooks.onlyLooks hcall
  rwa [h] at honly

theorem stretch_resolve (hcall : call < w.calls) {s : Nat} {name : String}
    {r : Except Error SourceId}
    (h : World.resolveSource (k.cluster.logged call) s name w = (r, w')) :
    ∃ new, Stretch (some call) w w' new ∧ ∀ e ∈ eventsOf call new, e.isLookup = true := by
  have hlooks : k.Looks call (World.resolveSource (k.cluster.logged call) s name) :=
    looks_resolveSource s name
  obtain ⟨es, hes, hcourse⟩ := hlooks (k.nested 0) (.outside (pure .done)) w
  rw [h] at hcourse
  obtain ⟨new, hnew, rfl⟩ := stretch_course (stretches_nested k 0) hcall hcourse
  exact ⟨new, hnew, hes⟩

/-- What is held after a call that leaves the holdings alone is the doing of others. -/
theorem held_of_stretch {new : List Entry} (h : Stretch (some call) w w' new)
    (hown : ∀ e ∈ eventsOf call new, e.leavesHeld = true) (t : Nat) :
    (w'.session t).holdings = replay t (w.session t).holdings (othersOf call new) := by
  rw [h.held_eq, replay_othersOf hown]

/-! ## All or nothing -/

/-- How a batch fails: so many attempts that open a connection, one that fails, and no more; then
one attempt to close each connection, in order, whatever these come to. -/
def RollsBack (k : Surroundings ε) (depth call : Nat) (source : SourceId)
    (opened : List Connection) (cause : Error) (w w' : World ε) : Prop :=
  ∃ rs w₁, rs.length = opened.length ∧
    inTurn (List.replicate (opened.length + 1) (k.attemptOpen (k.nested depth) call source)) w =
      (opened.map .ok ++ [.error cause], w₁) ∧
    inTurn (opened.map (k.attemptClose (k.nested depth) call)) w₁ = (rs, w') ∧
    eventsOf call (w.since w') =
      openingEvents source opened ++ [.opening source, .openFailed source] ++ closingEvents opened rs

/-- What holds of an acquisition with the result `r`, from the world `w` to `w'`. -/
structure AllOrNothing (k : Surroundings ε) (depth call s : Nat) (name : String) (count : Nat)
    (w : World ε) (r : Except Error (List Connection)) (w' : World ε) : Prop where
  /-- Arguments that make no sense are refused, and nothing happens: no question is asked, and there
  is no event. -/
  unnamed : name = "" →
    r = .error (.invalidArgument "data source name must not be empty") ∧ w' = w
  uncounted : name ≠ "" → count = 0 →
    r = .error (.invalidArgument "connection count must be at least 1") ∧ w' = w
  /-- If there is no route table and none can be built, this is what it fails with. -/
  unbuilt : name ≠ "" → count ≠ 0 → ∀ e w₁, (w.session s).router.routes = none →
    buildRoutes (k.cluster.logged call) (w.session s).router.schema w = (.error e, w₁) →
      r = .error e ∧ OnlyLooks call w w'
  /-- If the name stands for nothing, it fails with that. -/
  unknown : name ≠ "" → count ≠ 0 → ∀ routes w₁,
    World.resolveRoutes (k.cluster.logged call) s w = (.ok routes, w₁) →
      sourceOf routes (k.cluster.physical w₁.env (w₁.session s).router.schema) name = none →
        r = .error (.unknownDataSource name) ∧ OnlyLooks call w w'
  /-- Else it fails if and only if an attempt to open fails, and is then rolled back. -/
  rolledBack : name ≠ "" → count ≠ 0 → ∀ routes w₀ source w₁,
    ResolvedBy k.cluster call s name w routes w₀ source w₁ →
      OnlyLooks call w w₁ ∧
      ((∃ e, r = .error e) ↔ ∃ failing, .openFailed failing ∈ eventsOf call (w.since w')) ∧
      ∀ e, r = .error e → ∃ opened cause, e = .acquisitionFailed count opened.length cause ∧
        opened.length < count - (w₁.heldFor s name).length ∧
        k.RollsBack depth call source opened cause w₁ w'
  /-- A failure changes nothing that is held. -/
  untouched : (∃ e, r = .error e) → ∀ t,
    (w'.session t).holdings = replay t (w.session t).holdings (othersOf call (w.since w'))

section Acquiring

variable {s count : Nat} {name : String} {mode : AcquisitionMode}
  {r : Except Error (List Connection)}

theorem log_kept {new : List Entry} (h : w'.log.toList = w.log.toList ++ new)
    (mode : AcquisitionMode) (call s : Nat) (name : String) (opened : List Connection) :
    (if mode.keepsNew then w'.keep call s name opened else w').log.toList =
      w.log.toList ++ (new ++ if mode.keepsNew then [⟨call, .kept s name opened⟩] else []) := by
  cases mode.keepsNew <;> simp [h]

/-- A name that cannot be resolved ends the acquisition. -/
theorem acquire_unresolved (hcall : call < w.calls)
    (h : World.acquire (k.cluster.logged call) (k.sources (k.nested depth) call) call s name count
      mode w = (r, w')) (hname : name ≠ "") (hcount : count ≠ 0) {e : Error} {w₁ : World ε}
    (hsource : World.resolveSource (k.cluster.logged call) s name w = (.error e, w₁)) :
    r = .error e ∧ OnlyLooks call w w' := by
  rw [acquire_named hname hcount, hsource] at h
  cases h
  exact ⟨rfl, onlyLooks_resolve hcall hsource⟩

/-- A batch that fails, as a stretch. -/
theorem stretch_rolledBack (hcall : call < w.calls) {source : SourceId} {opened : List Connection}
    {cause : Error} {rs : List (Except Error Unit)} {w₁ : World ε}
    (hopen : inTurn (List.replicate (opened.length + 1)
      (k.attemptOpen (k.nested depth) call source)) w = (opened.map .ok ++ [.error cause], w₁))
    (hclose : inTurn (opened.map (k.attemptClose (k.nested depth) call)) w₁ = (rs, w')) :
    ∃ new, Stretch (some call) w w' new ∧ eventsOf call new =
      openingEvents source opened ++ [.opening source, .openFailed source] ++
        closingEvents opened rs := by
  obtain ⟨new, hnew, hown⟩ := stretch_opens hcall hopen
  obtain ⟨new', hnew', hown'⟩ := stretch_closes (Nat.lt_of_lt_of_le hcall hnew.calls_le) hclose
  refine ⟨new ++ new', hnew.append hcall hnew', ?_⟩
  rw [eventsOf_append, hown, hown', List.flatMap_append, map_ok_flatMap]
  rfl

theorem attempt_of_rolledBack {source : SourceId} {opened : List Connection}
    {rs : List (Except Error Unit)} {e : Event}
    (he : e ∈ openingEvents source opened ++ [.opening source, .openFailed source] ++
      closingEvents opened rs) : e.isAttempt = true := by
  rcases List.mem_append.mp he with he | he
  · rcases List.mem_append.mp he with he | he
    · exact attempt_of_opening he
    · rcases List.mem_cons.mp he with rfl | he
      · rfl
      · rw [List.mem_singleton.mp he]
        rfl
  · exact attempt_of_closing he

theorem leavesHeld_of_rolledBack {source : SourceId} {opened : List Connection}
    {rs : List (Except Error Unit)} {e : Event}
    (he : e ∈ openingEvents source opened ++ [.opening source, .openFailed source] ++
      closingEvents opened rs) : e.leavesHeld = true :=
  leavesHeld_of_attempt e (attempt_of_rolledBack he)

/-- An acquisition that fails has left what is held to others. -/
theorem acquire_untouched (hcall : call < w.calls)
    (h : World.acquire (k.cluster.logged call) (k.sources (k.nested depth) call) call s name count
      mode w = (r, w')) (hfailed : ∃ e, r = .error e) (t : Nat) :
    (w'.session t).holdings = replay t (w.session t).holdings (othersOf call (w.since w')) := by
  have hnone : ∀ u : World ε,
      (u.session t).holdings = replay t (u.session t).holdings (othersOf call (u.since u)) := by
    intro u
    rw [since_self]
    rfl
  obtain ⟨e, rfl⟩ := hfailed
  cases acquires h with
  | unnamed => exact hnone w
  | uncounted => exact hnone w
  | unresolved _ _ hsource =>
      obtain ⟨new, hnew, hlooks⟩ := stretch_resolve hcall hsource
      rw [since_eq hnew.log_eq]
      exact held_of_stretch hnew (fun e he => leavesHeld_of_lookup e (hlooks e he)) t
  | rolledBack _ _ hsource _ hopen hclose =>
      obtain ⟨new, hnew, hlooks⟩ := stretch_resolve hcall hsource
      obtain ⟨new', hnew', hown⟩ :=
        stretch_rolledBack (Nat.lt_of_lt_of_le hcall hnew.calls_le) hopen hclose
      have hboth := hnew.append hcall hnew'
      rw [since_eq hboth.log_eq]
      refine held_of_stretch hboth (fun e he => ?_) t
      rw [eventsOf_append, hown] at he
      exact (List.mem_append.mp he).elim (fun he => leavesHeld_of_lookup e (hlooks e he))
        leavesHeld_of_rolledBack

/-- An acquisition whose name is resolved fails if and only if an attempt to open fails. -/
theorem acquire_resolved (hcall : call < w.calls)
    (h : World.acquire (k.cluster.logged call) (k.sources (k.nested depth) call) call s name count
      mode w = (r, w')) (hname : name ≠ "") (hcount : count ≠ 0) {source : SourceId} {w₁ : World ε}
    (hsource : World.resolveSource (k.cluster.logged call) s name w = (.ok source, w₁)) :
    ((∃ e, r = .error e) ↔ ∃ failing, .openFailed failing ∈ eventsOf call (w.since w')) ∧
      ∀ e, r = .error e → ∃ opened cause, e = .acquisitionFailed count opened.length cause ∧
        opened.length < count - (w₁.heldFor s name).length ∧
        k.RollsBack depth call source opened cause w₁ w' := by
  obtain ⟨new, hnew, hlooks⟩ := stretch_resolve hcall hsource
  have hcall₁ := Nat.lt_of_lt_of_le hcall hnew.calls_le
  -- the lookup attempts to open nothing
  have hquiet : ∀ failing, .openFailed failing ∉ eventsOf call new :=
    fun failing he => by cases hlooks _ he
  cases acquires h with
  | unnamed h' => exact absurd h' hname
  | uncounted _ h' => exact absurd h' hcount
  | unresolved _ _ hsource' =>
      rw [hsource] at hsource'
      cases hsource'
  | reused _ _ hsource' =>
      rw [hsource] at hsource'
      cases hsource'
      rw [since_eq hnew.log_eq]
      refine ⟨⟨?_, ?_⟩, ?_⟩
      · rintro ⟨e, ⟨⟩⟩
      · rintro ⟨failing, he⟩
        exact absurd he (hquiet failing)
      · rintro e ⟨⟩
  | @rolledBack _ w₂ _ _ opened cause rs _ _ hsource' hfewer hopen hclose =>
      rw [hsource] at hsource'
      cases hsource'
      obtain ⟨new', hnew', hown⟩ := stretch_rolledBack hcall₁ hopen hclose
      have hboth := hnew.append hcall hnew'
      have hrs : rs.length = opened.length := by simpa using length_of_inTurn hclose
      refine ⟨⟨fun _ => ⟨source, ?_⟩, fun _ => ⟨_, rfl⟩⟩, ?_⟩
      · rw [since_eq hboth.log_eq, eventsOf_append, hown]
        simp
      · rintro e ⟨⟩
        refine ⟨opened, cause, rfl, hfewer, rs, w₂, hrs, hopen, hclose, ?_⟩
        rw [since_eq hnew'.log_eq, hown]
  | @opened _ w₂ _ opened _ _ hsource' _ _ hopen =>
      rw [hsource] at hsource'
      cases hsource'
      obtain ⟨new', hnew', hown⟩ := stretch_opens hcall₁ hopen
      rw [map_ok_flatMap] at hown
      have hboth := hnew.append hcall hnew'
      refine ⟨⟨?_, ?_⟩, ?_⟩
      · rintro ⟨e, ⟨⟩⟩
      · rintro ⟨failing, he⟩
        rw [since_eq (log_kept hboth.log_eq mode call s name opened), eventsOf_append,
          eventsOf_append, hown] at he
        rcases List.mem_append.mp he with he | he
        · rcases List.mem_append.mp he with he | he
          · exact absurd he (hquiet failing)
          · rcases mem_openingEvents he with heq | ⟨c, heq⟩ <;> cases heq
        · cases mode <;> simp [AcquisitionMode.keepsNew, eventsOf] at he
      · rintro e ⟨⟩

end Acquiring

/-- Acquisitions are all or nothing, whatever runs inside their attempts. -/
theorem acquire_allOrNothing (k : Surroundings ε) (depth : Nat) {call s count : Nat} {name : String}
    {mode : AcquisitionMode} {w w' : World ε} {r : Except Error (List Connection)}
    (hcall : call < w.calls)
    (h : World.acquire (k.cluster.logged call) (k.sources (k.nested depth) call) call s name count
      mode w = (r, w')) : k.AllOrNothing depth call s name count w r w' where
  unnamed := by
    intro hname
    rw [acquire_unnamed hname] at h
    cases h
    exact ⟨rfl, rfl⟩
  uncounted := by
    intro hname hcount
    rw [acquire_uncounted hname hcount] at h
    cases h
    exact ⟨rfl, rfl⟩
  unbuilt := by
    intro hname hcount e w₁ hroutes hbuild
    have hsource : World.resolveSource (k.cluster.logged call) s name w = (.error e, w₁) :=
      resolveSource_of_error (resolveRoutes_error.mpr ⟨hroutes, hbuild⟩)
    exact acquire_unresolved hcall h hname hcount hsource
  unknown := by
    intro hname hcount routes w₁ hroutes hnone
    exact acquire_unresolved hcall h hname hcount (resolveSource_of_none hroutes hnone)
  rolledBack := by
    rintro hname hcount routes w₀ source w₁ ⟨hroutes, hsome, rfl⟩
    have hsource : World.resolveSource (k.cluster.logged call) s name w = _ :=
      resolveSource_of_some hroutes hsome
    exact ⟨onlyLooks_resolve hcall hsource, acquire_resolved hcall h hname hcount hsource⟩
  untouched := acquire_untouched hcall h

/-- The source opens no third connection, and the second is the one that a nested call gets. -/
theorem overlapped_allOrNothing :
    Stage.surroundings.AllOrNothing 1 2 0 "ds" 3 (Stage.overlapped (some 2))
      (.error (.acquisitionFailed 3 1 Stage.connectionRefused))
      (Stage.overlappedResult (some 2)).2 := by
  have hresult : (Stage.overlappedResult (some 2)).1 =
      .error (.acquisitionFailed 3 1 Stage.connectionRefused) := by decide +kernel
  rw [← hresult]
  unfold Stage.overlappedResult
  exact acquire_allOrNothing Stage.surroundings 1 (by decide +kernel) (Prod.eta _).symm

/-! ## Exact batches -/

/-- How an acquisition serves a request from the world `w` to `w'`. Its name is resolved in `w₁`,
where it reads what is held; the batch is complete in `w₂`. -/
structure ExactBatch (k : Surroundings ε) (depth call s : Nat) (name : String) (count : Nat)
    (mode : AcquisitionMode) (w w₁ w₂ : World ε) (source : SourceId) (opened cs : List Connection)
    (w' : World ε) : Prop where
  resolved : ∃ routes w₀, ResolvedBy k.cluster call s name w routes w₀ source w₁
  looked : OnlyLooks call w w₁
  /-- As many as were asked for. -/
  length_eq : cs.length = count
  /-- What is held comes first, in its order, then what was opened. -/
  batch_eq : cs = (w₁.heldFor s name).take (min count (w₁.heldFor s name).length) ++ opened
  /-- One attempt for each that is missing, from one source, and all of them successes. -/
  opened_length : opened.length = count - (w₁.heldFor s name).length
  attempts : inTurn (List.replicate (count - (w₁.heldFor s name).length)
    (k.attemptOpen (k.nested depth) call source)) w₁ = (opened.map .ok, w₂)
  events_eq : eventsOf call (w₁.since w₂) = openingEvents source opened
  /-- Until then what is held is the doing of others. -/
  untouched : ∀ t, (w₂.session t).holdings =
    replay t (w₁.session t).holdings (othersOf call (w₁.since w₂))
  /-- New connections that are to be kept join what is held by then, under their name alone. -/
  kept : mode = .memoryStrictly → (w₁.heldFor s name).length < count →
    w₂.since w' = [⟨call, .kept s name opened⟩] ∧
      w'.heldFor s name = w₂.heldFor s name ++ opened ∧
      (∀ other, other ≠ name → w'.heldFor s other = w₂.heldFor s other) ∧
      ∀ t, t ≠ s → (w'.session t).holdings = (w₂.session t).holdings
  unkept : mode = .connectionStrictly ∨ count ≤ (w₁.heldFor s name).length → w' = w₂

section Keeping

variable {s : Nat} {name other : String} {batch : List Connection}

theorem heldFor_keep (hs : s < w.sessions.length) :
    (w.keep call s name batch).heldFor s name = w.heldFor s name ++ batch := by
  rw [World.heldFor, World.holdings_keep hs, Event.onHeld, if_pos rfl, Holdings.heldFor_hold,
    if_pos rfl]
  rfl

theorem heldFor_keep_of_ne (hs : s < w.sessions.length) (hother : other ≠ name) :
    (w.keep call s name batch).heldFor s other = w.heldFor s other := by
  rw [World.heldFor, World.holdings_keep hs, Event.onHeld, if_pos rfl, Holdings.heldFor_hold,
    if_neg hother]
  rfl

theorem holdings_keep_of_ne (hs : s < w.sessions.length) {t : Nat} (ht : t ≠ s) :
    ((w.keep call s name batch).session t).holdings = (w.session t).holdings := by
  rw [World.holdings_keep hs, Event.onHeld, if_neg ht.symm]

end Keeping

/-- An acquisition that succeeds hands out an exact batch. -/
theorem acquire_exactBatch (k : Surroundings ε) (depth : Nat) {call s count : Nat} {name : String}
    {mode : AcquisitionMode} {w w' : World ε} {cs : List Connection} (hcall : call < w.calls)
    (hs : s < w.sessions.length)
    (h : World.acquire (k.cluster.logged call) (k.sources (k.nested depth) call) call s name count
      mode w = (.ok cs, w')) :
    ∃ w₁ w₂ source opened,
      k.ExactBatch depth call s name count mode w w₁ w₂ source opened cs w' := by
  cases acquires h with
  | @reused _ source _ _ hsource henough =>
      have hlooks := onlyLooks_resolve hcall hsource
      have hzero : count - (w'.heldFor s name).length = 0 := Nat.sub_eq_zero_of_le henough
      refine ⟨w', w', source, [], resolveSource_ok hsource, hlooks, ?_, ?_, ?_, ?_, ?_, ?_, ?_, ?_⟩
      · rw [List.length_take, Nat.min_eq_left henough]
      · rw [Nat.min_eq_left henough, List.append_nil]
      · rw [hzero]
        rfl
      · rw [hzero]
        rfl
      · rw [since_self]
        rfl
      · intro t
        rw [since_self]
        rfl
      · intro _ hlt
        omega
      · exact fun _ => rfl
  | @opened w₁ w₂ source opened _ _ hsource hshort hlen hopen =>
      have hlooks := onlyLooks_resolve hcall hsource
      have hcall₁ : call < w₁.calls := Nat.lt_of_lt_of_eq hcall hlooks.calls_eq.symm
      obtain ⟨new, hnew, hown⟩ := stretch_opens hcall₁ hopen
      rw [map_ok_flatMap] at hown
      have hs₂ : s < w₂.sessions.length :=
        Nat.lt_of_lt_of_le (Nat.lt_of_lt_of_le hs hlooks.sessions_le) hnew.sessions_le
      refine ⟨w₁, w₂, source, opened, resolveSource_ok hsource, hlooks, ?_, ?_, hlen, ?_, ?_, ?_,
        ?_, ?_⟩
      · rw [List.length_append, hlen]
        omega
      · rw [Nat.min_eq_right (Nat.le_of_lt hshort), List.take_length]
      · rw [← hlen]
        exact hopen
      · rw [since_eq hnew.log_eq, hown]
      · rw [since_eq hnew.log_eq]
        refine held_of_stretch hnew fun e he => ?_
        rw [hown] at he
        exact leavesHeld_of_attempt e (attempt_of_opening he)
      · rintro rfl _
        exact ⟨since_eq (World.log_keep w₂ call s name opened), heldFor_keep hs₂,
          fun other hother => heldFor_keep_of_ne hs₂ hother,
          fun t ht => holdings_keep_of_ne hs₂ ht⟩
      · rintro (rfl | henough)
        · rfl
        · omega

theorem overlapped_exactBatch :
    ∃ w₁ w₂ source opened, Stage.surroundings.ExactBatch 1 2 0 "ds" 3 .memoryStrictly
      (Stage.overlapped none) w₁ w₂ source opened [⟨0, 0⟩, ⟨0, 2⟩, ⟨0, 3⟩]
      (Stage.overlappedResult none).2 := by
  have hresult : (Stage.overlappedResult none).1 = .ok [⟨0, 0⟩, ⟨0, 2⟩, ⟨0, 3⟩] := by
    decide +kernel
  unfold Stage.overlappedResult at hresult ⊢
  refine acquire_exactBatch Stage.surroundings 1 (by decide +kernel) (by decide +kernel) ?_
  rw [← hresult]
  exact (Prod.eta _).symm

end Surroundings

end SessionBroker
