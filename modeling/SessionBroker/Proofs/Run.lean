import SessionBroker.Proofs.Transcript

/-!
# Every run is a stretch

Moves become stretches, moves in a row become one stretch, and a whole step becomes one that
names no call under way. The induction over the depth of nesting has nothing left to do but to
hand the stretches of the nested steps on.
-/

namespace SessionBroker

namespace Stretch

variable {ε : Type} {running : Option Nat} {call : Nat} {w w' : World ε} {new : List Entry}

theorem weaken (h : Stretch none w w' new) (running : Option Nat) : Stretch running w w' new :=
  { h with
    numbered := fun e he => .inr ((h.numbered e he).resolve_left (by simp))
    inquired := by
      obtain ⟨asked, heq, hasked⟩ := h.inquired
      exact ⟨asked, heq, fun i hi => .inr ((hasked i hi).resolve_left (by simp))⟩ }

theorem inquired_of_eq (h : w'.inquiries = w.inquiries) :
    ∃ asked, w'.inquiries.toList = w.inquiries.toList ++ asked ∧
      ∀ i ∈ asked, some i.call = running ∨ w.calls ≤ i.call ∧ i.call < w'.calls :=
  ⟨[], by rw [h, List.append_nil], by simp⟩

/-- A change that neither the log nor the questions nor what is held shows. -/
theorem of_unseen (hlog : w'.log = w.log) (hinquiries : w'.inquiries = w.inquiries)
    (hcalls : w'.calls = w.calls) (hsessions : w.sessions.length ≤ w'.sessions.length)
    (hheld : ∀ s, (w'.session s).holdings = (w.session s).holdings) :
    Stretch running w w' [] where
  log_eq := by rw [hlog, List.append_nil]
  calls_le := Nat.le_of_eq hcalls.symm
  sessions_le := hsessions
  numbered := by simp
  inquired := inquired_of_eq hinquiries
  held_eq := hheld
  honest := by simp
  finished := by omega

/-- A question of the call under way. -/
theorem of_asked (w : World ε) (call : Nat) (q : Question) :
    Stretch (some call) w (w.ask call q) [] where
  log_eq := (List.append_nil _).symm
  calls_le := Nat.le_refl _
  sessions_le := Nat.le_refl _
  numbered := by simp
  inquired := ⟨[⟨call, q⟩], by simp [World.ask], by simp⟩
  held_eq := fun _ => rfl
  honest := by simp
  finished := fun n hn hn' => absurd hn' (Nat.not_lt_of_le hn)

/-- A change that comes with one event of the call under way. -/
theorem of_event {e : Event} (hlog : w'.log.toList = w.log.toList ++ [⟨call, e⟩])
    (hinquiries : w'.inquiries = w.inquiries) (hcalls : w'.calls = w.calls)
    (hsessions : w.sessions.length ≤ w'.sessions.length)
    (hheld : ∀ s, (w'.session s).holdings = e.onHeld s (w.session s).holdings)
    (hhonest : ∀ s, e.Honest s (w.session s).holdings) :
    Stretch (some call) w w' [⟨call, e⟩] where
  log_eq := hlog
  calls_le := Nat.le_of_eq hcalls.symm
  sessions_le := hsessions
  numbered := by simp
  inquired := inquired_of_eq hinquiries
  held_eq := hheld
  honest := by
    intro s pre e' post heq
    cases pre with
    | nil =>
        cases heq
        exact hhonest s
    | cons x pre => simp at heq
  finished := by omega

/-- A stretch of a call that is under way, from its beginning to its end. -/
theorem enclose {call : Option Call} {o : Outcome} {view : Option View}
    (h : Stretch (some w.calls) (w.began call) w' new)
    (hscript : Script call (eventsOf w.calls new) o)
    (hsourced : call.isSome → ∀ cs, o = .answered (.connections cs) →
      ∀ c ∈ cs, Sourced (w.began call) new w.calls c)
    (hasked : ∀ s, call = some (.isValid s) →
      o = .refused ∨ ∃ v, view = some v ∧ o = .answered (.flag v.valid)) :
    Stretch none w (w'.record w.calls (.ended o view))
      (⟨w.calls, .begun call⟩ :: (new ++ [⟨w.calls, .ended o view⟩])) := by
  have hcalls : w.calls + 1 ≤ w'.calls := h.calls_le
  have hothers : ∀ n, w.calls < n → eventsOf n (⟨w.calls, .begun call⟩ ::
      (new ++ [⟨w.calls, .ended o view⟩])) = eventsOf n new := by
    intro n hn
    have hne : w.calls ≠ n := by omega
    simp [eventsOf, hne]
  have hsource : ∀ {n c}, Sourced (w.began call) new n c →
      Sourced w (⟨w.calls, .begun call⟩ :: (new ++ [⟨w.calls, .ended o view⟩])) n c := by
    intro n c hc
    unfold Sourced at hc ⊢
    refine hc.imp (fun ho => ?_) (.imp_left fun hk => ?_)
    · obtain ⟨e, he, hmem⟩ := mem_flatMap_eventsOf.mp ho
      exact mem_flatMap_eventsOf.mpr ⟨e, by simp [he], hmem⟩
    · rw [gather_cons, gather_append]
      exact List.mem_append_right _ (List.mem_append_left _ hk)
  refine ⟨?_, by show w.calls ≤ w'.calls; omega, h.sessions_le, ?_, ?_, ?_, ?_, ?_⟩
  · simp [h.log_eq, World.began]
  · intro e he
    refine .inr ?_
    show w.calls ≤ e.call ∧ e.call < w'.calls
    simp only [List.mem_cons, List.mem_append, List.not_mem_nil, or_false] at he
    rcases he with rfl | he | rfl
    · exact ⟨Nat.le_refl _, hcalls⟩
    · rcases h.numbered e he with hrun | ⟨hle, hlt⟩
      · rw [Option.some.inj hrun]
        exact ⟨Nat.le_refl _, hcalls⟩
      · exact ⟨Nat.le_of_succ_le hle, hlt⟩
    · exact ⟨Nat.le_refl _, hcalls⟩
  · obtain ⟨asked, heq, hasked⟩ := h.inquired
    refine ⟨asked, heq, fun i hi => .inr ?_⟩
    show w.calls ≤ i.call ∧ i.call < w'.calls
    rcases hasked i hi with hrun | ⟨hle, hlt⟩
    · rw [Option.some.inj hrun]
      exact ⟨Nat.le_refl _, hcalls⟩
    · exact ⟨Nat.le_of_succ_le hle, hlt⟩
  · intro s
    rw [replay_cons, replay_append]
    exact h.held_eq s
  · intro s pre e post heq
    cases pre with
    | nil =>
        cases heq
        trivial
    | cons x pre =>
        rw [List.cons_append] at heq
        obtain ⟨rfl, htail⟩ := List.cons.inj heq
        rw [replay_cons]
        rcases split_concat htail with ⟨mid, hnew⟩ | ⟨-, rfl⟩
        · exact h.honest s pre e mid hnew
        · trivial
  -- the call that ends here, or one that began and ended inside it
  · intro n hn hn'
    rcases Nat.eq_or_lt_of_le hn with rfl | hn
    · refine ⟨call, _, o, view, ?_, hscript, fun hsome cs ho c hc =>
        hsource (hsourced hsome cs ho c hc), hasked⟩
      rw [eventsOf_cons_self, eventsOf_append]
      simp [eventsOf]
    · obtain ⟨c, body, o', view', hf⟩ := h.finished n hn hn'
      exact ⟨c, body, o', view', by rw [hothers n hn, hf.events_eq], hf.script,
        fun hsome cs ho c hc => hsource (hf.sourced hsome cs ho c hc), hf.asked⟩

end Stretch

namespace Surroundings

section Steps

variable {ε : Type}

/-- A handler that carries every step out in a stretch of its own. -/
def Stretches (nested : Step ε → StateM (World ε) Unit) : Prop :=
  ∀ inner w, ∃ new, Stretch none w (nested inner w).2 new

variable {k : Surroundings ε} {nested : Step ε → StateM (World ε) Unit} {call : Nat}
  {step : Step ε} {w w' : World ε} {es : List Event}

theorem Stretches.grows (h : Stretches nested) : Grows nested := by
  intro inner w
  obtain ⟨new, hnew⟩ := h inner w
  exact hnew.sessions_le

theorem stretch_move (hnested : Stretches nested) (hcall : call < w.calls)
    (h : k.Move nested call step w es w') :
    ∃ new, Stretch (some call) w w' new ∧ eventsOf call new = es := by
  cases h with
  | stir => exact ⟨[], .of_unseen rfl rfl rfl (Nat.le_refl _) fun _ => rfl, rfl⟩
  | outside => exact ⟨[], .of_unseen rfl rfl rfl (Nat.le_refl _) fun _ => rfl, rfl⟩
  | asked q => exact ⟨[], .of_asked w call q, rfl⟩
  | nested =>
      -- the calls of a nested step have numbers of their own, above that of the call under way
      obtain ⟨new, hs⟩ := hnested _ w
      refine ⟨new, hs.weaken _, eventsOf_eq_nil fun e he heq => ?_⟩
      rcases hs.numbered e he with hnone | ⟨hle, -⟩
      · cases hnone
      · omega
  | routed s routes =>
      refine ⟨[], .of_unseen rfl rfl rfl ?_ (World.holdings_keepRoutes w s · routes), rfl⟩
      simp
  | routerRouted => exact ⟨[], .of_unseen rfl rfl rfl (Nat.le_refl _) fun _ => rfl, rfl⟩
  | newSession schema =>
      refine ⟨[], .of_unseen rfl rfl rfl ?_ (World.holdings_addSession w schema), rfl⟩
      simp [World.addSession]
  | newRouter => exact ⟨[], .of_unseen rfl rfl rfl (Nat.le_refl _) fun _ => rfl, rfl⟩
  | @lookup e hlook =>
      refine ⟨_, .of_event (by simp) rfl rfl (Nat.le_refl _) ?_ ?_,
        eventsOf_cons_self call e []⟩
      · cases e <;> first | exact fun _ => rfl | simp [Event.isLookup] at hlook
      · cases e <;> first | exact fun _ => trivial | simp [Event.isLookup] at hlook
  | kept hs name batch =>
      refine ⟨_, .of_event (by simp) rfl rfl ?_ (World.holdings_keep hs call name batch)
        fun _ => trivial, eventsOf_cons_self call _ []⟩
      simp
  | @drained s hs =>
      refine ⟨_, .of_event (by simp) rfl rfl ?_ (World.holdings_drain hs call _) ?_,
        eventsOf_cons_self call _ []⟩
      · simp
      · rintro t rfl
        rfl
  | _ =>
      exact ⟨_, .of_event (World.log_record _ call _) rfl rfl (Nat.le_refl _) (fun _ => rfl)
        fun _ => trivial, eventsOf_cons_self call _ []⟩

theorem stretch_course (hnested : Stretches nested) (hcall : call < w.calls)
    (h : k.Course nested call step w es w') :
    ∃ new, Stretch (some call) w w' new ∧ eventsOf call new = es := by
  induction h with
  | refl w => exact ⟨[], .refl _ w, rfl⟩
  | step hmove _ ih =>
      obtain ⟨new, hs, rfl⟩ := stretch_move hnested hcall hmove
      obtain ⟨new', hs', rfl⟩ := ih (Nat.lt_of_lt_of_le hcall hs.calls_le)
      exact ⟨new ++ new', hs.append hcall hs', eventsOf_append call new new'⟩

/-! ## Calls -/

/-- An action that does not answer with connections. -/
def Reticent (a : Action (World ε) Answer) : Prop :=
  ∀ w cs, (a w).1 ≠ .ok (.connections cs)

theorem Reticent.bind {α : Type} {a : Action (World ε) α} {f : α → Action (World ε) Answer}
    (hf : ∀ x, Reticent (f x)) : Reticent (a >>= f) := by
  intro w cs h
  rw [Action.bind_apply] at h
  rcases ha : a w with ⟨r, w₁⟩
  rw [ha] at h
  cases r with
  | error e => cases h
  | ok x => exact hf x w₁ cs h

theorem Reticent.of_pure {a : Answer} (h : ∀ cs, a ≠ .connections cs) :
    Reticent (pure a : Action (World ε) Answer) := by
  intro w cs heq
  exact h cs (Except.ok.inj heq)

/-- What inspects answers with connections only if asked what is held. -/
theorem answer_connections {sources : Sources (World ε)} {c : Call} (hc : c.inspects = true)
    {cs : List Connection} (h : (k.answer sources call c w).1 = .ok (.connections cs)) :
    ∃ s name, cs = w.heldFor s name := by
  have hreticent : ∀ {a}, Reticent a → (a w).1 = .ok (.connections cs) → False :=
    fun ha heq => ha w cs heq
  cases c with
  | acquire => simp [Call.inspects] at hc
  | release => simp [Call.inspects] at hc
  | held s name =>
      cases h
      exact ⟨s, name, rfl⟩
  | storedProperties schema =>
      refine (hreticent (.bind fun w => ?_) h).elim
      split
      · exact .of_pure (by simp)
      · exact .bind fun _ => .of_pure (by simp)
  | storedNodes kind labels =>
      refine (hreticent (.bind fun w => ?_) h).elim
      split
      · exact .of_pure (by simp)
      · exact .bind fun _ => .of_pure (by simp)
  | storedUsers =>
      refine (hreticent (.bind fun w => ?_) h).elim
      split
      · exact .of_pure (by simp)
      · exact .bind fun _ => .of_pure (by simp)
  | newSession => exact (hreticent (.bind fun _ => .bind fun _ => .of_pure (by simp)) h).elim
  | newRouter => exact (hreticent (.bind fun _ => .bind fun _ => .of_pure (by simp)) h).elim
  | _ => exact (hreticent (.bind fun _ => .of_pure (by simp)) h).elim

theorem looks_answer {sources : Sources (World ε)} {c : Call} (hc : c.inspects = true) :
    k.Looks call (k.answer sources call c) := by
  have hget : k.Looks call (get : Action (World ε) (World ε)) := .of_still fun _ => rfl
  have hbuilds := looks_builds k call
  cases c with
  | acquire => simp [Call.inspects] at hc
  | release => simp [Call.inspects] at hc
  | newSession schema =>
      exact hget.bind fun w _ _ w => ⟨[], by simp, .of_move (.newSession w schema)⟩
  | newRouter schema =>
      exact hget.bind fun w _ _ w => ⟨[], by simp, .of_move (.newRouter w schema)⟩
  | isRouted s name => exact (looks_resolveRoutes s).bind fun _ => .of_still fun _ => rfl
  | routes r =>
      exact (looks_resolve fun _ _ routes w => .routerRouted w r routes).bind
        fun _ => .of_still fun _ => rfl
  | route r name =>
      exact (looks_resolve fun _ _ routes w => .routerRouted w r routes).bind
        fun _ => .of_still fun _ => rfl
  | choices s => exact (looks_candidates s).bind fun _ => .of_still fun _ => rfl
  | physical schema => exact (looks_physical schema).bind fun _ => .of_still fun _ => rfl
  | trafficRule => exact (looks_trafficRule k call).bind fun _ => .of_still fun _ => rfl
  | storedProperties schema =>
      exact hbuilds.registry (.of_still fun _ => rfl) fun r hloads =>
        (hloads.properties schema).bind fun _ => .of_still fun _ => rfl
  | storedNodes kind labels =>
      exact hbuilds.registry (.of_still fun _ => rfl) fun r hloads =>
        (hloads.nodes kind labels).bind fun _ => .of_still fun _ => rfl
  | storedUsers =>
      exact hbuilds.registry (.of_still fun _ => rfl) fun r hloads =>
        hloads.users.bind fun _ => .of_still fun _ => rfl
  | createPools props => exact (hbuilds.createPools props).bind fun _ => .of_still fun _ => rfl
  | _ => exact .of_still fun _ => rfl

/-- What an action came to, as an outcome. -/
def Outcome.ofResult : Except Error Answer → Outcome
  | .ok a => .answered a
  | .error e => .failed e

theorem settle_apply (a : Action (World ε) Answer) (w : World ε) :
    settle a w = (Outcome.ofResult (a w).1, (a w).2) := by
  simp only [settle, stateM_bind_apply, ExceptT.run]
  cases (a w).1 <;> rfl

theorem map_ok_flatMap (source : SourceId) (opened : List Connection) :
    (opened.map Except.ok).flatMap (openEvents source) = openingEvents source opened := by
  rw [openingEvents, List.flatMap_map]

/-- An acquisition looks its name up first, and the rest is attempts; what it hands out was held
in between, or is its own. -/
theorem acquire_course (hnested : Grows nested) {s count : Nat} {name : String}
    {mode : AcquisitionMode} (hs : s < w.sessions.length) {r : Except Error (List Connection)}
    (h : World.acquire (k.cluster.logged call) (k.sources nested call) call s name count mode w =
      (r, w')) :
    ∃ looks w₁ es, (∀ e ∈ looks, e.isLookup = true) ∧ k.Course nested call step w looks w₁ ∧
      k.Course nested call step w₁ es w' ∧
      Script (some (.acquire s name count mode)) (looks ++ es)
        (Outcome.ofResult (r.map .connections)) ∧
      ∀ cs, r = .ok cs → ∀ c ∈ cs, c ∈ w₁.heldFor s name ∨ c ∈ es.flatMap Event.opens := by
  have hresolve : ∀ {q w₁}, World.resolveSource (k.cluster.logged call) s name w = (q, w₁) →
      ∃ looks, (∀ e ∈ looks, e.isLookup = true) ∧ k.Course nested call step w looks w₁ := by
    intro q w₁ hq
    obtain ⟨looks, hlooks, hcourse⟩ := looks_resolveSource s name nested step w
    rw [hq] at hcourse
    exact ⟨looks, hlooks, hcourse⟩
  have hnone : ∀ e ∈ ([] : List Event), e.isLookup = true := by simp
  cases acquires h with
  | unnamed => exact ⟨[], w, [], hnone, .refl w, .refl w, .unresolved hnone _, by simp⟩
  | uncounted => exact ⟨[], w, [], hnone, .refl w, .refl w, .unresolved hnone _, by simp⟩
  | unresolved _ _ hsource =>
      obtain ⟨looks, hlooks, hcourse⟩ := hresolve hsource
      refine ⟨looks, w', [], hlooks, hcourse, .refl w', ?_, by simp⟩
      rw [List.append_nil]
      exact .unresolved hlooks _
  | reused _ _ hsource _ =>
      obtain ⟨looks, hlooks, hcourse⟩ := hresolve hsource
      refine ⟨looks, w', [], hlooks, hcourse, .refl w', ?_, ?_⟩
      · rw [List.append_nil]
        exact .reused hlooks _
      · rintro cs ⟨⟩ c hc
        exact .inl (List.mem_of_mem_take hc)
  | @rolledBack w₁ w₂ _ source opened cause rs _ _ hsource _ hopen hclose =>
      obtain ⟨looks, hlooks, hcourse⟩ := hresolve hsource
      have hopened : k.Course nested call step w₁
          (openingEvents source opened ++ openEvents source (.error cause)) w₂ := by
        have hopens : k.Course nested call step w₁ _ w₂ := opens_course hopen
        simpa [map_ok_flatMap] using hopens
      have hrs : rs.length = opened.length := by simpa using length_of_inTurn hclose
      exact ⟨looks, w₁, _, hlooks, hcourse, hopened.trans (closes_course hclose),
        .rolledBack hlooks source opened cause hrs, by simp⟩
  | @opened w₁ w₂ source opened _ _ hsource _ _ hopen =>
      obtain ⟨looks, hlooks, hcourse⟩ := hresolve hsource
      have hopened : k.Course nested call step w₁ (openingEvents source opened) w₂ := by
        have hopens : k.Course nested call step w₁ _ w₂ := opens_course hopen
        rwa [map_ok_flatMap] at hopens
      -- the session is still there when the attempts are over
      have hs₂ : s < w₂.sessions.length :=
        Nat.lt_of_lt_of_le hs ((hcourse.trans hopened).sessions_le hnested)
      refine ⟨looks, w₁, openingEvents source opened ++
        if mode.keepsNew then [.kept s name opened] else [], hlooks, hcourse, hopened.trans ?_,
        .opened hlooks source (w₁.heldFor s name) opened, ?_⟩
      · cases mode.keepsNew with
        | true => exact .of_move (.kept hs₂ name opened)
        | false => exact .refl w₂
      · rintro cs ⟨⟩ c hc
        refine (List.mem_append.mp hc).imp_right fun hc => ?_
        rw [List.flatMap_append, opens_openingEvents]
        exact List.mem_append_left _ hc

theorem release_course {s : Nat} (hs : s < w.sessions.length) {r : Except Error Unit}
    (h : World.release (k.sources nested call) call s w = (r, w')) (o : Outcome) :
    ∃ es, k.Course nested call step w es w' ∧ Script (some (.release s)) es o := by
  rw [release_eq] at h
  dsimp only at h
  have hdrain : k.Course nested call step w _ (w.drain call s) := .of_move (.drained hs)
  rcases hclose : inTurn (((w.session s).holdings.entries.flatMap Prod.snd).map
    (k.sources nested call).closeOne) (w.drain call s) with ⟨rs, w₁⟩
  rw [hclose] at h
  cases h
  refine ⟨_, hdrain.trans (closes_course hclose), .released _ ?_ o⟩
  simpa using length_of_inTurn hclose

theorem isPossible_session {c : Call} {s : Nat} (hsession : c.session? = some s)
    (h : isPossible w c = true) : s < w.sessions.length := by
  simp only [isPossible, hsession, Option.all_some, Bool.and_eq_true, decide_eq_true_eq] at h
  exact h.1

theorem outcome_call (sources : Sources (World ε)) (c : Call) (w : World ε) :
    k.outcome sources call (.call c) w =
      if isPossible w c then
        (Outcome.ofResult (k.answer sources call c w).1, (k.answer sources call c w).2)
      else (.refused, w) := by
  show (if isPossible w c then settle (k.answer sources call c)
    else pure .refused : StateM (World ε) Outcome) w = _
  by_cases hpossible : isPossible w c = true
  · rw [if_pos hpossible, if_pos hpossible]
    exact settle_apply _ w
  · rw [if_neg hpossible, if_neg hpossible]
    rfl

theorem answer_acquire (sources : Sources (World ε)) (s count : Nat) (name : String)
    (mode : AcquisitionMode) (w : World ε) :
    k.answer sources call (.acquire s name count mode) w =
      let acquired := World.acquire (k.cluster.logged call) sources call s name count mode w
      (acquired.1.map .connections, acquired.2) := by
  simp only [answer, Action.bind_apply]
  rcases World.acquire (k.cluster.logged call) sources call s name count mode w with ⟨r, w₁⟩
  cases r <;> rfl

theorem answer_release (sources : Sources (World ε)) (s : Nat) (w : World ε) :
    k.answer sources call (.release s) w =
      let released := World.release sources call s w
      (released.1.map fun _ => .done, released.2) := by
  simp only [answer, Action.bind_apply]
  rcases World.release sources call s w with ⟨r, w₁⟩
  cases r <;> rfl

/-- A course in two parts that follows a script. What a call hands out was held between them, or is
its own. -/
structure Scripted (k : Surroundings ε) (nested : Step ε → StateM (World ε) Unit) (call : Nat)
    (step : Step ε) (w w₁ w' : World ε) (es es' : List Event) (o : Outcome) : Prop where
  first : k.Course nested call step w es w₁
  rest : k.Course nested call step w₁ es' w'
  script : Script (call? step) (es ++ es') o
  handed : (call? step).isSome → ∀ cs, o = .answered (.connections cs) → ∀ c ∈ cs,
    (∃ s name, c ∈ w₁.heldFor s name) ∨ c ∈ es'.flatMap Event.opens

theorem Scripted.refused (k : Surroundings ε) (nested : Step ε → StateM (World ε) Unit)
    (call : Nat) (step : Step ε) (w : World ε) :
    k.Scripted nested call step w w w [] [] .refused :=
  ⟨.refl w, .refl w, .refused _, by simp⟩

/-- A caller closes a connection. -/
theorem scripted_closeConnection {find : ε → Option Connection} {o : Outcome}
    (h : k.outcome (k.sources nested call) call (.closeConnection find) w = (o, w')) :
    ∃ w₁ es es', k.Scripted nested call (.closeConnection find) w w₁ w' es es' o := by
  simp only [outcome, stateM_bind_apply, stateM_get_apply] at h
  rcases hfind : find w.env with _ | c
  · rw [hfind] at h
    cases h
    exact ⟨w, [], [], .refused k nested call _ w⟩
  · rcases hclose : k.attemptClose nested call c w with ⟨r, w₁⟩
    simp only [hfind, settle_apply, Action.bind_apply] at h
    rw [show (k.sources nested call).closeOne c w = _ from hclose] at h
    have hw : w₁ = w' := by cases r <;> exact (Prod.mk.inj h).2
    subst hw
    exact ⟨w, [], _, .refl w, attemptClose_course hclose, .closed c r o, by simp [call?]⟩

theorem scripted_inspection {c : Call} (hc : c.inspects = true) {r : Except Error Answer}
    (h : k.answer (k.sources nested call) call c w = (r, w')) :
    ∃ w₁ es es', k.Scripted nested call (.call c) w w₁ w' es es' (Outcome.ofResult r) := by
  obtain ⟨es, hes, hcourse⟩ := looks_answer hc nested (.call c) w
  rw [h] at hcourse
  refine ⟨w, [], es, .refl w, hcourse, .inspected hc hes _, fun _ cs ho d hd => ?_⟩
  have hr : r = .ok (.connections cs) := by
    cases r with
    | error e => cases ho
    | ok a =>
        cases ho
        rfl
  obtain ⟨s, name, rfl⟩ := answer_connections hc (by rw [h]; exact hr)
  exact .inl ⟨s, name, hd⟩

theorem scripted_acquisition (hnested : Grows nested) {s count : Nat} {name : String}
    {mode : AcquisitionMode} (hs : s < w.sessions.length) {r : Except Error Answer}
    (h : k.answer (k.sources nested call) call (.acquire s name count mode) w = (r, w')) :
    ∃ w₁ es es', k.Scripted nested call (.call (.acquire s name count mode)) w w₁ w' es es'
      (Outcome.ofResult r) := by
  rcases hacquire : World.acquire (k.cluster.logged call) (k.sources nested call) call s name count
    mode w with ⟨q, w₂⟩
  rw [answer_acquire, hacquire] at h
  cases h
  obtain ⟨looks, w₁, es, -, hlooks, hrest, hscript, hsourced⟩ := acquire_course hnested hs hacquire
  refine ⟨w₁, looks, es, hlooks, hrest, hscript, fun _ cs ho d hd => ?_⟩
  cases q with
  | error e => cases ho
  | ok ds =>
      cases ho
      exact (hsourced cs rfl d hd).imp_left fun hd => ⟨s, name, hd⟩

theorem scripted_release {s : Nat} (hs : s < w.sessions.length) {r : Except Error Answer}
    (h : k.answer (k.sources nested call) call (.release s) w = (r, w')) :
    ∃ w₁ es es', k.Scripted nested call (.call (.release s)) w w₁ w' es es'
      (Outcome.ofResult r) := by
  rcases hrelease : World.release (k.sources nested call) call s w with ⟨q, w₂⟩
  rw [answer_release, hrelease] at h
  cases h
  obtain ⟨es, hcourse, hscript⟩ := release_course hs hrelease _
  refine ⟨w, [], es, .refl w, hcourse, hscript, fun _ cs ho => ?_⟩
  cases q <;> cases ho

/-- Every step follows a script. -/
theorem scripted_outcome (hnested : Grows nested) {o : Outcome}
    (h : k.outcome (k.sources nested call) call step w = (o, w')) :
    ∃ w₁ es es', k.Scripted nested call step w w₁ w' es es' o := by
  cases step with
  | outside a =>
      cases h
      exact ⟨w, [], [], .refl w, .of_move (.outside rfl), .outside _, by simp [call?]⟩
  | closeConnection find => exact scripted_closeConnection h
  | call c =>
      rw [outcome_call] at h
      split at h
      next hpossible =>
        rcases hanswer : k.answer (k.sources nested call) call c w with ⟨r, w₁⟩
        rw [hanswer] at h
        cases h
        by_cases hc : c.inspects = true
        · exact scripted_inspection hc hanswer
        · cases c with
          | acquire s name count mode =>
              exact scripted_acquisition hnested (isPossible_session rfl hpossible) hanswer
          | release s => exact scripted_release (isPossible_session rfl hpossible) hanswer
          | _ => exact absurd rfl hc
      next =>
        cases h
        exact ⟨w, [], [], .refused k nested call _ w⟩

/-- A session that is asked whether it is valid answers what it shows. -/
theorem outcome_isValid {sources : Sources (World ε)} {s : Nat} (hstep : call? step = some (.isValid s))
    {o : Outcome} (h : k.outcome sources call step w = (o, w')) :
    o = .refused ∨ ∃ v, k.view? w' step = some v ∧ o = .answered (.flag v.valid) := by
  cases step with
  | call c =>
      cases hstep
      rw [outcome_call] at h
      split at h
      · cases h
        exact .inr ⟨_, rfl, rfl⟩
      · cases h
        exact .inl rfl
  | _ => cases hstep

theorem perform_apply (k : Surroundings ε) (sources : Nat → Sources (World ε)) (step : Step ε)
    (w : World ε) :
    (k.perform sources step w).2 =
      let outcome := k.outcome (sources w.calls) w.calls step (w.began (call? step))
      outcome.2.record w.calls (.ended outcome.1 (k.view? outcome.2 step)) := rfl

theorem stretch_perform (hnested : Stretches nested) (step : Step ε) (w : World ε) :
    ∃ new, Stretch none w (k.perform (k.sources nested) step w).2 new := by
  have hcall : w.calls < (w.began (call? step)).calls := Nat.lt_succ_self _
  rcases houtcome : k.outcome (k.sources nested w.calls) w.calls step (w.began (call? step)) with
    ⟨o, w₂⟩
  obtain ⟨w₁, es, es', h⟩ := scripted_outcome hnested.grows houtcome
  obtain ⟨new, hnew, rfl⟩ := stretch_course hnested hcall h.first
  obtain ⟨new', hnew', rfl⟩ :=
    stretch_course hnested (Nat.lt_of_lt_of_le hcall hnew.calls_le) h.rest
  have hboth := hnew.append hcall hnew'
  have hscript : Script (call? step) (eventsOf w.calls (new ++ new')) o := by
    rw [eventsOf_append]
    exact h.script
  rw [perform_apply, houtcome]
  refine ⟨_, hboth.enclose hscript (fun hsome cs ho c hc => ?_)
    fun s hstep => outcome_isValid hstep houtcome⟩
  -- what the call found held was held before it or joined in its first part
  refine hnew.sourced_append (.inr ?_)
  rcases h.handed hsome cs ho c hc with ⟨s, name, hheld⟩ | hopened
  · exact .inr (.inr ⟨s, Holdings.mem_all_iff.mpr ⟨name, hheld⟩⟩)
  · exact .inl hopened

end Steps

/-! ## Runs -/

section Runs

variable {ε : Type}

/-- The handler of the steps inside attempts, at most `depth` deep. -/
def nested (k : Surroundings ε) : (depth : Nat) → Step ε → StateM (World ε) Unit
  | 0 => fun _ => pure ()
  | depth + 1 => k.exec depth

theorem exec_eq (k : Surroundings ε) (depth : Nat) (step : Step ε) :
    k.exec depth step = k.perform (k.sources (k.nested depth)) step := by
  cases depth <;> rfl

theorem stretches_nested (k : Surroundings ε) (depth : Nat) : Stretches (k.nested depth) := by
  induction depth with
  | zero => exact fun _ w => ⟨[], .refl none w⟩
  | succ depth ih =>
      -- the steps that nest in `inner` are those of the handler one level down
      intro inner w
      show ∃ new, Stretch none w (k.exec depth inner w).2 new
      rw [exec_eq]
      exact stretch_perform ih inner w

/-- A step is a stretch, however deep steps nest in it. -/
theorem stretch_exec (k : Surroundings ε) (depth : Nat) (step : Step ε) (w : World ε) :
    ∃ new, Stretch none w (k.exec depth step w).2 new :=
  stretches_nested k (depth + 1) step w

/-- Carries steps out one after the other. -/
def run (k : Surroundings ε) (depth : Nat) (steps : List (Step ε)) (w : World ε) : World ε :=
  (steps.forM (k.exec depth) w).2

theorem stretch_run (k : Surroundings ε) (depth : Nat) (steps : List (Step ε)) (w : World ε) :
    ∃ new, Stretch none w (k.run depth steps w) new := by
  induction steps generalizing w with
  | nil => exact ⟨[], .refl none w⟩
  | cons step steps ih =>
      obtain ⟨new, hnew⟩ := stretch_exec k depth step w
      obtain ⟨new', hnew'⟩ := ih (k.exec depth step w).2
      exact ⟨new ++ new', hnew.trans (by simp) hnew'⟩

theorem settled_run (k : Surroundings ε) (depth : Nat) (steps : List (Step ε)) (env : ε) :
    (k.run depth steps (.new env)).Settled := by
  obtain ⟨new, h⟩ := stretch_run k depth steps (.new env)
  have hlog : (k.run depth steps (.new env)).log.toList = new := h.log_eq
  exact ⟨env, by rwa [hlog]⟩

end Runs

end Surroundings

end SessionBroker
