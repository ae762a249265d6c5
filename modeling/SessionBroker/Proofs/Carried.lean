import SessionBroker.Proofs.Tour

/-!
# Carried along a tour

What holds along a tour is proved once for each kind of thing that a step does: a relation that is
carried along (`Carried`) relates the two ends of every step, and so of every run (`carried_run`).

A tour misses no call and visits none twice, and the worlds on it are moments of the one run that
the final log tells of (`accounted_run`). An invariant holds in all of them (`carried_invariant`).
-/

namespace SessionBroker

/-! ## Carried along -/

/-- No route table changes, and no session comes to hold a name. -/
structure World.Undisturbed {ε : Type} (w w' : World ε) : Prop where
  routers_eq : w'.routers = w.routers
  router_eq : ∀ s, (w'.session s).router = (w.session s).router
  names_subset : ∀ s, (w'.session s).holdings.names ⊆ (w.session s).holdings.names

theorem World.Undisturbed.of_unseen {ε : Type} {w w' : World ε} (hsessions : w'.sessions = w.sessions)
    (hrouters : w'.routers = w.routers) : w.Undisturbed w' := by
  have hsession : ∀ s, w'.session s = w.session s := by
    intro s
    rw [World.session, World.session, hsessions]
  exact ⟨hrouters, fun s => by rw [hsession], fun s => by rw [hsession]; exact List.Subset.refl _⟩

theorem World.undisturbed_drain {ε : Type} (w : World ε) (call s : Nat) :
    w.Undisturbed (w.drain call s) where
  routers_eq := rfl
  router_eq := by
    intro t
    show ((w.updateSession s _).session t).router = _
    rw [session_updateSession]
    split
    next h => rw [h.1]
    next => rfl
  names_subset := by
    intro t
    show ((w.updateSession s _).session t).holdings.names ⊆ _
    rw [session_updateSession]
    split
    · exact List.nil_subset _
    · exact List.Subset.refl _

namespace Surroundings

variable {ε : Type}

/-- A relation between the worlds before and after, and the steps that begin in between, that is
carried along by all that a step does from when it is ready, and then by the step. -/
structure Carried (k : Surroundings ε) (good : Step ε → Prop)
    (T : World ε → List (Occurrence ε) → World ε → Prop) : Prop where
  refl : ∀ w, T w [] w
  trans : ∀ {w w₁ w' ms ms'}, T w ms w₁ → T w₁ ms' w' → T w (ms ++ ms') w'
  move : ∀ {call w es w'}, (∀ nested step, k.Move nested call step w es w') →
    w.Undisturbed w' → T w [] w'
  /-- What is kept is kept under a name that was resolved. -/
  kept : ∀ {w ms w' call s name batch}, T w ms w' → s < w'.sessions.length →
    (w.session s).router.routes.isSome → T w ms (w'.keep call s name batch)
  step : ∀ {m : Occurrence ε} {ms}, good m.step → T (m.ready k) ms (m.result k).2 →
    T m.world (m :: ms) (m.after k)

section Carrying

variable {k : Surroundings ε} {good : Step ε → Prop}
  {T : World ε → List (Occurrence ε) → World ε → Prop} (hT : k.Carried good T)
  {nested : Step ε → StateM (World ε) Unit} {inside : Step ε → World ε → List (Occurrence ε)}
  {call : Nat} {w w' : World ε}

include hT

/-- A move at the end begins no step. -/
theorem Carried.concat {w₁ : World ε} {ms : List (Occurrence ε)} {es : List Event}
    (h : T w ms w₁) (hmove : ∀ nested step, k.Move nested call step w₁ es w')
    (hstill : w₁.Undisturbed w') : T w ms w' := by
  have hboth := hT.trans h (hT.move hmove hstill)
  rwa [List.append_nil] at hboth

theorem carried_steps {p : Step ε → Prop}
    (hnested : ∀ inner, p inner → ∀ u, T u (inside inner u) (nested inner u).2)
    {steps : List (Step ε)} (hsteps : ∀ inner ∈ steps, p inner) (w : World ε) :
    T w (tourSteps nested inside steps w) (steps.forM nested w).2 := by
  induction steps generalizing w with
  | nil => exact hT.refl w
  | cons inner steps ih =>
      rw [forM_cons_apply, tourSteps]
      have hfirst := hnested inner (hsteps inner List.mem_cons_self) w
      exact hT.trans hfirst (ih (fun i hi => hsteps i (List.mem_cons_of_mem inner hi)) _)

variable (hnested : ∀ inner, k.Cues inner → ∀ u, T u (inside inner u) (nested inner u).2)

include hnested

/-- An attempt begins, and the steps inside it run. -/
theorem carried_begun {e : Event} {env : ε} {steps : List (Step ε)}
    (hmove : ∀ nested step, k.Move nested call step w [e] (w.record call e))
    (hstir : k.Stirs (w.record call e).env env) (hcues : ∀ inner ∈ steps, k.Cues inner) :
    T w (tourSteps nested inside steps { w.record call e with env := env })
      (steps.forM nested { w.record call e with env := env }).2 := by
  have hrecorded : T w [] (w.record call e) := hT.move hmove (.of_unseen rfl rfl)
  have hstirs : ∀ nested step,
      k.Move nested call step (w.record call e) [] { w.record call e with env := env } :=
    fun _ _ => .stir hstir
  have hstirred : T w [] { w.record call e with env := env } :=
    hT.concat hrecorded hstirs (.of_unseen rfl rfl)
  exact hT.trans hstirred (carried_steps hT hnested hcues _)

theorem carried_open {source : SourceId} {r : Except Error Connection}
    (h : k.attemptOpen nested call source w = (r, w')) :
    T w (k.tourOpen nested inside call source w) w' := by
  let w₁ := w.record call (.opening source)
  let w₂ := ((k.beginOpen source w₁.env).1.forM nested
    { w₁ with env := (k.beginOpen source w₁.env).2 }).2
  have hbegun : T w (k.tourOpen nested inside call source w) w₂ :=
    carried_begun hT hnested (fun _ _ => .opening w source) (.beginOpen source w₁.env)
      fun inner hi => ⟨w₁.env, .inl ⟨source, hi⟩⟩
  rcases hf : k.finishOpen source w₂.env with ⟨r₁, env⟩
  rw [attemptOpen_apply] at h
  dsimp only at h
  rw [show k.finishOpen source _ = _ from hf] at h
  cases r₁ with
  | ok c =>
      cases h
      exact hT.concat hbegun (fun _ _ => .opened hf) (.of_unseen rfl rfl)
  | error e =>
      cases h
      exact hT.concat hbegun (fun _ _ => .openFailed hf) (.of_unseen rfl rfl)

theorem carried_close {c : Connection} {r : Except Error Unit}
    (h : k.attemptClose nested call c w = (r, w')) :
    T w (k.tourClose nested inside call c w) w' := by
  let w₁ := w.record call (.closing c)
  let w₂ := ((k.beginClose c w₁.env).1.forM nested
    { w₁ with env := (k.beginClose c w₁.env).2 }).2
  have hbegun : T w (k.tourClose nested inside call c w) w₂ :=
    carried_begun hT hnested (fun _ _ => .closing w c) (.beginClose c w₁.env)
      fun inner hi => ⟨w₁.env, .inr ⟨c, hi⟩⟩
  rcases hf : k.finishClose c w₂.env with ⟨r₁, env⟩
  rw [attemptClose_apply] at h
  dsimp only at h
  rw [show k.finishClose c _ = _ from hf] at h
  cases r₁ with
  | ok u =>
      cases h
      exact hT.concat hbegun (fun _ _ => .closed hf) (.of_unseen rfl rfl)
  | error e =>
      cases h
      exact hT.concat hbegun (fun _ _ => .closeFailed hf) (.of_unseen rfl rfl)

theorem carried_batch (source : SourceId) (n : Nat) (w : World ε) :
    T w (k.tourBatch nested inside call source n w)
      (openUpTo (k.attemptOpen nested call source) n w).2 := by
  induction n generalizing w with
  | zero => exact hT.refl w
  | succ n ih =>
      rcases hopen : k.attemptOpen nested call source w with ⟨r, w₁⟩
      have hfirst := carried_open hT hnested hopen
      simp only [tourBatch, hopen]
      cases r with
      | error e =>
          rw [openUpTo_succ_error n hopen, List.append_nil]
          exact hfirst
      | ok c =>
          rw [openUpTo_succ_ok n hopen]
          exact hT.trans hfirst (ih w₁)

theorem carried_closes (cs : List Connection) (w : World ε) :
    T w (k.tourCloses nested inside call cs w)
      (closeAll (k.attemptClose nested call) cs w).2 := by
  induction cs generalizing w with
  | nil => exact hT.refl w
  | cons c cs ih =>
      rw [tourCloses, closeAll_cons]
      exact hT.trans (carried_close hT hnested rfl) (ih _)

omit hT hnested in
theorem sessions_le_of_resolve {s : Nat} {name : String} {r : Except Error SourceId}
    (h : World.resolveSource (k.cluster.logged call) s name w = (r, w')) :
    w.sessions.length ≤ w'.sessions.length := by
  have hlooks : k.Looks call (World.resolveSource (k.cluster.logged call) s name) :=
    looks_resolveSource s name
  obtain ⟨es, -, hcourse⟩ := hlooks (fun _ => pure ()) (.outside (pure .done)) w
  rw [h] at hcourse
  exact hcourse.sessions_le fun _ _ => Nat.le_refl _

omit hT hnested in
/-- A name that was resolved was resolved with a table. -/
theorem known_of_resolve {s : Nat} {name : String} {source : SourceId} (hs : s < w.sessions.length)
    (h : World.resolveSource (k.cluster.logged call) s name w = (.ok source, w')) :
    (w'.session s).router.routes.isSome := by
  obtain ⟨routes, w₀, hroutes, -, rfl⟩ := resolveSource_ok h
  have htable : w₀.table (.ofSession s) = some routes := World.table_of_lookUp hs hroutes
  exact Option.isSome_iff_exists.mpr ⟨routes, htable⟩

/-- From the world in which the name is resolved. -/
theorem carried_acquire (hgrows : Grows nested) {s count : Nat} {name : String}
    {mode : AcquisitionMode} (hs : s < w.sessions.length) :
    T (if name = "" ∨ count = 0 then w
        else (World.resolveSource (k.cluster.logged call) s name w).2)
      (k.tourAcquire nested inside call s name count w)
      (World.acquire (k.cluster.logged call) (k.sources nested call) call s name count mode w).2 := by
  by_cases hname : name = ""
  · rw [acquire_unnamed hname, tourAcquire, if_pos (.inl hname), if_pos (.inl hname)]
    exact hT.refl w
  by_cases hcount : count = 0
  · rw [acquire_uncounted hname hcount, tourAcquire, if_pos (.inr hcount), if_pos (.inr hcount)]
    exact hT.refl w
  have hboth : ¬ (name = "" ∨ count = 0) := fun h => h.elim hname hcount
  rw [acquire_named hname hcount, tourAcquire, if_neg hboth, if_neg hboth]
  rcases hsource : World.resolveSource (k.cluster.logged call) s name w with ⟨r, w₁⟩
  cases r with
  | error e => exact hT.refl w₁
  | ok source =>
      have hresolved := sessions_le_of_resolve hsource
      have hknown := known_of_resolve hs hsource
      by_cases henough : count ≤ (w₁.heldFor s name).length
      · simp only [if_pos henough, Nat.sub_eq_zero_of_le henough]
        exact hT.refl w₁
      simp only [if_neg henough]
      have hbatch : T w₁ (k.tourBatch nested inside call source _ w₁) _ :=
        carried_batch hT hnested source (count - (w₁.heldFor s name).length) w₁
      rcases hopen : openUpTo (k.attemptOpen nested call source)
        (count - (w₁.heldFor s name).length) w₁ with ⟨⟨opened, failure⟩, w₂⟩
      rw [hopen] at hbatch
      simp only [sources, hopen]
      cases failure with
      | some cause => exact hT.trans hbatch (carried_closes hT hnested opened w₂)
      | none =>
          have hcourse : k.Course nested call (.outside (pure .done)) w₁ _ w₂ :=
            opens_course (openUpTo_none hopen).2
          have hs₂ : s < w₂.sessions.length :=
            Nat.lt_of_lt_of_le (Nat.lt_of_lt_of_le hs hresolved) (hcourse.sessions_le hgrows)
          rw [List.append_nil]
          show T w₁ _ (if mode.keepsNew then w₂.keep call s name opened else w₂)
          split
          · exact hT.kept hbatch hs₂ hknown
          · exact hbatch

theorem carried_release {s : Nat} (hs : s < w.sessions.length) :
    T w (k.tourCloses nested inside call ((w.session s).holdings.entries.flatMap Prod.snd)
        (w.drain call s))
      (World.release (k.sources nested call) call s w).2 := by
  have hdrained : T w [] (w.drain call s) :=
    hT.move (fun _ _ => .drained hs) (World.undisturbed_drain w call s)
  have hcloses : T (w.drain call s) (k.tourCloses nested inside call _ (w.drain call s)) _ :=
    carried_closes hT hnested ((w.session s).holdings.entries.flatMap Prod.snd) (w.drain call s)
  rw [closeAll_eq] at hcloses
  rw [release_eq]
  exact hT.trans hdrained hcloses

/-- From the world in which the step is ready. -/
theorem carried_outcome (hgrows : Grows nested) (step : Step ε) (w : World ε) :
    T (k.ready (k.sources nested call) call step w) (k.tourInside nested inside call step w)
      (k.outcome (k.sources nested call) call step w).2 := by
  cases step with
  | outside a => exact hT.refl _
  | closeConnection find =>
      simp only [ready, tourInside, outcome, stateM_bind_apply, stateM_get_apply]
      rcases hfind : find w.env with _ | c
      · exact hT.refl w
      · rcases hclose : k.attemptClose nested call c w with ⟨r, w₁⟩
        have hclosed := carried_close hT hnested hclose
        simp only [settle_apply, Action.bind_apply]
        rw [show (k.sources nested call).closeOne c w = _ from hclose]
        cases r with
        | ok u => exact hclosed
        | error e => exact hclosed
  | call c =>
      rw [outcome_call]
      by_cases hpossible : isPossible w c = true
      · rw [if_pos hpossible]
        by_cases hc : c.inspects = true
        · have hnone : k.tourInside nested inside call (.call c) w = [] := by
            simp only [tourInside, if_pos hpossible]
            cases c <;> first | rfl | cases hc
          rw [ready_inspects hpossible hc, hnone]
          exact hT.refl _
        · cases c with
          | acquire s name count mode =>
              rw [ready_acquire hpossible, answer_acquire]
              simp only [tourInside, if_pos hpossible]
              exact carried_acquire hT hnested hgrows (isPossible_session rfl hpossible)
          | release s =>
              rw [ready_release, answer_release]
              simp only [tourInside, if_pos hpossible]
              exact carried_release hT hnested (isPossible_session rfl hpossible)
          | _ => exact absurd rfl hc
      · rw [ready_impossible hpossible, if_neg hpossible]
        simp only [tourInside, if_neg hpossible]
        exact hT.refl w

omit hnested in
/-- What is carried along by the steps inside attempts is carried along by a step. -/
theorem carried_tour {depth : Nat}
    (hnested : ∀ inner, k.Cues inner → ∀ u,
      T u (k.tourNested depth inner u) (k.nested depth inner u).2)
    {step : Step ε} (hstep : good step) (w : World ε) :
    T w (k.tour depth step w) (k.exec depth step w).2 := by
  rw [tour_eq]
  exact hT.step (m := ⟨depth, step, w⟩) hstep (carried_outcome hT hnested
    (stretches_nested k depth).grows step (w.began (call? step)))

variable (hcues : ∀ inner, k.Cues inner → good inner)

include hcues

omit hnested in
theorem carried_nested (depth : Nat) :
    ∀ inner, k.Cues inner → ∀ u, T u (k.tourNested depth inner u) (k.nested depth inner u).2 := by
  induction depth with
  | zero => exact fun inner _ u => hT.refl u
  -- the steps that nest in `inner` are those one level down
  | succ depth ih => exact fun inner hcue u => carried_tour hT ih (hcues inner hcue) u

omit hnested in
/-- What is carried along by all that steps do is carried along by a run, however deep steps nest
in it. -/
theorem carried_run (depth : Nat) {steps : List (Step ε)} (hsteps : ∀ step ∈ steps, good step)
    (w : World ε) : T w (k.tourRun depth steps w) (k.run depth steps w) :=
  carried_steps hT (p := good)
    (fun _ hstep u => carried_tour hT (carried_nested hT hcues depth) hstep u) hsteps w

end Carrying

end Surroundings

/-! ## Accounts -/

namespace Surroundings

variable {ε : Type} {k : Surroundings ε}

/-- Each call of a piece of a run is visited once, in the order of their numbers, and what the log
says at its beginning and at its end is what it says then. -/
structure Accounted (k : Surroundings ε) (w : World ε) (ms : List (Occurrence ε)) (w' : World ε) :
    Prop where
  numbers_eq : ms.map Occurrence.number = List.range' w.calls (w'.calls - w.calls)
  calls_le : w.calls ≤ w'.calls
  log_le : w.log.toList <+: w'.log.toList
  logs_le : ∀ m ∈ ms, w.log.toList <+: m.world.log.toList ∧
    (m.after k).log.toList <+: w'.log.toList

section Accounts

variable {w w₁ w' : World ε} {ms ms' : List (Occurrence ε)} {call : Nat} {step : Step ε}
  {es : List Event}

/-- With a handler that does nothing, a course adds to the log what the step does itself. -/
theorem log_of_course (h : k.Course (fun _ => pure ()) call step w es w') :
    w.log.toList <+: w'.log.toList := by
  refine h.keeps (I := fun u => w.log.toList <+: u.log.toList) ?_ (List.prefix_refl _)
  intro u es u' hmove hu
  refine hu.trans ?_
  cases hmove with
  | stir => exact List.prefix_refl _
  | outside => exact List.prefix_refl _
  | asked => exact List.prefix_refl _
  | nested => exact List.prefix_refl _
  | routed => exact List.prefix_refl _
  | routerRouted => exact List.prefix_refl _
  | newSession => exact List.prefix_refl _
  | newRouter => exact List.prefix_refl _
  | kept => exact ⟨_, (World.log_keep _ _ _ _ _).symm⟩
  | drained => exact ⟨_, (World.log_drain _ _ _).symm⟩
  | _ => exact ⟨_, (World.log_record _ _ _).symm⟩

theorem Accounted.of_still (hcalls : w'.calls = w.calls) (hlog : w.log.toList <+: w'.log.toList) :
    k.Accounted w [] w' where
  numbers_eq := by rw [hcalls, Nat.sub_self]; rfl
  calls_le := Nat.le_of_eq hcalls.symm
  log_le := hlog
  logs_le := by simp

theorem Accounted.trans (h : k.Accounted w ms w₁) (h' : k.Accounted w₁ ms' w') :
    k.Accounted w (ms ++ ms') w' where
  numbers_eq := by
    have hle := h.calls_le
    have hle' := h'.calls_le
    rw [List.map_append, h.numbers_eq, h'.numbers_eq]
    have hmid : w₁.calls = w.calls + 1 * (w₁.calls - w.calls) := by omega
    have hsum : w'.calls - w.calls = (w₁.calls - w.calls) + (w'.calls - w₁.calls) := by omega
    rw [hsum, ← List.range'_append, ← hmid]
  calls_le := Nat.le_trans h.calls_le h'.calls_le
  log_le := h.log_le.trans h'.log_le
  logs_le := by
    intro m hm
    rcases List.mem_append.mp hm with hm | hm
    · obtain ⟨hle, hle'⟩ := h.logs_le m hm
      exact ⟨hle, hle'.trans h'.log_le⟩
    · obtain ⟨hle, hle'⟩ := h'.logs_le m hm
      exact ⟨h.log_le.trans hle, hle'⟩

/-- A step, with the account of all that begins in it. -/
theorem Accounted.enclose {m : Occurrence ε} (h : k.Accounted w₁ ms w')
    (hcalls : w₁.calls = m.world.calls + 1) (hlog : m.world.log.toList <+: w₁.log.toList)
    (hcalls' : (m.after k).calls = w'.calls)
    (hlog' : w'.log.toList <+: (m.after k).log.toList) :
    k.Accounted m.world (m :: ms) (m.after k) where
  numbers_eq := by
    have hle := h.calls_le
    have hlen : (m.after k).calls - m.world.calls = (w'.calls - w₁.calls) + 1 := by omega
    rw [List.map_cons, h.numbers_eq, hlen, List.range'_succ, hcalls]
    rfl
  calls_le := by
    have hle := h.calls_le
    omega
  log_le := hlog.trans (h.log_le.trans hlog')
  logs_le := by
    intro x hx
    rcases List.mem_cons.mp hx with rfl | hx
    · exact ⟨List.prefix_refl _, List.prefix_refl _⟩
    · obtain ⟨hle, hle'⟩ := h.logs_le x hx
      exact ⟨hlog.trans hle, hle'.trans hlog'⟩

theorem carried_accounted (k : Surroundings ε) : k.Carried (fun _ => True) k.Accounted where
  refl := fun w => .of_still rfl (List.prefix_refl _)
  trans := .trans
  move := by
    intro call w es w' hmove _
    have hcourse := Course.of_move (hmove (fun _ => pure ()) (.outside (pure .done)))
    exact .of_still (calls_of_course hcourse) (log_of_course hcourse)
  kept := by
    intro w ms w' call s name batch h hs hknown
    have hkept : k.Accounted w' [] (w'.keep call s name batch) :=
      .of_still rfl ⟨_, (World.log_keep w' call s name batch).symm⟩
    have hboth := h.trans hkept
    rwa [List.append_nil] at hboth
  step := by
    intro m ms _ h
    obtain ⟨es, hready⟩ := m.ready_course k fun _ => pure ()
    have hbegun : m.world.log.toList <+: m.begun.log.toList := ⟨_, (World.log_record _ _ _).symm⟩
    refine h.enclose (calls_of_course hready) (hbegun.trans (log_of_course hready)) ?_ ?_
    · rw [m.after_eq]
      rfl
    · rw [m.after_eq, World.log_record]
      exact List.prefix_append _ _

end Accounts

/-- A run visits each of its calls once, in the order in which they begin. -/
theorem accounted_run (k : Surroundings ε) (depth : Nat) (steps : List (Step ε)) (w : World ε) :
    k.Accounted w (k.tourRun depth steps w) (k.run depth steps w) :=
  carried_run (carried_accounted k) (fun _ _ => trivial) depth (fun _ _ => trivial) w

/-- A step takes a number. -/
theorem number_lt (m : Occurrence ε) : m.number < (m.after k).calls := by
  have hnumbers := (k.accounted_run m.depth [m.step] m.world).numbers_eq
  have hvisited := k.mem_tourRun m.depth [] m.step [] m.world
  have hmem : m.number ∈ (k.tourRun m.depth [m.step] m.world).map Occurrence.number :=
    List.mem_map.mpr ⟨_, hvisited, rfl⟩
  rw [hnumbers, List.mem_range'_1] at hmem
  have hafter : (k.run m.depth [m.step] m.world).calls = (m.after k).calls := rfl
  omega

/-- A step that is visited leaves its beginning in the log. -/
theorem begun_of_visited {depth : Nat} {steps : List (Step ε)} {w : World ε} {m : Occurrence ε}
    (hm : m ∈ k.tourRun depth steps w) :
    ⟨m.number, .begun (call? m.step)⟩ ∈ (k.run depth steps w).log.toList := by
  obtain ⟨new, hnew⟩ := m.stretch_result k
  have hbegun : ⟨m.number, .begun (call? m.step)⟩ ∈ m.begun.log.toList := by
    rw [Occurrence.begun, World.began, World.log_record]
    exact List.mem_append_right _ List.mem_cons_self
  refine ((k.accounted_run depth steps w).logs_le m hm).2.subset ?_
  rw [m.after_eq, World.log_record, hnew.log_eq]
  exact List.mem_append_left _ (List.mem_append_left _ hbegun)

/-- What a call leaves in the log of a run, a step that is visited leaves. -/
theorem occurrence_of_event {depth : Nat} {steps : List (Step ε)} {env : ε} {n : Nat} {e : Event}
    (he : ⟨n, e⟩ ∈ (k.run depth steps (.new env)).log.toList) :
    ∃ m ∈ k.tourRun depth steps (.new env), m.number = n ∧
      ⟨n, e⟩ ∈ m.world.since (m.after k) := by
  have haccount := k.accounted_run depth steps (.new env)
  obtain ⟨all, hall⟩ := k.stretch_run depth steps (.new env)
  have hn : n < (k.run depth steps (.new env)).calls := by
    rcases hall.numbered ⟨n, e⟩ (by rwa [← show _ = all from hall.log_eq]) with hnone | hn
    · cases hnone
    · exact hn.2
  have hnumber : n ∈ (k.tourRun depth steps (.new env)).map Occurrence.number := by
    rw [haccount.numbers_eq, List.mem_range'_1]
    exact ⟨Nat.zero_le n, by omega⟩
  obtain ⟨m, hm, rfl⟩ := List.mem_map.mp hnumber
  obtain ⟨hbefore, rest, hafter⟩ := haccount.logs_le m hm
  -- the step is a piece of the log from its beginning to its end
  obtain ⟨new, hnew⟩ := k.stretch_exec m.depth m.step m.world
  have hsince : m.world.since (m.after k) = new := since_eq hnew.log_eq
  have hlog : (k.run depth steps (.new env)).log.toList = m.world.log.toList ++ (new ++ rest) := by
    rw [← hafter, ← List.append_assoc, ← hnew.log_eq]
    rfl
  refine ⟨m, hm, rfl, ?_⟩
  obtain ⟨call, body, o, view, hfinished⟩ := hnew.finished m.number (Nat.le_refl _) (number_lt m)
  obtain ⟨call', body', o', view', ht⟩ := (k.settled_run depth steps env).transcript he
  rw [hlog] at he ht
  rw [hsince, ← mem_eventsOf, ← ht.eventsOf_piece hfinished.events_eq]
  exact mem_eventsOf.mpr he

/-! ## Invariants -/

/-- What moves and steps keep holds in every world that is visited. -/
theorem carried_invariant {good : Step ε → Prop} {I : World ε → Prop}
    (hmove : ∀ {call w es w'}, (∀ nested step, k.Move nested call step w es w') → I w → I w')
    (hready : ∀ {m : Occurrence ε}, good m.step → I m.world → I (m.ready k))
    (hafter : ∀ {m : Occurrence ε}, good m.step → I m.world → I (m.after k)) :
    k.Carried good fun w ms w' => I w → (∀ m ∈ ms, good m.step ∧ I m.world) ∧ I w' where
  refl := fun w hw => ⟨by simp, hw⟩
  trans := by
    intro w w₁ w' ms ms' h h' hw
    obtain ⟨hms, hw₁⟩ := h hw
    obtain ⟨hms', hw'⟩ := h' hw₁
    refine ⟨fun m hm => ?_, hw'⟩
    exact (List.mem_append.mp hm).elim (hms m) (hms' m)
  move := fun hm _ hw => ⟨by simp, hmove hm hw⟩
  kept := by
    intro w ms w' call s name batch h hs _ hw
    obtain ⟨hms, hw'⟩ := h hw
    have hkept : ∀ nested step,
        k.Move nested call step w' [.kept s name batch] (w'.keep call s name batch) :=
      fun _ _ => .kept hs name batch
    exact ⟨hms, hmove hkept hw'⟩
  step := by
    intro m ms hm h hw
    obtain ⟨hms, -⟩ := h (hready hm hw)
    refine ⟨fun x hx => ?_, hafter hm hw⟩
    rcases List.mem_cons.mp hx with rfl | hx
    · exact ⟨hm, hw⟩
    · exact hms x hx

theorem Keeps.closeConnection {E : ε → List Entry → Prop} {step : Step ε} (hk : k.Keeps E step)
    (find : ε → Option Connection) : k.Keeps E (.closeConnection find) :=
  { hk with outside := fun h => by cases h }

theorem Faithful.ready {E : ε → List Entry → Prop} {m : Occurrence ε} (hk : k.Keeps E m.step)
    (hw : k.Faithful E m.world) : k.Faithful E (m.ready k) := by
  obtain ⟨es, hcourse⟩ := m.ready_course k fun _ => pure ()
  exact hcourse.keeps (faithful_move hk fun _ _ _ hu => hu) (faithful_began hk hw)

/-- The worlds that a run visits are those that the log tells of. -/
theorem faithful_tour {E : ε → List Entry → Prop} (hcues : ∀ inner, k.Cues inner → k.Keeps E inner)
    (depth : Nat) {steps : List (Step ε)} (hsteps : ∀ step ∈ steps, k.Keeps E step) {w : World ε}
    (hw : k.Faithful E w) :
    ∀ m ∈ k.tourRun depth steps w, k.Keeps E m.step ∧ k.Faithful E m.world := by
  cases steps with
  | nil => intro m hm; cases hm
  | cons step rest =>
      have hidle := (hsteps step List.mem_cons_self).closeConnection fun _ => none
      have hcarried : k.Carried (k.Keeps E) _ := carried_invariant (I := k.Faithful E)
        (fun hmove hu => faithful_move hidle (fun _ _ _ hv => hv) (hmove (fun _ => pure ()) _) hu)
        Faithful.ready (fun hm hu => faithful_exec hcues _ hm hu)
      exact (carried_run hcarried hcues depth hsteps w hw).1

end Surroundings

end SessionBroker
