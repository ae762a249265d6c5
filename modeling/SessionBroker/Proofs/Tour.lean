import SessionBroker.Proofs.Acquisition

/-!
# Touring a run

The log tells what happened, and not in which world. Here every step of a run is visited, the
steps inside attempts included, in the order in which they begin: `tour` lists the worlds that they
find. An `Occurrence` is a step with the world that it finds.
-/

namespace SessionBroker

/-- A step of a run as it begins: how deep steps nest in it, and the world that it finds. -/
structure Occurrence (ε : Type) where
  depth : Nat
  step : Step ε
  world : World ε

namespace Surroundings

variable {ε : Type}

/-! ## Tours -/

section Tours

variable (k : Surroundings ε) (nested : Step ε → StateM (World ε) Unit)
  (inside : Step ε → World ε → List (Occurrence ε)) (call : Nat)

/-- The steps of a list, one after the other. -/
def tourSteps : List (Step ε) → World ε → List (Occurrence ε)
  | [], _ => []
  | step :: steps, w => inside step w ++ tourSteps steps (nested step w).2

def tourOpen (source : SourceId) (w : World ε) : List (Occurrence ε) :=
  let begun := w.record call (.opening source)
  let cued := k.beginOpen source begun.env
  tourSteps nested inside cued.1 { begun with env := cued.2 }

def tourClose (c : Connection) (w : World ε) : List (Occurrence ε) :=
  let begun := w.record call (.closing c)
  let cued := k.beginClose c begun.env
  tourSteps nested inside cued.1 { begun with env := cued.2 }

/-- Attempts to open connections, until there are enough or one fails. -/
def tourBatch (source : SourceId) : Nat → World ε → List (Occurrence ε)
  | 0, _ => []
  | n + 1, w =>
    k.tourOpen nested inside call source w ++
      match k.attemptOpen nested call source w with
      | (.ok _, w₁) => tourBatch source n w₁
      | (.error _, _) => []

def tourCloses : List Connection → World ε → List (Occurrence ε)
  | [], _ => []
  | c :: cs, w =>
    k.tourClose nested inside call c w ++ tourCloses cs (k.attemptClose nested call c w).2

def tourAcquire (s : Nat) (name : String) (count : Nat) (w : World ε) : List (Occurrence ε) :=
  if name = "" ∨ count = 0 then []
  else
    match World.resolveSource (k.cluster.logged call) s name w with
    | (.error _, _) => []
    | (.ok source, w₁) =>
      let missing := count - (w₁.heldFor s name).length
      k.tourBatch nested inside call source missing w₁ ++
        match openUpTo (k.attemptOpen nested call source) missing w₁ with
        | ((opened, some _), w₂) => k.tourCloses nested inside call opened w₂
        | ((_, none), _) => []

/-- The steps inside the attempts of a step. -/
def tourInside (step : Step ε) (w : World ε) : List (Occurrence ε) :=
  match step with
  | .outside _ => []
  | .closeConnection find =>
    match find w.env with
    | none => []
    | some c => k.tourClose nested inside call c w
  | .call c =>
    if isPossible w c then
      match c with
      | .acquire s name count _ => k.tourAcquire nested inside call s name count w
      | .release s =>
        k.tourCloses nested inside call ((w.session s).holdings.entries.flatMap Prod.snd)
          (w.drain call s)
      | _ => []
    else []

end Tours

/-- A step and the steps inside its attempts, in the order in which they begin. -/
def tour (k : Surroundings ε) : (depth : Nat) → Step ε → World ε → List (Occurrence ε)
  | 0, step, w =>
    ⟨0, step, w⟩ ::
      k.tourInside (fun _ => pure ()) (fun _ _ => []) w.calls step (w.began (call? step))
  | depth + 1, step, w =>
    ⟨depth + 1, step, w⟩ ::
      k.tourInside (k.exec depth) (k.tour depth) w.calls step (w.began (call? step))

/-- All steps of a run. -/
def tourRun (k : Surroundings ε) (depth : Nat) (steps : List (Step ε)) (w : World ε) :
    List (Occurrence ε) :=
  tourSteps (k.exec depth) (k.tour depth) steps w

/-- The steps inside the attempts of a handled step. -/
def tourNested (k : Surroundings ε) : (depth : Nat) → Step ε → World ε → List (Occurrence ε)
  | 0 => fun _ _ => []
  | depth + 1 => k.tour depth

theorem tour_eq (k : Surroundings ε) (depth : Nat) (step : Step ε) (w : World ε) :
    k.tour depth step w =
      ⟨depth, step, w⟩ ::
        k.tourInside (k.nested depth) (k.tourNested depth) w.calls step (w.began (call? step)) := by
  cases depth <;> rfl

/-- A run visits its own steps, each in the world that those before it lead to. -/
theorem mem_tourRun (k : Surroundings ε) (depth : Nat) (pre : List (Step ε)) (step : Step ε)
    (post : List (Step ε)) (w : World ε) :
    ⟨depth, step, k.run depth pre w⟩ ∈ k.tourRun depth (pre ++ step :: post) w := by
  induction pre generalizing w with
  | nil =>
      refine List.mem_append_left _ ?_
      rw [tour_eq]
      exact List.mem_cons_self
  | cons first pre ih => exact List.mem_append_right _ (ih _)

/-! ## What a step does before its attempts -/

/-- The world in which a step has done all but its attempts and what follows these. -/
def ready (k : Surroundings ε) (sources : Sources (World ε)) (call : Nat) (step : Step ε)
    (w : World ε) : World ε :=
  match step with
  | .outside a => (World.onEnv a w).2
  | .closeConnection _ => w
  | .call c =>
    if isPossible w c then
      match c with
      | .acquire s name count _ =>
        if name = "" ∨ count = 0 then w
        else (World.resolveSource (k.cluster.logged call) s name w).2
      | .release _ => w
      | c => (k.answer sources call c w).2
    else w

section Readiness

variable {k : Surroundings ε} {sources : Sources (World ε)} {call : Nat} {w : World ε} {c : Call}

theorem ready_impossible (h : ¬ isPossible w c = true) : k.ready sources call (.call c) w = w := by
  simp only [ready, if_neg h]

theorem ready_acquire {s count : Nat} {name : String} {mode : AcquisitionMode}
    (h : isPossible w (.acquire s name count mode) = true) :
    k.ready sources call (.call (.acquire s name count mode)) w =
      if name = "" ∨ count = 0 then w
      else (World.resolveSource (k.cluster.logged call) s name w).2 := by
  simp only [ready, if_pos h]

theorem ready_release {s : Nat} : k.ready sources call (.call (.release s)) w = w := by
  simp only [ready]
  split <;> rfl

theorem ready_inspects (h : isPossible w c = true) (hc : c.inspects = true) :
    k.ready sources call (.call c) w = (k.answer sources call c w).2 := by
  simp only [ready, if_pos h]
  cases c <;> first | rfl | cases hc

/-- Until then a step has looked up, or changed the surroundings. -/
theorem ready_course (k : Surroundings ε) (sources : Sources (World ε)) (call : Nat)
    (nested : Step ε → StateM (World ε) Unit) (step : Step ε) (w : World ε) :
    ∃ es, k.Course nested call step w es (k.ready sources call step w) := by
  cases step with
  | outside a => exact ⟨[], .of_move (.outside rfl)⟩
  | closeConnection find => exact ⟨[], .refl w⟩
  | call c =>
      by_cases hpossible : isPossible w c = true
      · by_cases hc : c.inspects = true
        · rw [ready_inspects hpossible hc]
          obtain ⟨es, -, hcourse⟩ := looks_answer hc nested (.call c) w
          exact ⟨es, hcourse⟩
        · cases c with
          | acquire s name count mode =>
              rw [ready_acquire hpossible]
              split
              · exact ⟨[], .refl w⟩
              · obtain ⟨es, -, hcourse⟩ := looks_resolveSource s name nested _ w
                exact ⟨es, hcourse⟩
          | release s =>
              rw [ready_release]
              exact ⟨[], .refl w⟩
          | _ => exact absurd rfl hc
      · rw [ready_impossible hpossible]
        exact ⟨[], .refl w⟩

end Readiness

end Surroundings

/-! ## Occurrences -/

namespace Occurrence

variable {ε : Type}

def number (m : Occurrence ε) : Nat := m.world.calls

/-- The world in which the step has begun. -/
def begun (m : Occurrence ε) : World ε := m.world.began (Surroundings.call? m.step)

/-- What the step comes to, and the world in which it has come to that. -/
def result (k : Surroundings ε) (m : Occurrence ε) : Outcome × World ε :=
  k.outcome (k.sources (k.nested m.depth) m.number) m.number m.step m.begun

/-- The world in which the step has ended. -/
def after (k : Surroundings ε) (m : Occurrence ε) : World ε := (k.exec m.depth m.step m.world).2

/-- The world in which the step has done all but its attempts and what follows these. -/
def ready (k : Surroundings ε) (m : Occurrence ε) : World ε :=
  k.ready (k.sources (k.nested m.depth) m.number) m.number m.step m.begun

/-- Until it is ready, a step has looked up, or changed the surroundings. -/
theorem ready_course (k : Surroundings ε) (m : Occurrence ε)
    (nested : Step ε → StateM (World ε) Unit) :
    ∃ es, k.Course nested m.number m.step m.begun es (m.ready k) :=
  Surroundings.ready_course k _ _ nested m.step m.begun

theorem after_eq (k : Surroundings ε) (m : Occurrence ε) :
    m.after k = (m.result k).2.record m.number
      (.ended (m.result k).1 (k.view? (m.result k).2 m.step)) := by
  rw [after, Surroundings.exec_eq, Surroundings.perform_apply]
  rfl

theorem session_after (k : Surroundings ε) (m : Occurrence ε) (s : Nat) :
    (m.after k).session s = (m.result k).2.session s := by
  rw [m.after_eq]
  rfl

/-- What a step does between its beginning and its end. -/
theorem stretch_result (k : Surroundings ε) (m : Occurrence ε) :
    ∃ new, Stretch (some m.number) m.begun (m.result k).2 new := by
  have hnested := Surroundings.stretches_nested k m.depth
  have hcall : m.number < m.begun.calls := Nat.lt_succ_self _
  obtain ⟨w₁, es, es', h⟩ :=
    Surroundings.scripted_outcome hnested.grows (Prod.eta (m.result k)).symm
  obtain ⟨new, hnew, -⟩ := Surroundings.stretch_course hnested hcall h.first
  obtain ⟨new', hnew', -⟩ :=
    Surroundings.stretch_course hnested (Nat.lt_of_lt_of_le hcall hnew.calls_le) h.rest
  exact ⟨new ++ new', hnew.append hcall hnew'⟩

/-- All that a step adds to the log stands between its beginning and its end. -/
theorem log_after {k : Surroundings ε} {m : Occurrence ε} {new : List Entry}
    (h : (m.result k).2.log.toList = m.begun.log.toList ++ new) :
    (m.after k).log.toList = m.world.log.toList ++
      ⟨m.number, .begun (Surroundings.call? m.step)⟩ :: (new ++
        [⟨m.number, .ended (m.result k).1 (k.view? (m.result k).2 m.step)⟩]) := by
  rw [m.after_eq, World.log_record, h, begun, World.began, World.log_record, List.append_assoc,
    List.append_assoc]
  rfl

theorem since_after {k : Surroundings ε} {m : Occurrence ε} {new : List Entry}
    (h : (m.result k).2.log.toList = m.begun.log.toList ++ new) :
    ∃ view, m.world.since (m.after k) = ⟨m.number, .begun (Surroundings.call? m.step)⟩ ::
      (new ++ [⟨m.number, .ended (m.result k).1 view⟩]) :=
  ⟨k.view? (m.result k).2 m.step, since_eq (log_after h)⟩

/-- What a step adds to the log, apart from its beginning and its end, it adds in between. -/
theorem mem_own_of_since {k : Surroundings ε} {m : Occurrence ε} {e : Event}
    (hbound : e.isBound = false) (h : ⟨m.number, e⟩ ∈ m.world.since (m.after k)) :
    e ∈ eventsOf m.number (m.begun.since (m.result k).2) := by
  obtain ⟨new, hnew⟩ := m.stretch_result k
  obtain ⟨view, hsince⟩ := since_after hnew.log_eq
  rw [hsince, List.mem_cons, List.mem_append, List.mem_singleton] at h
  rw [since_eq hnew.log_eq, mem_eventsOf]
  rcases h with heq | h | heq
  · cases heq
    cases hbound
  · exact h
  · cases heq
    cases hbound

/-- A report is of what the step comes to, what its session then shows, and what happened within. -/
theorem report_eq (k : Surroundings ε) (m : Occurrence ε) :
    k.report m.depth m.step m.world =
      (⟨(m.result k).1, k.view? (m.result k).2 m.step,
        (m.begun.since (m.result k).2).map Entry.event⟩, m.after k) := by
  obtain ⟨new, hnew⟩ := m.stretch_result k
  have hreport : k.report m.depth m.step m.world =
      (.ofEvents (((m.after k).log.extract m.world.log.size (m.after k).log.size).toList.map
        Entry.event), m.after k) := rfl
  have hextract : ((m.after k).log.extract m.world.log.size (m.after k).log.size).toList =
      ⟨m.number, .begun (Surroundings.call? m.step)⟩ :: (new ++
        [⟨m.number, .ended (m.result k).1 (k.view? (m.result k).2 m.step)⟩]) := by
    rw [Array.toList_extract, List.extract_eq_take_drop, ← Array.length_toList,
      ← Array.length_toList, log_after hnew.log_eq, List.drop_left,
      List.take_of_length_le (by simp)]
  rw [hreport, hextract, since_eq hnew.log_eq]
  simp [Record.ofEvents]

/-- A step that was answered with connections, and is an acquisition. -/
theorem acquired_of_result {k : Surroundings ε} {m : Occurrence ε} {s count : Nat} {name : String}
    {mode : AcquisitionMode} {cs : List Connection}
    (hstep : m.step = .call (.acquire s name count mode))
    (hresult : (m.result k).1 = .answered (.connections cs)) :
    s < m.begun.sessions.length ∧
      World.acquire (k.cluster.logged m.number) (k.sources (k.nested m.depth) m.number) m.number s
        name count mode m.begun = (.ok cs, (m.result k).2) := by
  unfold result at hresult ⊢
  rw [hstep, Surroundings.outcome_call] at hresult ⊢
  by_cases hpossible : Surroundings.isPossible m.begun (.acquire s name count mode) = true
  · rw [if_pos hpossible, Surroundings.answer_acquire] at hresult ⊢
    refine ⟨Surroundings.isPossible_session rfl hpossible, ?_⟩
    rcases hacquire : World.acquire (k.cluster.logged m.number)
      (k.sources (k.nested m.depth) m.number) m.number s name count mode m.begun with ⟨r, w'⟩
    rw [hacquire] at hresult
    cases r with
    | error e => cases hresult
    | ok ds =>
        cases hresult
        rfl
  · rw [if_neg hpossible] at hresult
    cases hresult

/-- An acquisition that succeeds is answered with what it hands out. -/
theorem result_of_acquired {k : Surroundings ε} {m : Occurrence ε} {s count : Nat} {name : String}
    {mode : AcquisitionMode} {cs : List Connection}
    (hstep : m.step = .call (.acquire s name count mode))
    (hpossible : Surroundings.isPossible m.begun (.acquire s name count mode) = true)
    (hacquire : (World.acquire (k.cluster.logged m.number) (k.sources (k.nested m.depth) m.number)
      m.number s name count mode m.begun).1 = .ok cs) :
    (m.result k).1 = .answered (.connections cs) := by
  rw [result, hstep, Surroundings.outcome_call, if_pos hpossible, Surroundings.answer_acquire]
  dsimp only
  rw [hacquire]
  rfl

end Occurrence

end SessionBroker
