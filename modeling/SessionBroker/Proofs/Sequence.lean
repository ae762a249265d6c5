import SessionBroker.Proofs.Batch
import SessionBroker.Proofs.Carried

/-!
# One call at a time

No call overlaps another in a run of depth 0, where attempts run no further steps. Then a step is
alone from its beginning to its end: what the log tells is its own doing, and what it does to the
holdings of a session is known. Only releases of the session and acquisitions that keep what they
open change them.
-/

namespace SessionBroker

/-! ## Joining a batch -/

namespace Holdings

variable {κ : Type}

/-- Joins a batch to what is held for a name; nothing changes if it is empty. -/
def join (h : Holdings κ) (name : String) (batch : List κ) : Holdings κ :=
  if batch = [] then h else h.hold name batch

theorem mem_names_of_heldFor {h : Holdings κ} {name : String} (hheld : h.heldFor name ≠ []) :
    name ∈ h.names := by
  refine (OrderedMap.contains_iff_mem_keys h.byName name).mp ?_
  rw [OrderedMap.contains, Option.isSome_iff_ne_none]
  intro hnone
  rw [heldFor, hnone] at hheld
  exact hheld rfl

theorem heldFor_join (h : Holdings κ) (name : String) (batch : List κ) (other : String) :
    (h.join name batch).heldFor other =
      if other = name then h.heldFor name ++ batch else h.heldFor other := by
  unfold join
  by_cases hbatch : batch = []
  · by_cases hother : other = name
    · simp [hbatch, hother]
    · simp [hbatch, hother]
  · rw [if_neg hbatch, heldFor_hold]

/-- The name is known, if something is held for it or joins. -/
theorem names_join {h : Holdings κ} {name : String} {batch : List κ}
    (hsome : h.heldFor name ++ batch ≠ []) :
    (h.join name batch).names = if name ∈ h.names then h.names else h.names ++ [name] := by
  unfold join
  by_cases hbatch : batch = []
  · have hname : name ∈ h.names := by
      refine mem_names_of_heldFor ?_
      rwa [hbatch, List.append_nil] at hsome
    rw [if_pos hbatch, if_pos hname]
  · rw [if_neg hbatch, names_hold]

end Holdings

/-! ## Logs of steps that are alone -/

/-- A session that is not released, and acquires nothing to keep, holds what it held. -/
theorem Script.still {call : Option Call} {body : List Event} {o : Outcome} (h : Script call body o)
    {s : Nat} (hrelease : call ≠ some (.release s))
    (hacquire : ∀ name count cs, call = some (.acquire s name count .memoryStrictly) →
      o ≠ .answered (.connections cs)) :
    ∀ e ∈ body, ∀ held, e.onHeld s held = held := by
  have hleaves : ∀ {e : Event}, e.leavesHeld = true → ∀ held, e.onHeld s held = held :=
    fun he held => onHeld_of_leavesHeld he s held
  intro e he
  cases h with
  | refused => cases he
  | outside => cases he
  | closed c r =>
      rcases mem_closeEvents he with rfl | rfl | rfl <;> exact hleaves rfl
  | inspected _ hlooks => exact hleaves (leavesHeld_of_lookup e (hlooks e he))
  | unresolved hlooks => exact hleaves (leavesHeld_of_lookup e (hlooks e he))
  | reused hlooks => exact hleaves (leavesHeld_of_lookup e (hlooks e he))
  | rolledBack hlooks =>
      rcases List.mem_append.mp he with he | he
      · exact hleaves (leavesHeld_of_lookup e (hlooks e he))
      · exact hleaves (Surroundings.leavesHeld_of_rolledBack he)
  | @opened t count name mode _ hlooks source reused opened =>
      rcases List.mem_append.mp he with he | he
      · exact hleaves (leavesHeld_of_lookup e (hlooks e he))
      rcases List.mem_append.mp he with he | he
      · exact hleaves (leavesHeld_of_attempt e (attempt_of_opening he))
      · cases mode with
        | connectionStrictly => cases he
        | memoryStrictly =>
            have ht : t ≠ s := by
              rintro rfl
              exact hacquire name count _ rfl rfl
            rw [List.mem_singleton.mp he]
            exact fun held => if_neg ht
  | @released t =>
      rcases List.mem_cons.mp he with rfl | he
      · have ht : t ≠ s := by
          rintro rfl
          exact hrelease rfl
        exact fun held => if_neg ht
      · exact hleaves (leavesHeld_of_attempt e (attempt_of_closing he))

theorem replay_still {s : Nat} {es : List Entry}
    (h : ∀ e ∈ es, ∀ held, e.event.onHeld s held = held) (held : Holdings Connection) :
    replay s held es = held := by
  induction es generalizing held with
  | nil => rfl
  | cons e es ih =>
      rw [replay_cons, h e List.mem_cons_self]
      exact ih (fun e he => h e (List.mem_cons_of_mem _ he)) held

theorem gather_of_own {call : Nat} {es : List Entry} (h : ∀ e ∈ es, e.call = call)
    (f : Event → List Connection) : gather f es = (eventsOf call es).flatMap f := by
  induction es with
  | nil => rfl
  | cons e es ih =>
      obtain ⟨n, ev⟩ := e
      cases h _ List.mem_cons_self
      rw [gather_cons, eventsOf_cons_self, List.flatMap_cons,
        ih fun e he => h e (List.mem_cons_of_mem _ he)]

/-! ## Runs without overlaps -/

namespace Surroundings

variable {ε : Type} {k : Surroundings ε} {call s count : Nat} {name : String}
  {mode : AcquisitionMode} {w w' : World ε} {cs : List Connection} {new : List Entry}

theorem run_concat (k : Surroundings ε) (depth : Nat) (steps : List (Step ε)) (step : Step ε)
    (w : World ε) : k.run depth (steps ++ [step]) w = (k.exec depth step (k.run depth steps w)).2 := by
  induction steps generalizing w with
  | nil => rfl
  | cons first steps ih => exact ih _

/-- If attempts run no further steps, no further step is visited. -/
theorem tour_alone (k : Surroundings ε) (step : Step ε) (w : World ε) :
    k.tour 0 step w = [⟨0, step, w⟩] := by
  have hgrows := (stretches_nested k 0).grows
  let m : Occurrence ε := ⟨0, step, w⟩
  have hinside : k.Accounted (m.ready k)
      (k.tourInside (k.nested 0) (fun _ _ => []) m.number step m.begun) (m.result k).2 :=
    carried_outcome (carried_accounted k) (carried_nested (carried_accounted k)
      (fun _ _ => trivial) 0) hgrows step m.begun
  obtain ⟨_, hready⟩ := m.ready_course k fun _ => pure ()
  have hresult : k.outcome (k.sources (k.nested 0) m.number) m.number step m.begun =
    ((m.result k).1, (m.result k).2) := rfl
  obtain ⟨_, _, _, hscripted⟩ := scripted_outcome hgrows hresult
  have hcalls : (m.result k).2.calls = (m.ready k).calls :=
    (calls_of_course (hscripted.first.trans hscripted.rest)).trans (calls_of_course hready).symm
  have hnumbers := hinside.numbers_eq
  rw [hcalls, Nat.sub_self] at hnumbers
  rw [tour_eq]
  exact congrArg (m :: ·) (List.map_eq_nil_iff.mp hnumbers)

theorem tourRun_append (k : Surroundings ε) (depth : Nat) (pre post : List (Step ε)) (w : World ε) :
    k.tourRun depth (pre ++ post) w =
      k.tourRun depth pre w ++ k.tourRun depth post (k.run depth pre w) := by
  induction pre generalizing w with
  | nil => rfl
  | cons first pre ih =>
      show k.tour depth first w ++ k.tourRun depth (pre ++ post) _ = _
      rw [ih, ← List.append_assoc]
      rfl

/-- Without overlaps, a run visits its own steps and no others. -/
theorem tourRun_cons_alone (k : Surroundings ε) (step : Step ε) (steps : List (Step ε))
    (w : World ε) :
    k.tourRun 0 (step :: steps) w = ⟨0, step, w⟩ :: k.tourRun 0 steps (k.exec 0 step w).2 := by
  show k.tour 0 step w ++ _ = _
  rw [tour_alone]
  rfl

theorem step_mem_alone {steps : List (Step ε)} {m : Occurrence ε} (hm : m ∈ k.tourRun 0 steps w) :
    m.step ∈ steps := by
  induction steps generalizing w with
  | nil => cases hm
  | cons step steps ih =>
      rw [tourRun_cons_alone] at hm
      rcases List.mem_cons.mp hm with rfl | hm
      · exact List.mem_cons_self
      · exact List.mem_cons_of_mem step (ih hm)

/-! ## Calls that are alone -/

/-- If no other call begins in a stretch, the entries are the own ones of the call. -/
theorem own_of_stretch (h : Stretch (some call) w w' new) (hcalls : w'.calls = w.calls) :
    ∀ e ∈ new, e.call = call := by
  intro e he
  rcases h.numbered e he with hrun | ⟨hle, hlt⟩
  · exact Option.some.inj hrun
  · omega

/-- What is held after a call that leaves the holdings alone, if no other call begins in it. -/
theorem held_alone (h : Stretch (some call) w w' new) (hcalls : w'.calls = w.calls)
    (hown : ∀ e ∈ eventsOf call new, e.leavesHeld = true) (t : Nat) :
    (w'.session t).holdings = (w.session t).holdings := by
  have hothers : othersOf call new = [] := by
    rw [othersOf, List.filter_eq_nil_iff]
    intro e he
    simp [own_of_stretch h hcalls e he]
  rw [held_of_stretch h hown, hothers, replay_nil]

/-- A release leaves nothing to its session. -/
theorem release_alone (hcall : call < w.calls) (hs : s < w.sessions.length) {r : Except Error Unit}
    (h : World.release (k.sources (k.nested 0) call) call s w = (r, w')) :
    (w'.session s).holdings = .empty := by
  rcases hclose : inTurn (((w.session s).holdings.entries.flatMap Prod.snd).map
    (k.attemptClose (k.nested 0) call)) (w.drain call s) with ⟨rs, w₁⟩
  have hw' : w' = w₁ := by
    rw [release_eq] at h
    have hsnd := congrArg Prod.snd h
    simp only [sources, hclose] at hsnd
    exact hsnd.symm
  have hcourse : k.Course (k.nested 0) call (.outside (pure .done)) (w.drain call s) _ w₁ :=
    closes_course hclose
  have hcall' : call < (w.drain call s).calls := hcall
  obtain ⟨new, hnew, hown⟩ := stretch_closes hcall' hclose
  have hheld := held_alone hnew (calls_of_course hcourse) (fun e he => by
    rw [hown] at he
    exact leavesHeld_of_attempt e (attempt_of_closing he)) s
  rw [hw', hheld, World.holdings_drain hs call (w.session s).holdings.entries]
  exact if_pos rfl

/-- What an acquisition that succeeds alone adds to the holdings. -/
theorem Served.held_alone {opened : List Connection} {w₂ : World ε}
    (h : k.Served 0 call s name count .memoryStrictly cs opened new w w₂ w')
    (hs : s < w.sessions.length) :
    (w'.session s).holdings = (w.session s).holdings.join name opened := by
  have hstill : (w₂.session s).holdings = (w.session s).holdings :=
    Surroundings.held_alone h.stretch (h.alone rfl) h.leavesHeld s
  unfold Holdings.join
  by_cases hopened : opened = []
  · have hw' : w' = w₂ := h.world_eq.trans (if_neg fun hboth => hboth.2 hopened)
    rw [if_pos hopened, hw', hstill]
  · have hs₂ : s < w₂.sessions.length := Nat.lt_of_lt_of_le hs h.stretch.sessions_le
    rw [if_neg hopened, h.kept_eq hopened, World.holdings_keep hs₂, hstill]
    exact if_pos rfl

end Surroundings

namespace Occurrence

variable {ε : Type} {k : Surroundings ε} {m : Occurrence ε} {s count : Nat} {name : String}
  {mode : AcquisitionMode} {cs : List Connection}

/-- All that a step does alone follows its script. -/
theorem turn_alone (hdepth : m.depth = 0) :
    ∃ new, Stretch (some m.number) m.begun (m.result k).2 new ∧ (∀ e ∈ new, e.call = m.number) ∧
      Script (Surroundings.call? m.step) (eventsOf m.number new) (m.result k).1 := by
  have hnested : k.nested m.depth = fun _ => pure () := by
    rw [hdepth]
    rfl
  have hcall : m.number < m.begun.calls := Nat.lt_succ_self m.number
  have hgrows := (Surroundings.stretches_nested k m.depth).grows
  have hresult : k.outcome (k.sources (k.nested m.depth) m.number) m.number m.step m.begun =
    ((m.result k).1, (m.result k).2) := rfl
  obtain ⟨w₁, es, es', hscripted⟩ := Surroundings.scripted_outcome hgrows hresult
  have hcourse := hscripted.first.trans hscripted.rest
  obtain ⟨new, hnew, hown⟩ :=
    Surroundings.stretch_course (Surroundings.stretches_nested k m.depth) hcall hcourse
  rw [hnested] at hcourse
  refine ⟨new, hnew, Surroundings.own_of_stretch hnew (Surroundings.calls_of_course hcourse), ?_⟩
  rw [hown]
  exact hscripted.script

/-- Releases of other sessions, acquisitions that keep nothing and all other calls change nothing. -/
theorem still_alone (hdepth : m.depth = 0) (hrelease : m.step ≠ .call (.release s))
    (hacquire : ∀ name count cs, m.step = .call (.acquire s name count .memoryStrictly) →
      (m.result k).1 ≠ .answered (.connections cs)) :
    ((m.after k).session s).holdings = (m.world.session s).holdings := by
  obtain ⟨new, hnew, hown, hscript⟩ := turn_alone (k := k) hdepth
  have hcall : ∀ {c : Call}, Surroundings.call? m.step = some c → m.step = .call c := by
    intro c hc
    cases hstep : m.step with
    | call d =>
        rw [hstep] at hc
        cases hc
        rfl
    | _ =>
        rw [hstep] at hc
        cases hc
  have hstill := hscript.still (fun h => hrelease (hcall h))
    fun name count cs h => hacquire name count cs (hcall h)
  rw [session_after, hnew.held_eq, replay_still]
  · rfl
  · intro e he
    refine hstill e.event (mem_eventsOf.mpr ?_)
    rwa [← hown e he]

theorem emptied_alone (hdepth : m.depth = 0) (hstep : m.step = .call (.release s)) :
    ((m.after k).session s).holdings = .empty := by
  rw [session_after, result, hstep, hdepth, Surroundings.outcome_call]
  by_cases hs : s < m.begun.sessions.length
  · have hpossible : Surroundings.isPossible m.begun (.release s) = true := by
      simp [Surroundings.isPossible, Call.session?, Call.router?, hs]
    rw [if_pos hpossible, Surroundings.answer_release]
    exact Surroundings.release_alone (Nat.lt_succ_self m.number) hs (Prod.eta _).symm
  -- there is no such session, and so it holds nothing
  · have himpossible : ¬ Surroundings.isPossible m.begun (.release s) = true :=
      fun h => hs (Surroundings.isPossible_session rfl h)
    rw [if_neg himpossible, World.session, List.getElem?_eq_none (Nat.le_of_not_lt hs)]
    rfl

/-- An acquisition that succeeds, alone. -/
theorem acquired_alone (hdepth : m.depth = 0) (hstep : m.step = .call (.acquire s name count mode))
    (hresult : (m.result k).1 = .answered (.connections cs)) :
    ∃ opened, gather Event.opens (m.world.since (m.after k)) = opened ∧ count ≠ 0 ∧
      opened.length = count - (m.world.heldFor s name).length ∧
      cs = (m.world.heldFor s name).take count ++ opened ∧
      (mode = .memoryStrictly →
        ((m.after k).session s).holdings = (m.world.session s).holdings.join name opened) := by
  obtain ⟨hs, hacquire⟩ := acquired_of_result hstep hresult
  rw [hdepth] at hacquire
  obtain ⟨opened, new, w₂, hserved⟩ :=
    Surroundings.acquire_served (Nat.lt_succ_self m.number) hacquire
  obtain ⟨view, hsince⟩ := since_after hserved.log_eq
  have hown := Surroundings.own_of_stretch hserved.stretch (hserved.alone rfl)
  refine ⟨opened, ?_, hserved.count_ne_zero, hserved.length_eq, hserved.batch_eq, ?_⟩
  · rw [hsince, gather_cons, gather_append, gather_append, gather_of_own hown, hserved.opens_eq]
    split <;> simp [Event.opens]
  · rintro rfl
    rw [session_after]
    exact hserved.held_alone hs

end Occurrence

end SessionBroker
