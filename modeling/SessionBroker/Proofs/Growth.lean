import SessionBroker.Proofs.Batch
import SessionBroker.Proofs.Carried

/-!
# Holdings grow

Unless a session is released, what it holds only grows, at the end: no batch that joins overwrites
another, however calls overlap. An acquisition adds what it opened behind whatever calls inside its
attempts have added by then.
-/

namespace SessionBroker

/-- The names, and what is held for each of them, were only added to. -/
structure Holdings.Extends {κ : Type} (h h' : Holdings κ) : Prop where
  names_le : h.names <+: h'.names
  heldFor_le : ∀ name, h.heldFor name <+: h'.heldFor name

namespace Event

/-- Whether a session's holdings are taken out. -/
def isDrainOf (s : Nat) : Event → Bool
  | .drained t _ => t == s
  | _ => false

/-- The batch that joins what a session holds for a name. -/
def joins (s : Nat) (name : String) : Event → List Connection
  | .kept t other batch => if t = s ∧ other = name then batch else []
  | _ => []

end Event

/-- A session is not released in a stretch of a log. -/
def Undrained (s : Nat) (es : List Entry) : Prop := ∀ e ∈ es, e.event.isDrainOf s = false

section Replaying

variable {s : Nat} {es : List Entry} {e : Event} {h : Holdings Connection}

theorem heldFor_onHeld (he : e.isDrainOf s = false) (name : String) :
    (e.onHeld s h).heldFor name = h.heldFor name ++ e.joins s name := by
  cases e with
  | kept t other batch =>
      by_cases ht : t = s
      · by_cases hname : name = other
        · simp [Event.onHeld, Event.joins, Holdings.heldFor_hold, ht, hname]
        · simp [Event.onHeld, Event.joins, Holdings.heldFor_hold, ht, hname, Ne.symm hname]
      · simp [Event.onHeld, Event.joins, ht]
  | drained t entries =>
      have ht : ¬ t = s := by simpa [Event.isDrainOf] using he
      simp [Event.onHeld, Event.joins, ht]
  | _ => simp [Event.onHeld, Event.joins]

theorem names_onHeld (he : e.isDrainOf s = false) : h.names <+: (e.onHeld s h).names := by
  cases e with
  | kept t name batch =>
      by_cases ht : t = s
      · simp only [Event.onHeld, ht, if_true, Holdings.names_hold]
        split
        · exact List.prefix_refl _
        · exact List.prefix_append _ _
      · simp only [Event.onHeld, ht, if_false]
        exact List.prefix_refl _
  | drained t entries =>
      have ht : ¬ t = s := by simpa [Event.isDrainOf] using he
      simp only [Event.onHeld, ht, if_false]
      exact List.prefix_refl _
  | _ => exact List.prefix_refl _

/-- What is held for a name after a stretch: what was held, then the batches that joined. -/
theorem heldFor_replay (hes : Undrained s es) (name : String) :
    (replay s h es).heldFor name = h.heldFor name ++ gather (Event.joins s name) es := by
  induction es generalizing h with
  | nil => simp
  | cons e es ih =>
      have hfirst := heldFor_onHeld (h := h) (hes e List.mem_cons_self) name
      rw [replay_cons, ih fun e' he' => hes e' (List.mem_cons_of_mem e he'), hfirst, gather_cons,
        List.append_assoc]

/-- What is held for a name after a stretch was held before or joined under the name. -/
theorem mem_heldFor_replay {name : String} {c : Connection}
    (hc : c ∈ (replay s h es).heldFor name) :
    c ∈ h.heldFor name ∨ ∃ n batch, ⟨n, .kept s name batch⟩ ∈ es ∧ c ∈ batch := by
  induction es generalizing h with
  | nil => exact .inl hc
  | cons e es ih =>
      rcases ih hc with hheld | ⟨n, batch, hkept, hmem⟩
      · obtain ⟨n, ev⟩ := e
        cases ev with
        | kept t other batch =>
            by_cases ht : t = s
            · subst ht
              simp only [Event.onHeld, if_true, Holdings.heldFor_hold] at hheld
              split at hheld
              next hname =>
                subst hname
                rcases List.mem_append.mp hheld with hheld | hmem
                · exact .inl hheld
                · exact .inr ⟨n, batch, List.mem_cons_self, hmem⟩
              next => exact .inl hheld
            · simp only [Event.onHeld, if_neg ht] at hheld
              exact .inl hheld
        | drained t entries =>
            simp only [Event.onHeld] at hheld
            split at hheld
            · cases hheld
            · exact .inl hheld
        | _ => exact .inl hheld
      · exact .inr ⟨n, batch, List.mem_cons_of_mem e hkept, hmem⟩

theorem names_replay (hes : Undrained s es) : h.names <+: (replay s h es).names := by
  induction es generalizing h with
  | nil => exact List.prefix_refl _
  | cons e es ih =>
      have hfirst := names_onHeld (h := h) (hes e List.mem_cons_self)
      exact hfirst.trans (ih fun e' he' => hes e' (List.mem_cons_of_mem e he'))

theorem extends_replay (hes : Undrained s es) : h.Extends (replay s h es) where
  names_le := names_replay hes
  heldFor_le := fun name => ⟨_, (heldFor_replay hes name).symm⟩

end Replaying

/-! ## An acquisition among others -/

namespace Surroundings

variable {ε : Type} {k : Surroundings ε} {depth call s count : Nat} {name : String}
  {w w' : World ε} {cs : List Connection}

theorem undrained_othersOf {es : List Entry} (h : Undrained s es) : Undrained s (othersOf call es) :=
  fun e he => h e (List.mem_filter.mp he).1

/-- An acquisition that keeps what it opened, and is not overtaken by a release: what it hands out,
and where that stands among what the others added. -/
theorem Served.grows {opened : List Connection} {new : List Entry} {w₂ : World ε}
    (h : k.Served depth call s name count .memoryStrictly cs opened new w w₂ w')
    (hs : s < w.sessions.length) (hopened : opened ≠ []) (hundrained : Undrained s new) :
    cs = w.heldFor s name ++ opened ∧
      w'.heldFor s name =
        w.heldFor s name ++ gather (Event.joins s name) (othersOf call new) ++ opened := by
  have hlen := h.length_eq
  have hpos := List.length_pos_iff.mpr hopened
  have hs₂ : s < w₂.sessions.length := Nat.lt_of_lt_of_le hs h.stretch.sessions_le
  -- until the batch joins, what is held is the doing of others
  have hothers : w₂.heldFor s name =
      w.heldFor s name ++ gather (Event.joins s name) (othersOf call new) := by
    rw [World.heldFor, held_of_stretch h.stretch h.leavesHeld,
      heldFor_replay (undrained_othersOf hundrained)]
    rfl
  constructor
  · rw [h.batch_eq, List.take_of_length_le (by omega)]
  · rw [h.kept_eq hopened, heldFor_keep hs₂, hothers]

/-- What is in a session's holdings at the end of a step that acquires from it. -/
theorem grows_of_result {m : Occurrence ε}
    (hstep : m.step = .call (.acquire s name count .memoryStrictly))
    (hresult : (m.result k).1 = .answered (.connections cs)) :
    let new := m.world.since (m.after k)
    let opened := (eventsOf m.number new).flatMap Event.opens
    opened ≠ [] → Undrained s new →
      cs = m.world.heldFor s name ++ opened ∧
        (m.after k).heldFor s name = m.world.heldFor s name ++
          gather (Event.joins s name) (othersOf m.number new) ++ opened := by
  intro new opened hopened hundrained
  obtain ⟨hs, hacquire⟩ := Occurrence.acquired_of_result hstep hresult
  obtain ⟨own, within, w₂, hserved⟩ := acquire_served (Nat.lt_succ_self m.number) hacquire
  obtain ⟨view, hnew⟩ := Occurrence.since_after hserved.log_eq
  have hsince : new = _ := hnew
  have hopens : opened = own := by
    show (eventsOf m.number new).flatMap Event.opens = own
    rw [← hserved.opens_eq, hsince, eventsOf_cons_self, eventsOf_append, eventsOf_append]
    split <;> simp [eventsOf, Event.opens]
  have hothers : othersOf m.number new = othersOf m.number within := by
    rw [hsince]
    split <;> simp [othersOf]
  have hwithin : Undrained s within := by
    intro e he
    refine hundrained e ?_
    rw [hsince]
    simp [he]
  have hafter : (m.after k).heldFor s name = (m.result k).2.heldFor s name :=
    congrArg (fun u : Session => u.holdings.heldFor name) (m.session_after k s)
  rw [hafter, hothers, hopens]
  exact hserved.grows hs (hopens ▸ hopened) hwithin

end Surroundings

/-! ## Main result -/

section MainResult

variable {ε : Type}

/-- The worlds in which the steps of a run begin and end, and the last one. -/
def momentsOf (k : Surroundings ε) (ms : List (Occurrence ε)) (w' : World ε) : List (World ε) :=
  ms.flatMap (fun m => [m.world, m.after k]) ++ [w']

/-- At a moment a step begins or ends, or it is the last one. -/
theorem forall_momentsOf {k : Surroundings ε} {ms : List (Occurrence ε)} {w' : World ε}
    {P : World ε → Prop} (hms : ∀ m ∈ ms, P m.world ∧ P (m.after k)) (hend : P w') :
    ∀ u ∈ momentsOf k ms w', P u := by
  intro u hu
  rcases List.mem_append.mp hu with hu | hu
  · obtain ⟨m, hm, hu⟩ := List.mem_flatMap.mp hu
    rcases List.mem_cons.mp hu with rfl | hu
    · exact (hms m hm).1
    · rw [List.mem_singleton.mp hu]
      exact (hms m hm).2
  · rw [List.mem_singleton.mp hu]
    exact hend

/-- What holds of the holdings in a run that visits `ms` and ends in `w'`. -/
structure OnlyGrows (k : Surroundings ε) (ms : List (Occurrence ε)) (w' : World ε) : Prop where
  /-- Until a session is released, what it holds is only added to. -/
  grows : ∀ u ∈ momentsOf k ms w', ∀ v ∈ momentsOf k ms w', ∀ s,
    u.log.toList <+: v.log.toList → Undrained s (u.since v) →
      (u.session s).holdings.Extends (v.session s).holdings
  /-- What a session holds at a moment is what the log tells of up to then. -/
  told : ∀ u ∈ momentsOf k ms w', u.log.toList <+: w'.log.toList ∧
    ∀ s, (u.session s).holdings = replay s .empty u.log.toList
  /-- It is so also between moments at which no step begins or ends. -/
  replayed : ∀ s pre mid post, w'.log.toList = pre ++ (mid ++ post) → Undrained s mid →
    (replay s .empty pre).Extends (replay s .empty (pre ++ mid))
  /-- What an acquisition opened and keeps stands behind what it reused and what others added in the
  meantime; so all that it hands out is held, in order. -/
  joins : ∀ m ∈ ms, ∀ s name count cs, m.step = .call (.acquire s name count .memoryStrictly) →
    (m.result k).1 = .answered (.connections cs) →
      let new := m.world.since (m.after k)
      let opened := (eventsOf m.number new).flatMap Event.opens
      opened ≠ [] → Undrained s new →
        cs = m.world.heldFor s name ++ opened ∧
          (m.after k).heldFor s name = m.world.heldFor s name ++
            gather (Event.joins s name) (othersOf m.number new) ++ opened ∧
          cs.Sublist ((m.after k).heldFor s name)

theorem extends_of_told {u v : World ε} {s : Nat} (hle : u.log.toList <+: v.log.toList)
    (hu : (u.session s).holdings = replay s .empty u.log.toList)
    (hv : (v.session s).holdings = replay s .empty v.log.toList)
    (hundrained : Undrained s (u.since v)) :
    (u.session s).holdings.Extends (v.session s).holdings := by
  obtain ⟨new, hnew⟩ := hle
  rw [since_eq hnew.symm] at hundrained
  rw [hv, ← hnew, replay_append, ← hu]
  exact extends_replay hundrained

theorem told_of_run (k : Surroundings ε) (depth : Nat) (steps : List (Step ε)) (env : ε) :
    ∀ u ∈ momentsOf k (k.tourRun depth steps (.new env)) (k.run depth steps (.new env)),
      u.log.toList <+: (k.run depth steps (.new env)).log.toList ∧
        ∀ s, (u.session s).holdings = replay s .empty u.log.toList := by
  have haccount := k.accounted_run depth steps (.new env)
  have hkeeps : ∀ step, k.Keeps (fun _ _ => True) step := fun step => by
    constructor <;> intros <;> trivial
  have hnew : k.Faithful (fun _ _ => True) (.new env) := Surroundings.faithful_new trivial
  have htour : ∀ m ∈ k.tourRun depth steps (.new env), _ :=
    Surroundings.faithful_tour (fun inner _ => hkeeps inner) depth (fun step _ => hkeeps step) hnew
  apply forall_momentsOf
  · intro m hm
    have hbegun := (htour m hm).2
    have hended : k.Faithful (fun _ _ => True) (m.after k) :=
      Surroundings.faithful_exec (fun inner _ => hkeeps inner) m.depth (hkeeps m.step) hbegun
    have hbefore : m.world.log.toList <+: (m.after k).log.toList := by
      obtain ⟨new, hstretch⟩ := k.stretch_exec m.depth m.step m.world
      exact ⟨new, hstretch.log_eq.symm⟩
    have hafter := (haccount.logs_le m hm).2
    exact ⟨⟨hbefore.trans hafter, hbegun.held_eq⟩, hafter, hended.held_eq⟩
  · exact ⟨List.prefix_refl _, (Surroundings.faithful_run (fun inner _ => hkeeps inner) depth
      (fun step _ => hkeeps step) hnew).held_eq⟩

/-- No batch is lost, however calls overlap: what a session holds only grows until it is released,
and what an acquisition keeps is added to what is held by then. -/
theorem holdings_only_grow (k : Surroundings ε) (depth : Nat) (steps : List (Step ε)) (env : ε) :
    k.Accounted (.new env) (k.tourRun depth steps (.new env)) (k.run depth steps (.new env)) ∧
      OnlyGrows k (k.tourRun depth steps (.new env)) (k.run depth steps (.new env)) := by
  have htold := told_of_run k depth steps env
  refine ⟨k.accounted_run depth steps (.new env), ?_, htold, ?_, ?_⟩
  · intro u hu v hv s hle hundrained
    exact extends_of_told hle ((htold u hu).2 s) ((htold v hv).2 s) hundrained
  · intro s pre mid post _ hundrained
    rw [replay_append]
    exact extends_replay hundrained
  · intro m _ s name count cs hstep hresult new opened hopened hundrained
    obtain ⟨hcs, hheld⟩ := Surroundings.grows_of_result hstep hresult hopened hundrained
    refine ⟨hcs, hheld, ?_⟩
    rw [hcs, hheld, List.append_assoc]
    exact (List.Sublist.refl _).append (List.sublist_append_right _ _)

/-- A session asks for two connections and holds one; while it opens the second, it is asked for two
again, and that call opens and keeps one first. -/
example : (Stage.surroundings.run 1 (Stage.interruption.map Stage.Instruction.step)
    (.new (Stage.interrupted [.call (.acquire 0 "ds" 2 .memoryStrictly)]))).heldFor 0 "ds" =
      [⟨0, 0⟩] ++ [⟨0, 1⟩] ++ [⟨0, 2⟩] := by decide +kernel

end MainResult

end SessionBroker
