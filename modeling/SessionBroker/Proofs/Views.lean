import SessionBroker.Proofs.Run

/-!
# What sessions show

After every call on a session its view is recorded. A view shows what the log says that the
session holds, and its validity is that of the surroundings at that moment. Nothing is known of
these but what `E` says, a relation to the log that all moves keep; so a fact about
closed connections needs to be checked for single moves only.
-/

namespace SessionBroker

namespace Surroundings

variable {ε : Type}

/-- What happens to the surroundings in `step` keeps their relation `E` to the log. -/
structure Keeps (k : Surroundings ε) (E : ε → List Entry → Prop) (step : Step ε) : Prop where
  stirs : ∀ {env env' es}, k.Stirs env env' → E env es → E env' es
  outside : ∀ {a env es}, step = .outside a → E env es → E (a env).2 es
  opened : ∀ {n source c env env' es}, k.finishOpen source env = (.ok c, env') → E env es →
    E env' (es ++ [⟨n, .opened source c⟩])
  openFailed : ∀ {n source err env env' es}, k.finishOpen source env = (.error err, env') →
    E env es → E env' (es ++ [⟨n, .openFailed source⟩])
  closed : ∀ {n c u env env' es}, k.finishClose c env = (.ok u, env') → E env es →
    E env' (es ++ [⟨n, .closed c⟩])
  closeFailed : ∀ {n c err env env' es}, k.finishClose c env = (.error err, env') → E env es →
    E env' (es ++ [⟨n, .closeFailed c⟩])
  /-- Events that open nothing come without a change outside. -/
  recorded : ∀ {n e env es}, e.opens = [] → E env es → E env (es ++ [⟨n, e⟩])

/-- What a view after the call `n` shows at a moment of a log. -/
def Shown (k : Surroundings ε) (E : ε → List Entry → Prop) (es : List Entry) (n : Nat) (v : View) :
    Prop :=
  ∃ s call env, ⟨n, .begun (some call)⟩ ∈ es ∧ call.session? = some s ∧ E env es ∧
    v.held = (replay s .empty es).entries ∧
    v.valid = v.held.all fun e => e.2.all fun c => !k.isClosed env c

/-- The sessions and the views are those that the log tells of. -/
structure Faithful (k : Surroundings ε) (E : ε → List Entry → Prop) (w : World ε) : Prop where
  env : E w.env w.log.toList
  held_eq : ∀ s, (w.session s).holdings = replay s .empty w.log.toList
  shown : ∀ pre n o v post, w.log.toList = pre ++ ⟨n, .ended o (some v)⟩ :: post →
    k.Shown E pre n v

section Views

variable {k : Surroundings ε} {E : ε → List Entry → Prop} {w w' : World ε} {call : Nat}
  {step : Step ε}

theorem faithful_new {env : ε} (henv : E env []) : k.Faithful E (.new env) where
  env := henv
  held_eq := fun _ => rfl
  shown := by simp [World.new]

theorem Faithful.of_unseen (h : k.Faithful E w) (hlog : w'.log = w.log)
    (henv : E w'.env w.log.toList)
    (hheld : ∀ s, (w'.session s).holdings = (w.session s).holdings) : k.Faithful E w' where
  env := by rwa [hlog]
  held_eq := fun s => by rw [hheld, h.held_eq, hlog]
  shown := by rw [hlog]; exact h.shown

theorem Faithful.of_event (h : k.Faithful E w) {e : Event}
    (hlog : w'.log.toList = w.log.toList ++ [⟨call, e⟩])
    (henv : E w'.env (w.log.toList ++ [⟨call, e⟩]))
    (hheld : ∀ s, (w'.session s).holdings = e.onHeld s (w.session s).holdings)
    (hshown : ∀ o v, e = .ended o (some v) → k.Shown E w.log.toList call v) :
    k.Faithful E w' where
  env := by rwa [hlog]
  held_eq := fun s => by rw [hheld, h.held_eq, hlog, replay_append, replay_cons, replay_nil]
  shown := by
    intro pre n o v post heq
    rw [hlog] at heq
    rcases split_concat heq with ⟨mid, hmid⟩ | ⟨rfl, hlast⟩
    · exact h.shown pre n o v mid hmid
    · cases hlast
      exact hshown o v rfl

/-- The step lemma of views. -/
theorem faithful_move {nested : Step ε → StateM (World ε) Unit} {es : List Event}
    (hk : k.Keeps E step)
    (hnested : ∀ inner, k.Cues inner → ∀ u, k.Faithful E u → k.Faithful E (nested inner u).2)
    (h : k.Move nested call step w es w') (hw : k.Faithful E w) : k.Faithful E w' := by
  cases h with
  | stir hstir => exact hw.of_unseen rfl (hk.stirs hstir hw.env) fun _ => rfl
  | outside hstep => exact hw.of_unseen rfl (hk.outside hstep hw.env) fun _ => rfl
  | asked => exact hw.of_unseen rfl hw.env fun _ => rfl
  | nested hcue => exact hnested _ hcue w hw
  | routed s routes =>
      exact hw.of_unseen rfl hw.env (World.holdings_keepRoutes w s · routes)
  | routerRouted => exact hw.of_unseen rfl hw.env fun _ => rfl
  | newSession schema => exact hw.of_unseen rfl hw.env (World.holdings_addSession w schema)
  | newRouter => exact hw.of_unseen rfl hw.env fun _ => rfl
  | opened hfinish =>
      exact hw.of_event (World.log_record _ call _) (hk.opened hfinish hw.env) (fun _ => rfl)
        (by rintro o v ⟨⟩)
  | openFailed hfinish =>
      exact hw.of_event (World.log_record _ call _) (hk.openFailed hfinish hw.env) (fun _ => rfl)
        (by rintro o v ⟨⟩)
  | closed hfinish =>
      exact hw.of_event (World.log_record _ call _) (hk.closed hfinish hw.env) (fun _ => rfl)
        (by rintro o v ⟨⟩)
  | closeFailed hfinish =>
      exact hw.of_event (World.log_record _ call _) (hk.closeFailed hfinish hw.env)
        (fun _ => rfl) (by rintro o v ⟨⟩)
  | @lookup e hlook =>
      refine hw.of_event (World.log_record _ call _)
        (hk.recorded (opens_of_lookup e hlook) hw.env) ?_ ?_
      · cases e <;> first | exact fun _ => rfl | cases hlook
      · rintro o v rfl
        cases hlook
  | kept hs name batch =>
      exact hw.of_event (World.log_keep w call _ name batch) (hk.recorded rfl hw.env)
        (World.holdings_keep hs call name batch) (by rintro o v ⟨⟩)
  | drained hs =>
      exact hw.of_event (World.log_drain w call _) (hk.recorded rfl hw.env)
        (World.holdings_drain hs call _) (by rintro o v ⟨⟩)
  | opening source =>
      exact hw.of_event (World.log_record _ call _) (hk.recorded rfl hw.env) (fun _ => rfl)
        (by rintro o v ⟨⟩)
  | closing c =>
      exact hw.of_event (World.log_record _ call _) (hk.recorded rfl hw.env) (fun _ => rfl)
        (by rintro o v ⟨⟩)

theorem faithful_began (hk : k.Keeps E step) (hw : k.Faithful E w) :
    k.Faithful E (w.began (call? step)) :=
  hw.of_event (World.log_record _ w.calls _) (hk.recorded rfl hw.env) (fun _ => rfl)
    (by rintro o v ⟨⟩)

theorem view_shown (hw : k.Faithful E w) {v : View} (hview : k.view? w step = some v)
    (hbegun : ⟨call, .begun (call? step)⟩ ∈ w.log.toList) : k.Shown E w.log.toList call v := by
  obtain ⟨s, hs, rfl⟩ := Option.map_eq_some_iff.mp hview
  obtain ⟨c, hc, hsession⟩ := Option.bind_eq_some_iff.mp hs
  rw [hc] at hbegun
  exact ⟨s, c, w.env, hbegun, hsession, hw.env, by rw [hw.held_eq], rfl⟩

theorem faithful_perform {nested : Step ε → StateM (World ε) Unit} (hstretches : Stretches nested)
    (hk : k.Keeps E step)
    (hnested : ∀ inner, k.Cues inner → ∀ u, k.Faithful E u → k.Faithful E (nested inner u).2)
    (hw : k.Faithful E w) : k.Faithful E (k.perform (k.sources nested) step w).2 := by
  rcases houtcome : k.outcome (k.sources nested w.calls) w.calls step (w.began (call? step)) with
    ⟨o, w₂⟩
  obtain ⟨w₁, es, es', h⟩ := scripted_outcome hstretches.grows houtcome
  have hcourse := h.first.trans h.rest
  have hw₂ : k.Faithful E w₂ :=
    hcourse.keeps (faithful_move hk hnested) (faithful_began hk hw)
  obtain ⟨new, hnew, -⟩ := stretch_course hstretches (Nat.lt_succ_self w.calls) hcourse
  have hbegun : ⟨w.calls, .begun (call? step)⟩ ∈ w₂.log.toList := by
    rw [hnew.log_eq, World.began, World.log_record]
    simp
  rw [perform_apply, houtcome]
  refine hw₂.of_event (World.log_record _ w.calls _) (hk.recorded rfl hw₂.env) (fun _ => rfl) ?_
  rintro o v heq
  exact view_shown hw₂ (Event.ended.inj heq).2 hbegun

/-- A step keeps views true, however deep steps nest in it. -/
theorem faithful_exec (hcues : ∀ inner, k.Cues inner → k.Keeps E inner) (depth : Nat)
    (hk : k.Keeps E step) (hw : k.Faithful E w) : k.Faithful E (k.exec depth step w).2 := by
  -- at depth zero nothing runs inside an attempt
  induction depth generalizing step w with
  | zero =>
      exact faithful_perform (stretches_nested k 0) hk (fun _ _ _ hu => hu) hw
  | succ depth ih =>
      exact faithful_perform (stretches_nested k (depth + 1)) hk
        (fun inner hcue _ hu => ih (hcues inner hcue) hu) hw

theorem faithful_run (hcues : ∀ inner, k.Cues inner → k.Keeps E inner) (depth : Nat)
    {steps : List (Step ε)} (hsteps : ∀ step ∈ steps, k.Keeps E step) (hw : k.Faithful E w) :
    k.Faithful E (k.run depth steps w) := by
  induction steps generalizing w with
  | nil => exact hw
  | cons step steps ih =>
      exact ih (fun other hother => hsteps other (List.mem_cons_of_mem step hother))
        (faithful_exec hcues depth (hsteps step List.mem_cons_self) hw)

end Views

end Surroundings

end SessionBroker
