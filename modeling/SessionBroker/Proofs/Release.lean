import SessionBroker.Proofs.Routing

/-!
# What a release does

A release takes out what its session holds, and then attempts to close all of it, whatever the
attempts come to. Calls nested in the attempts may fill the session again, or release it once more;
what they add and take is not counted. What is held when the release returns is what these others
left, starting from nothing.
-/

namespace SessionBroker

/-! ## In order -/

namespace Holdings

variable {κ : Type}

/-- All that is held, by the order of the names and under each name in acquisition order. -/
theorem all_eq (h : Holdings κ) : h.all = h.names.flatMap h.heldFor := by
  rw [all, entries_eq, List.flatMap_map]

theorem size_eq (h : Holdings κ) : h.size = h.all.length := by
  rw [size, OrderedMap.values, ← List.flatMap_def]
  rfl

end Holdings

/-- What was empty stays empty if nothing joins. -/
theorem replay_of_unkept {s : Nat} {es : List Entry}
    (h : ∀ e ∈ es, ∀ name batch, e.event ≠ .kept s name batch) :
    replay s .empty es = .empty := by
  induction es with
  | nil => rfl
  | cons e es ih =>
      have hkept := h e List.mem_cons_self
      have hstep : e.event.onHeld s .empty = .empty := by
        cases hev : e.event with
        | kept t name batch =>
            have ht : t ≠ s := by
              rintro rfl
              exact hkept name batch hev
            simp only [Event.onHeld, if_neg ht]
        | drained t entries =>
            simp only [Event.onHeld]
            split <;> rfl
        | _ => rfl
      rw [replay_cons, hstep]
      exact ih fun e' he' => h e' (List.mem_cons_of_mem e he')

/-! ## Failures -/

section Failures

variable {rs : List (Except Error Unit)}

theorem failures_eq_zero : failures rs = 0 ↔ ∀ r ∈ rs, r = .ok () := by
  rw [failures, List.countP_eq_zero]
  refine forall₂_congr fun r _ => ?_
  cases r with
  | ok u => simp [Except.isOk, Except.toBool]
  | error e => simp [Except.isOk, Except.toBool]

theorem failures_le (rs : List (Except Error Unit)) : failures rs ≤ rs.length :=
  List.countP_le_length

end Failures

namespace Surroundings

variable {ε : Type} {k : Surroundings ε} {call depth : Nat}

/-! ## What attempts to close leave alone -/

section Observing

variable {α : Type} {g : ε → α} {w : World ε}

/-- What every nested step leaves as it found it is the same after all of them. -/
theorem env_forM {steps : List (Step ε)}
    (h : ∀ m ∈ tourSteps (k.nested depth) (k.tourNested depth) steps w,
      g (m.after k).env = g m.world.env) :
    g (steps.forM (k.nested depth) w).2.env = g w.env := by
  induction steps generalizing w with
  | nil => rfl
  | cons inner steps ih =>
      have hfirst : g (k.nested depth inner w).2.env = g w.env := by
        cases depth with
        | zero => rfl
        | succ depth =>
            refine h ⟨depth, inner, w⟩ (List.mem_append_left _ ?_)
            show _ ∈ k.tour depth inner w
            rw [tour_eq]
            exact List.mem_cons_self
      rw [forM_cons_apply, ih fun m hm => h m (List.mem_append_right _ hm), hfirst]

variable (hbegin : ∀ c env, g (k.beginClose c env).2 = g env)
  (hfinish : ∀ c env, g (k.finishClose c env).2 = g env)

include hbegin hfinish

theorem env_closes {cs : List Connection}
    (h : ∀ m ∈ k.tourCloses (k.nested depth) (k.tourNested depth) call cs w,
      g (m.after k).env = g m.world.env) :
    g (inTurn (cs.map (k.attemptClose (k.nested depth) call)) w).2.env = g w.env := by
  induction cs generalizing w with
  | nil => rfl
  | cons c cs ih =>
      have hfirst : g (k.attemptClose (k.nested depth) call c w).2.env = g w.env := by
        rw [attemptClose_apply]
        exact (hfinish c _).trans
          ((env_forM fun m hm => h m (List.mem_append_left _ hm)).trans (hbegin c w.env))
      rw [List.map_cons, inTurn_cons, ih fun m hm => h m (List.mem_append_right _ hm), hfirst]

end Observing

/-! ## Main result -/

/-- The steps inside the attempts of a release. -/
def insideRelease (k : Surroundings ε) (depth call s : Nat) (w : World ε) : List (Occurrence ε) :=
  k.tourCloses (k.nested depth) (k.tourNested depth) call (w.session s).holdings.all
    (w.drain call s)

/-- How the call `call` releases the session `s`, from the world `w` to `w'`, with the result `r`.
`held` is what the session holds at the beginning, and `rs` what the attempts come to. -/
structure Releases (k : Surroundings ε) (depth call s : Nat) (w : World ε)
    (held : List Connection) (rs : List (Except Error Unit)) (r : Except Error Unit)
    (w' : World ε) : Prop where
  /-- By the order of the names and then of acquisition. -/
  held_eq : held = (w.session s).holdings.names.flatMap (w.heldFor s)
  /-- One attempt for each connection, in order, whatever the attempts come to. -/
  attempts : inTurn (held.map (k.attemptClose (k.nested depth) call)) (w.drain call s) = (rs, w')
  length_eq : rs.length = held.length
  /-- The call itself opens nothing and looks nothing up. -/
  events_eq : eventsOf call (w.since w') =
    .drained s (w.session s).holdings.entries :: closingEvents held rs
  closes_eq : (eventsOf call (w.since w')).flatMap Event.closes = held
  succeeds : r = .ok () ↔ ∀ x ∈ rs, x = .ok ()
  fails : r ≠ .ok () → r = .error (.releaseFailed (failures rs) held.length) ∧
    1 ≤ failures rs ∧ failures rs ≤ held.length
  /-- What is held in the end is the doing of others since the session was emptied. -/
  left_eq : ∀ t, (w'.session t).holdings =
    replay t (if s = t then .empty else (w.session t).holdings) (othersOf call (w.since w'))
  emptied : (∀ e ∈ othersOf call (w.since w'), ∀ name batch, e.event ≠ .kept s name batch) →
    (w'.session s).holdings = .empty
  /-- A table that is new was built by a step inside. -/
  tables : ∀ ρ, w'.table ρ = w.table ρ ∨
    w.table ρ = none ∧ ∃ m ∈ k.insideRelease depth call s w, ∃ routes w₁,
      m.looksUp = some ρ ∧ m.build k ρ = (.ok routes, w₁) ∧ w'.table ρ = some routes
  /-- What closing does not change, as how many connections a source opened, the steps inside
  change. -/
  counts : ∀ {α : Type} (g : ε → α), (∀ c env, g (k.beginClose c env).2 = g env) →
    (∀ c env, g (k.finishClose c env).2 = g env) →
    (∀ m ∈ k.insideRelease depth call s w, g (m.after k).env = g m.world.env) →
      g w'.env = g w.env

section Releasing

variable {s : Nat} {w w' : World ε}

theorem stretch_drain (hs : s < w.sessions.length) :
    Stretch (some call) w (w.drain call s)
      [⟨call, .drained s (w.session s).holdings.entries⟩] := by
  refine .of_event (World.log_drain w call s) rfl rfl ?_ (World.holdings_drain hs call _) ?_
  · exact Nat.le_of_eq (World.length_drain w call s).symm
  · rintro t rfl
    rfl

/-- The attempts of a release build no table themselves. -/
theorem table_closes (ρ : RouterId) {cs : List Connection} {rs : List (Except Error Unit)}
    (h : inTurn (cs.map (k.attemptClose (k.nested depth) call)) w = (rs, w')) :
    w'.table ρ = w.table ρ ∨ w.table ρ = none ∧
      ∃ m ∈ k.tourCloses (k.nested depth) (k.tourNested depth) call cs w, ∃ routes w₁,
        m.looksUp = some ρ ∧ m.build k ρ = (.ok routes, w₁) ∧ w'.table ρ = some routes := by
  have hnested := carried_nested (carried_charted k) (fun _ _ => trivial) depth
  have hcharted : k.Charted w (k.tourCloses (k.nested depth) (k.tourNested depth) call cs w) _ :=
    carried_closes (carried_charted k) hnested cs w
  rw [closeAll_eq, h] at hcharted
  cases htable : w.table ρ with
  | some routes => exact .inl (hcharted.frozen ρ routes htable).2
  | none =>
      rcases hcharted.once ρ htable with ⟨-, hnone⟩ |
        ⟨pre, m, post, routes, hms, -, -, hlooks, ⟨w₁, hbuild⟩, -, -, hsome⟩
      · exact .inl hnone
      · exact .inr ⟨rfl, m, by simp [hms], routes, w₁, hlooks, hbuild, hsome⟩

/-- A release attempts to close all that it took out, and counts the failures. -/
theorem release_turn {nested : Step ε → StateM (World ε) Unit} {r : Except Error Unit}
    (h : World.release (k.sources nested call) call s w = (r, w')) :
    ∃ rs, inTurn ((w.session s).holdings.all.map (k.attemptClose nested call)) (w.drain call s) =
        (rs, w') ∧
      rs.length = (w.session s).holdings.all.length ∧
      r = if failures rs = 0 then .ok ()
        else .error (.releaseFailed (failures rs) (w.session s).holdings.all.length) := by
  rcases hturn : inTurn ((w.session s).holdings.all.map (k.attemptClose nested call))
    (w.drain call s) with ⟨rs, w₁⟩
  rw [release_eq] at h
  dsimp only at h
  rw [show inTurn (((w.session s).holdings.entries.flatMap Prod.snd).map
    (k.sources nested call).closeOne) (w.drain call s) = _ from hturn, Holdings.size_eq] at h
  cases h
  exact ⟨rs, rfl, by simpa using length_of_inTurn hturn, rfl⟩

theorem stretch_release (hcall : call < w.calls) (hs : s < w.sessions.length)
    {rs : List (Except Error Unit)}
    (h : inTurn ((w.session s).holdings.all.map (k.attemptClose (k.nested depth) call))
      (w.drain call s) = (rs, w')) :
    ∃ new, Stretch (some call) (w.drain call s) w' new ∧
      eventsOf call new = closingEvents (w.session s).holdings.all rs ∧
      w.since w' = ⟨call, .drained s (w.session s).holdings.entries⟩ :: new := by
  obtain ⟨new, hnew, hown⟩ := stretch_closes (w := w.drain call s) hcall h
  exact ⟨new, hnew, hown, since_eq ((stretch_drain hs).append hcall hnew).log_eq⟩

/-- A release closes what it found, and counts its own failures. -/
theorem release_closes_held (k : Surroundings ε) (depth : Nat) {call s : Nat} {w w' : World ε}
    {r : Except Error Unit} (hcall : call < w.calls) (hs : s < w.sessions.length)
    (h : World.release (k.sources (k.nested depth) call) call s w = (r, w')) :
    ∃ held rs, k.Releases depth call s w held rs r w' := by
  obtain ⟨rs, hturn, hlen, rfl⟩ := release_turn h
  obtain ⟨new, hnew, hown, hsince⟩ := stretch_release hcall hs hturn
  have hevents : eventsOf call (w.since w') =
      .drained s (w.session s).holdings.entries :: closingEvents (w.session s).holdings.all rs := by
    rw [hsince, eventsOf_cons_self, hown]
  have hleft : ∀ t, (w'.session t).holdings =
      replay t (if s = t then .empty else (w.session t).holdings) (othersOf call (w.since w')) := by
    intro t
    have hothers : othersOf call (w.since w') = othersOf call new := by
      rw [hsince]
      simp [othersOf]
    have hheld := held_of_stretch hnew (t := t) fun e he => by
      rw [hown] at he
      exact leavesHeld_of_attempt e (attempt_of_closing he)
    rw [hheld, hothers, World.holdings_drain hs call [] t]
    rfl
  refine ⟨(w.session s).holdings.all, rs, Holdings.all_eq _, hturn, hlen, hevents, ?_, ?_, ?_, hleft,
    ?_, ?_, ?_⟩
  · rw [hevents, List.flatMap_cons, closes_closingEvents hlen]
    rfl
  · rw [← failures_eq_zero]
    split
    next hzero => exact iff_of_true rfl hzero
    next hfailed => exact iff_of_false (fun h => by cases h) hfailed
  · intro hr
    rw [← hlen]
    split at hr
    next => exact absurd rfl hr
    next hfailed =>
      rw [if_neg hfailed]
      exact ⟨rfl, Nat.pos_of_ne_zero hfailed, failures_le rs⟩
  · intro hnone
    rw [hleft, if_pos rfl]
    exact replay_of_unkept hnone
  · intro ρ
    have hdrain := table_eq_of_undisturbed (World.undisturbed_drain w call s) ρ
    rw [← hdrain]
    exact table_closes ρ hturn
  · intro α g hbegin hfinish hinside
    have hcloses := env_closes hbegin hfinish hinside
    rwa [hturn] at hcloses

end Releasing

end Surroundings

/-! ## A release that is overtaken -/

namespace Stage

/-- A stage with one source. While its first connection is closed the session acquires anew, and
that attempt to close is made to fail. -/
def refilling : Stage :=
  ⟨[.new "ds" ⟨none, none, false,
      [⟨.closing 0, [.call (.acquire 0 "ds" 1 .memoryStrictly),
          .changeSource "ds" ⟨none, none, some true, none⟩]⟩,
        ⟨.closing 1, [.changeSource "ds" ⟨none, none, some false, none⟩]⟩]⟩],
    [], 0, .scripted (.ofList [("s", ["ds"])]) none none⟩

/-- The moment at which a session with two connections begins to be released. -/
def refilled : World Stage :=
  (surroundings.run 1 ([.call (.newSession "s"), .call (.acquire 0 "ds" 2 .memoryStrictly)].map
    Instruction.step) (.new refilling)).began (some (.release 0))

def refilledResult : Except Error Unit × World Stage :=
  World.release (surroundings.sources (surroundings.nested 1) 2) 2 0 refilled

end Stage

/-- One of two attempts fails, and the session holds what was acquired in the meantime. -/
theorem Surroundings.refilled_closes_held :
    (∃ held rs, Stage.surroundings.Releases 1 2 0 Stage.refilled held rs
      (.error (.releaseFailed 1 2)) Stage.refilledResult.2) ∧
      (Stage.refilledResult.2.session 0).holdings.all = [⟨0, 2⟩] := by
  have hresult : Stage.refilledResult.1 = .error (.releaseFailed 1 2) := by decide +kernel
  rw [← hresult]
  exact ⟨release_closes_held Stage.surroundings 1 (by decide +kernel) (by decide +kernel)
    (Prod.eta _).symm, by decide +kernel⟩

end SessionBroker
