import SessionBroker.Proofs.Provenance

/-!
# Names to choose from

A name that is drawn when any source will do is one under which the session holds a connection, if
there is such a name. So a draw costs no new connection: no name stands among what is held without
a connection, and the first one of them serves a request for one.

That no name is without a connection is not told by the holdings, where an empty batch would leave
one. It is told by the calls: a batch that joins has a name, and was opened because something was
missing.
-/

namespace SessionBroker

/-! ## Draws -/

namespace Choice

variable {names : List String} {name : String} {outcome : Option String}

theorem exists_draw_iff : (∃ draw, choose? draw names = some name) ↔ name ∈ names := by
  unfold choose?
  constructor
  · rintro ⟨draw, h⟩
    exact List.mem_of_getElem? h
  · intro h
    obtain ⟨i, hi⟩ := List.mem_iff_getElem?.mp h
    have hlt : i < names.length := (List.getElem?_eq_some_iff.mp hi).1
    exact ⟨i, by rw [Nat.mod_eq_of_lt hlt, hi]⟩

theorem choose?_eq_none_iff {draw : Nat} : choose? draw names = none ↔ names = [] := by
  unfold choose?
  rw [List.getElem?_eq_none_iff]
  cases names with
  | nil => simp
  | cons n ns =>
      have hlt : draw % (n :: ns).length < (n :: ns).length := Nat.mod_lt draw (Nat.succ_pos _)
      simpa using hlt

theorem mem_insertName {other : String} :
    name ∈ insertName other names ↔ name = other ∨ name ∈ names := by
  induction names with
  | nil => simp [insertName]
  | cons n ns ih =>
      unfold insertName
      split
      · exact List.mem_cons
      · split
        · rename_i heq
          rw [heq, List.mem_cons, or_self_left]
        · rw [List.mem_cons, List.mem_cons, ih, or_left_comm]

theorem mem_foldr_insertName : name ∈ names.foldr insertName [] ↔ name ∈ names := by
  induction names with
  | nil => exact Iff.rfl
  | cons n ns ih => rw [List.foldr_cons, mem_insertName, ih, List.mem_cons]

/-- What can be chosen is what a draw falls on. -/
theorem mem_outcomes : outcome ∈ outcomes names ↔ ∃ draw, choose? draw names = outcome := by
  cases outcome with
  | none =>
      simp only [choose?_eq_none_iff, exists_const]
      unfold outcomes
      split
      · rename_i hempty
        simp [List.isEmpty_iff.mp hempty]
      · rename_i hne
        simpa using hne
  | some name =>
      rw [exists_draw_iff]
      unfold outcomes
      split
      · rename_i hempty
        simp [List.isEmpty_iff.mp hempty]
      · simp [mem_foldr_insertName]

end Choice

/-! ## Stocked holdings -/

/-- Whatever name stands among what is held, something is held for it; and it is a name. -/
structure Holdings.Stocked {κ : Type} (h : Holdings κ) : Prop where
  named : "" ∉ h.names
  heldFor_ne_nil : ∀ name ∈ h.names, h.heldFor name ≠ []

/-- If a batch joins what is held, then under a name, and it is not empty. -/
def Event.Stocks : Event → Prop
  | .kept _ name batch => name ≠ "" ∧ batch ≠ []
  | _ => True

section Stocking

variable {κ : Type} {h : Holdings κ} {held : Holdings Connection} {s : Nat} {es : List Entry}
  {e : Event}

theorem Holdings.stocked_empty : (Holdings.empty : Holdings κ).Stocked where
  named := List.not_mem_nil
  heldFor_ne_nil := fun _ hname => absurd hname List.not_mem_nil

theorem Holdings.Stocked.hold (hstocked : h.Stocked) {name : String} {batch : List κ}
    (hname : name ≠ "") (hbatch : batch ≠ []) : (h.hold name batch).Stocked := by
  constructor
  · rw [Holdings.names_hold]
    split
    · exact hstocked.named
    · simpa [hname.symm] using hstocked.named
  · intro other hother
    rw [Holdings.heldFor_hold]
    split
    · simp [hbatch]
    · rename_i hne
      rw [Holdings.names_hold] at hother
      split at hother
      · exact hstocked.heldFor_ne_nil other hother
      · exact hstocked.heldFor_ne_nil other (by simpa [hne] using hother)

theorem stocks_of_leavesHeld (h : e.leavesHeld = true) : e.Stocks := by
  cases e with
  | kept => cases h
  | _ => trivial

theorem stocked_onHeld (he : e.Stocks) (h : held.Stocked) : (e.onHeld s held).Stocked := by
  cases e with
  | kept t name batch =>
      simp only [Event.onHeld]
      split
      · exact h.hold he.1 he.2
      · exact h
  | drained t entries =>
      simp only [Event.onHeld]
      split
      · exact Holdings.stocked_empty
      · exact h
  | _ => exact h

theorem stocked_replay (hes : ∀ e ∈ es, e.event.Stocks) (h : held.Stocked) :
    (replay s held es).Stocked := by
  induction es generalizing held with
  | nil => exact h
  | cons e es ih =>
      exact ih (fun x hx => hes x (List.mem_cons_of_mem e hx))
        (stocked_onHeld (hes e List.mem_cons_self) h)

end Stocking

namespace Surroundings

variable {ε : Type} {k : Surroundings ε} {depth call s count : Nat} {name : String}
  {mode : AcquisitionMode} {w w' : World ε}

/-- An acquisition keeps a batch only if it opened one. -/
theorem stocks_of_acquire (hcall : call < w.calls) {r : Except Error (List Connection)}
    (h : World.acquire (k.cluster.logged call) (k.sources (k.nested depth) call) call s name count
      mode w = (r, w')) : ∀ e ∈ eventsOf call (w.since w'), e.Stocks := by
  have hnone : ∀ u : World ε, ∀ e ∈ eventsOf call (u.since u), e.Stocks := by
    intro u e he
    rw [since_self] at he
    cases he
  have hlooks : ∀ {r : Except Error SourceId} {w₁ : World ε},
      World.resolveSource (k.cluster.logged call) s name w = (r, w₁) →
        ∃ new, Stretch (some call) w w₁ new ∧ ∀ e ∈ eventsOf call new, e.Stocks := by
    intro r w₁ hsource
    obtain ⟨new, hnew, hlooks⟩ := stretch_resolve hcall hsource
    exact ⟨new, hnew, fun e he => stocks_of_leavesHeld (leavesHeld_of_lookup e (hlooks e he))⟩
  cases acquires h with
  | unnamed => exact hnone w
  | uncounted => exact hnone w
  | unresolved _ _ hsource =>
      obtain ⟨new, hnew, hstocks⟩ := hlooks hsource
      rwa [since_eq hnew.log_eq]
  | reused _ _ hsource =>
      obtain ⟨new, hnew, hstocks⟩ := hlooks hsource
      rwa [since_eq hnew.log_eq]
  | rolledBack _ _ hsource _ hopen hclose =>
      obtain ⟨new, hnew, hstocks⟩ := hlooks hsource
      obtain ⟨new', hnew', hown⟩ :=
        stretch_rolledBack (Nat.lt_of_lt_of_le hcall hnew.calls_le) hopen hclose
      rw [since_eq (hnew.append hcall hnew').log_eq, eventsOf_append, hown]
      intro e he
      rcases List.mem_append.mp he with he | he
      · exact hstocks e he
      · exact stocks_of_leavesHeld (leavesHeld_of_rolledBack he)
  | @opened _ _ source opened hname _ hsource hshort hlen hopen =>
      obtain ⟨new, hnew, hstocks⟩ := hlooks hsource
      obtain ⟨new', hnew', hown⟩ := stretch_opens (Nat.lt_of_lt_of_le hcall hnew.calls_le) hopen
      rw [map_ok_flatMap] at hown
      have hmissing : opened ≠ [] := List.ne_nil_of_length_pos (by omega)
      rw [since_eq (log_kept (hnew.append hcall hnew').log_eq mode call s name opened),
        eventsOf_append, eventsOf_append, hown]
      intro e he
      rcases List.mem_append.mp he with he | he
      · rcases List.mem_append.mp he with he | he
        · exact hstocks e he
        · rcases mem_openingEvents he with rfl | ⟨c, rfl⟩ <;> trivial
      · cases mode with
        | memoryStrictly =>
            have heq : e = .kept s name opened := by
              simpa [AcquisitionMode.keepsNew, eventsOf] using he
            rw [heq]
            exact ⟨hname, hmissing⟩
        | connectionStrictly => simp [AcquisitionMode.keepsNew, eventsOf] at he

/-- Every batch that joins in a run has a name, and connections. -/
theorem stocks_of_run {steps : List (Step ε)} {env : ε} :
    ∀ e ∈ (k.run depth steps (.new env)).log.toList, e.event.Stocks := by
  rintro ⟨n, e⟩ he
  by_cases hquiet : e.leavesHeld = true
  · exact stocks_of_leavesHeld hquiet
  cases e with
  | kept s name batch =>
      obtain ⟨m, hm, rfl, hwithin⟩ := occurrence_of_event he
      obtain ⟨call, body, o, view, ht⟩ := (k.settled_run depth steps env).transcript he
      obtain ⟨count, rfl⟩ := ht.script.acquires_of_kept ((ht.mem_body rfl).mp he)
      have hstep : m.step = .call (.acquire s name count .memoryStrictly) :=
        step_of_call? (ht.begun_eq (begun_of_visited hm))
      have hown := Occurrence.mem_own_of_since rfl hwithin
      rw [Occurrence.result, hstep, outcome_call] at hown
      split at hown
      · rw [answer_acquire] at hown
        exact stocks_of_acquire (Nat.lt_succ_self m.number) (Prod.eta _).symm _ hown
      · rw [since_self] at hown
        cases hown
  | _ => trivial

/-! ## Tables -/

/-- At every moment of a run, a session that holds connections has a table. -/
theorem seated_of_moment {steps : List (Step ε)} {env : ε} :
    ∀ u ∈ momentsOf k (k.tourRun depth steps (.new env)) (k.run depth steps (.new env)),
      Seated u := by
  have hnew : Seated (World.new env) := fun s hnames => absurd rfl hnames
  obtain ⟨hmoments, hend⟩ := (carried_run (carried_charted k) (fun _ _ => trivial) depth
    (fun _ _ => trivial) (World.new env)).seated hnew
  exact forall_momentsOf hmoments hend

/-! ## Drawing in a session -/

/-- What a draw falls on in a session. -/
def pick (k : Surroundings ε) (w : World ε) (s draw : Nat) : Option String :=
  Choice.choose? draw (World.candidates (k.cluster.logged w.calls) s w).1

theorem isPossible_begun {m : Occurrence ε} {c : Call} (hsession : c.session? = some s)
    (hrouter : c.router? = none) (hs : s < m.world.sessions.length) :
    isPossible m.begun c = true := by
  have hbegun : m.begun.sessions = m.world.sessions := rfl
  simp [isPossible, hsession, hrouter, hbegun, hs]

theorem result_acquire {m : Occurrence ε} (hstep : m.step = .call (.acquire s name count mode))
    (hs : s < m.world.sessions.length) :
    m.result k =
      let acquired := World.acquire (k.cluster.logged m.number)
        (k.sources (k.nested m.depth) m.number) m.number s name count mode m.begun
      (Outcome.ofResult (acquired.1.map .connections), acquired.2) := by
  rw [Occurrence.result, hstep, outcome_call, if_pos (isPossible_begun rfl rfl hs), answer_acquire]

theorem answer_choices (sources : Sources (World ε)) (call s : Nat) (w : World ε) :
    k.answer sources call (.choices s) w =
      let candidates := World.candidates (k.cluster.logged call) s w
      (.ok (.choices (Choice.outcomes candidates.1)), candidates.2) := by
  simp only [answer, Action.bind_apply, Action.lift_apply]
  rfl

/-- Asked for its choices, a session answers with all that a draw can fall on. The physical sources
are asked for only if nothing is held. -/
theorem result_choices {m : Occurrence ε} (hstep : m.step = .call (.choices s))
    (hs : s < m.world.sessions.length) :
    m.result k = (.answered (.choices
        (Choice.outcomes (World.candidates (k.cluster.logged m.number) s m.world).1)),
      if (m.world.session s).holdings.names = [] then
        m.begun.ask m.number (.physical (m.world.session s).router.schema)
      else m.begun) := by
  have hbegun : m.begun.session s = m.world.session s := rfl
  rw [Occurrence.result, hstep, outcome_call, if_pos (isPossible_begun rfl rfl hs), answer_choices,
    candidates_apply, candidates_apply, hbegun]
  split <;> rfl

/-- A step that hands out one connection and asks the questions `qs`, and nothing else happens. -/
structure ServedFree (k : Surroundings ε) (m : Occurrence ε) (qs : List Question)
    (c : Connection) : Prop where
  result_eq : (m.result k).1 = .answered (.connections [c])
  env_eq : (m.after k).env = m.world.env
  sessions_eq : (m.after k).sessions = m.world.sessions
  inquiries_eq : (m.after k).inquiries = (m.world.asking m.number qs).inquiries
  since_eq : ∃ view, m.world.since (m.after k) = [⟨m.number, .begun (call? m.step)⟩,
    ⟨m.number, .ended (.answered (.connections [c])) view⟩]

theorem servedFree_of_result {m : Occurrence ε} {qs : List Question} {c : Connection}
    (h : m.result k = (.answered (.connections [c]), m.begun.asking m.number qs)) :
    k.ServedFree m qs c := by
  have hnew : (m.result k).2.log.toList = m.begun.log.toList ++ [] := by
    rw [h, List.append_nil]
    rfl
  obtain ⟨view, hsince⟩ := Occurrence.since_after hnew
  constructor
  · rw [h]
  · rw [m.after_eq, h]
    rfl
  · rw [m.after_eq, h]
    rfl
  · rw [m.after_eq, h]
    rfl
  · refine ⟨view, ?_⟩
    rw [hsince, h]
    rfl

theorem lt_of_heldFor {c : Connection} {rest : List Connection}
    (h : w.heldFor s name = c :: rest) : s < w.sessions.length := by
  by_cases hs : s < w.sessions.length
  · exact hs
  · rw [World.heldFor, World.session, List.getElem?_eq_none (Nat.le_of_not_lt hs)] at h
    cases h

/-- The first connection that is held serves a request for one. -/
theorem servedFree_of_held {m : Occurrence ε} {c : Connection} {rest : List Connection}
    {routes : Routes} (hstep : m.step = .call (.acquire s name 1 mode)) (hname : name ≠ "")
    (htable : m.world.table (.ofSession s) = some routes)
    (hheld : m.world.heldFor s name = c :: rest) {source : SourceId}
    (hsource : (World.resolveSource (k.cluster.logged m.number) s name m.begun).1 = .ok source) :
    k.ServedFree m (sourceQuestions routes (m.world.session s).router.schema name) c := by
  have hknown : (m.begun.session s).router.routes = some routes := htable
  -- the table is there, so the lookup at most asks a question
  have hresolved : World.resolveSource (k.cluster.logged m.number) s name m.begun = (.ok source,
      m.begun.asking m.number (sourceQuestions routes (m.world.session s).router.schema name)) := by
    refine Prod.ext hsource ?_
    rw [resolveSource_of_known k hknown]
    rfl
  apply servedFree_of_result
  rw [result_acquire hstep (lt_of_heldFor hheld), acquire_named hname Nat.one_ne_zero, hresolved]
  dsimp only
  have hasked : World.heldFor (m.begun.asking m.number
      (sourceQuestions routes (m.world.session s).router.schema name)) s name = c :: rest := hheld
  have henough : 1 ≤ (c :: rest).length := Nat.le_add_left 1 rest.length
  rw [hasked, if_pos henough]
  rfl

end Surroundings

/-! ## Main result -/

section MainResult

variable {ε : Type}

/-- What a session in a world can choose from. -/
structure PrefersHeld (k : Surroundings ε) (u : World ε) (s : Nat) : Prop where
  heldFor_ne_nil : ∀ name ∈ (u.session s).holdings.names, u.heldFor s name ≠ []
  /-- The names that are held, if there are any, or else those of the physical sources. -/
  pick_iff : ∀ name, (∃ draw, k.pick u s draw = some name) ↔
    name ∈ if (u.session s).holdings.names = [] then
      (k.cluster.physical u.env (u.session s).router.schema).keys
    else (u.session s).holdings.names
  none_iff : ∀ draw, k.pick u s draw = none ↔ (u.session s).holdings.names = [] ∧
    (k.cluster.physical u.env (u.session s).router.schema).keys = []
  /-- Asked for its choices, the session tells all that a draw can fall on. -/
  told : s < u.sessions.length → ∀ m : Occurrence ε, m.world = u → m.step = .call (.choices s) →
    ∃ outcomes, m.result k = (.answered (.choices outcomes),
        if (u.session s).holdings.names = [] then
          m.begun.ask m.number (.physical (u.session s).router.schema)
        else m.begun) ∧
      ∀ outcome, outcome ∈ outcomes ↔ ∃ draw, k.pick u s draw = outcome
  /-- While something is held, a name that is drawn and still stands for a source costs nothing. -/
  free : (u.session s).holdings.names ≠ [] → ∀ draw name, k.pick u s draw = some name →
    ∀ m : Occurrence ε, m.world = u → ∀ mode, m.step = .call (.acquire s name 1 mode) →
      ∀ source, (World.resolveSource (k.cluster.logged m.number) s name m.begun).1 = .ok source →
        ∃ first rest routes, u.heldFor s name = first :: rest ∧
          u.table (.ofSession s) = some routes ∧
          k.ServedFree m (sourceQuestions routes (u.session s).router.schema name) first

theorem prefersHeld {k : Surroundings ε} {u : World ε} {s : Nat}
    (hstocked : (u.session s).holdings.Stocked)
    (hseated : (u.session s).holdings.names ≠ [] → (u.table (.ofSession s)).isSome) :
    PrefersHeld k u s := by
  have hcandidates := candidates_fst k.cluster u.calls u s
  have hpick : ∀ name, (∃ draw, k.pick u s draw = some name) ↔
      name ∈ (World.candidates (k.cluster.logged u.calls) s u).1 :=
    fun name => Choice.exists_draw_iff
  constructor
  case heldFor_ne_nil => exact hstocked.heldFor_ne_nil
  case pick_iff =>
    intro name
    rw [hpick, hcandidates]
  case none_iff =>
    intro draw
    unfold Surroundings.pick
    rw [Choice.choose?_eq_none_iff, hcandidates]
    split
    · rename_i hnames
      exact ⟨fun h => ⟨hnames, h⟩, fun h => h.2⟩
    · rename_i hnames
      exact ⟨fun h => absurd h hnames, fun h => absurd h.1 hnames⟩
  case told =>
    rintro hs m rfl hstep
    exact ⟨_, Surroundings.result_choices hstep hs, fun outcome => Choice.mem_outcomes⟩
  case free =>
    rintro hnames draw name hdraw m rfl mode hstep source hsource
    have hname : name ∈ (m.world.session s).holdings.names := by
      have hmem := (hpick name).mp ⟨draw, hdraw⟩
      rwa [hcandidates, if_neg hnames] at hmem
    obtain ⟨first, rest, hheld⟩ :=
      List.exists_cons_of_ne_nil (hstocked.heldFor_ne_nil name hname)
    have hvalid : name ≠ "" := fun h => hstocked.named (h ▸ hname)
    obtain ⟨routes, hroutes⟩ := Option.isSome_iff_exists.mp (hseated hnames)
    exact ⟨first, rest, routes, hheld, hroutes,
      Surroundings.servedFree_of_held hstep hvalid hroutes hheld hsource⟩

section Moments

variable {k : Surroundings ε} {depth : Nat} {steps : List (Step ε)} {env : ε}

theorem stocked_of_prefix {pre : List Entry}
    (hle : pre <+: (k.run depth steps (.new env)).log.toList) (s : Nat) :
    (replay s .empty pre).Stocked :=
  stocked_replay (fun e he => Surroundings.stocks_of_run e (hle.subset he)) Holdings.stocked_empty

theorem stocked_of_moment {u : World ε}
    (hu : u ∈ momentsOf k (k.tourRun depth steps (.new env)) (k.run depth steps (.new env)))
    (s : Nat) : (u.session s).holdings.Stocked := by
  obtain ⟨hle, hheld⟩ := told_of_run k depth steps env u hu
  rw [hheld s]
  exact stocked_of_prefix hle s

end Moments

/-- A draw prefers what is held and then costs no new connection, at every moment of a run. That
no name is without a connection is so also between the moments. -/
theorem choices_prefer_held (k : Surroundings ε) (depth : Nat) (steps : List (Step ε)) (env : ε) :
    k.Accounted (.new env) (k.tourRun depth steps (.new env)) (k.run depth steps (.new env)) ∧
      (∀ u ∈ momentsOf k (k.tourRun depth steps (.new env)) (k.run depth steps (.new env)), ∀ s,
        PrefersHeld k u s) ∧
      ∀ pre, pre <+: (k.run depth steps (.new env)).log.toList → ∀ s,
        (replay s .empty pre).Stocked := by
  refine ⟨k.accounted_run depth steps (.new env), ?_, fun pre hle s => stocked_of_prefix hle s⟩
  intro u hu s
  exact prefersHeld (stocked_of_moment hu s) (Surroundings.seated_of_moment u hu s)

/-- A schema with two sources. What is drawn before and after a connection of the second one is
acquired; that connection then serves a request for the drawn name, of which only the begin and
the end are on record. -/
example :
    let stage : Stage :=
      ⟨[.new "a" .plain, .new "b" .plain], [], 0, .scripted (.ofList [("s", ["a", "b"])]) none none⟩
    let after := fun steps : List Stage.Instruction =>
      Stage.surroundings.run 0 (steps.map Stage.Instruction.step) (.new stage)
    let before := after [.call (.newSession "s")]
    let held := after [.call (.newSession "s"), .call (.acquire 0 "b" 1 .memoryStrictly)]
    let again : Occurrence Stage := ⟨0, .call (.acquire 0 "b" 1 .connectionStrictly), held⟩
    [0, 1, 2].map (Stage.surroundings.pick before 0) = [some "a", some "b", some "a"] ∧
      [0, 1, 2].map (Stage.surroundings.pick held 0) = [some "b", some "b", some "b"] ∧
      held.heldFor 0 "b" = [⟨1, 0⟩] ∧
      (again.result Stage.surroundings).1 = .answered (.connections [⟨1, 0⟩]) ∧
      (again.after Stage.surroundings).heldFor 0 "b" = [⟨1, 0⟩] ∧
      (held.since (again.after Stage.surroundings)).length = 2 := by
  refine ⟨by decide +kernel, by decide +kernel, by decide +kernel, rfl, by decide +kernel,
    by decide +kernel⟩

end MainResult

end SessionBroker
