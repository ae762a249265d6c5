import SessionBroker.Proofs.Deployment

/-!
# Routed or physical

Whether a name is in the table of a session or stands for a physical source, nobody can tell: two
sessions in which all names stand for the same sources, and which hold the same, answer the same
requests with the same, attempt the same and hold the same afterwards.

Both sides are run in lockstep. `Lockstep` says of two actions that they keep a relation between
their states and have the same result; the relation here is `Tracked`.
-/

namespace SessionBroker

/-! ## Lockstep -/

section Lockstep

variable {σ₁ σ₂ α κ : Type}

/-- Two actions have the same results, and keep the relation between their states. -/
def Lockstep (T : σ₁ → σ₂ → Prop) (a₁ : StateM σ₁ α) (a₂ : StateM σ₂ α) : Prop :=
  ∀ w₁ w₂, T w₁ w₂ → (a₁ w₁).1 = (a₂ w₂).1 ∧ T (a₁ w₁).2 (a₂ w₂).2

/-- Two ways to open connections have the same results. The relation keeps which connections are
known, and knows each one that is opened. -/
def OpenTogether (T : (κ → Prop) → σ₁ → σ₂ → Prop) (open₁ : Action σ₁ κ) (open₂ : Action σ₂ κ) :
    Prop :=
  ∀ known w₁ w₂, T known w₁ w₂ → (open₁ w₁).1 = (open₂ w₂).1 ∧
    T (fun c => known c ∨ (open₁ w₁).1 = .ok c) (open₁ w₁).2 (open₂ w₂).2

theorem openTogether_openUpTo {T : (κ → Prop) → σ₁ → σ₂ → Prop} {open₁ : Action σ₁ κ}
    {open₂ : Action σ₂ κ} (h : OpenTogether T open₁ open₂) (n : Nat) {known : κ → Prop} {w₁ : σ₁}
    {w₂ : σ₂} (hw : T known w₁ w₂) :
    (openUpTo open₁ n w₁).1 = (openUpTo open₂ n w₂).1 ∧
      T (fun c => known c ∨ c ∈ (openUpTo open₁ n w₁).1.1) (openUpTo open₁ n w₁).2
        (openUpTo open₂ n w₂).2 := by
  induction n generalizing known w₁ w₂ with
  | zero =>
      have hsame : (fun c => known c ∨ c ∈ ([] : List κ)) = known := by simp
      refine ⟨rfl, ?_⟩
      show T (fun c => known c ∨ c ∈ ([] : List κ)) w₁ w₂
      rwa [hsame]
  | succ n ih =>
      obtain ⟨hresult, hstates⟩ := h known w₁ w₂ hw
      rcases hopen₁ : open₁ w₁ with ⟨r₁, u₁⟩
      rcases hopen₂ : open₂ w₂ with ⟨r₂, u₂⟩
      rw [hopen₁, hopen₂] at hresult hstates
      cases hresult
      cases r₁ with
      | error e =>
          rw [openUpTo_succ_error n hopen₁, openUpTo_succ_error n hopen₂]
          exact ⟨rfl, by simpa using hstates⟩
      | ok c =>
          obtain ⟨hrest, hrest'⟩ := ih hstates
          rw [openUpTo_succ_ok n hopen₁, openUpTo_succ_ok n hopen₂, hrest]
          refine ⟨rfl, ?_⟩
          have hsame : (fun d => known d ∨ d ∈ c :: (openUpTo open₂ n u₂).1.1) =
              fun d => (known d ∨ Except.ok (ε := Error) c = .ok d) ∨
                d ∈ (openUpTo open₁ n u₁).1.1 := by
            funext d
            rw [hrest]
            simp only [List.mem_cons, Except.ok.injEq, eq_comm, or_assoc]
          show T (fun d => known d ∨ d ∈ c :: (openUpTo open₂ n u₂).1.1) _ _
          rw [hsame]
          exact hrest'

theorem lockstep_inTurn {T : σ₁ → σ₂ → Prop} {close₁ : κ → Action σ₁ Unit}
    {close₂ : κ → Action σ₂ Unit} {cs : List κ} (h : ∀ c ∈ cs, Lockstep T (close₁ c) (close₂ c)) :
    Lockstep T (inTurn (cs.map close₁)) (inTurn (cs.map close₂)) := by
  induction cs with
  | nil => exact fun w₁ w₂ hw => ⟨rfl, hw⟩
  | cons c cs ih =>
      intro w₁ w₂ hw
      obtain ⟨hresult, hstates⟩ := h c List.mem_cons_self w₁ w₂ hw
      obtain ⟨hrest, hrest'⟩ := ih (fun d hd => h d (List.mem_cons_of_mem c hd)) _ _ hstates
      rw [List.map_cons, List.map_cons, inTurn_cons, inTurn_cons, hrest, hresult]
      exact ⟨rfl, hrest'⟩

end Lockstep

/-! ## Requests -/

/-- What can be asked of a session, but for questions about its table. -/
inductive Request where
  | acquire (name : String) (count : Nat) (mode : AcquisitionMode)
  | release
  | held (name : String)
  | heldNames
  | isValid

def Request.on (s : Nat) : Request → Call
  | .acquire name count mode => .acquire s name count mode
  | .release => .release s
  | .held name => .held s name
  | .heldNames => .heldNames s
  | .isValid => .isValid s

/-- A session with its schema and its table, in its surroundings. -/
structure Site (ε : Type) where
  surroundings : Surroundings ε
  depth : Nat
  session : Nat
  schema : String
  routes : Routes

namespace Site

variable {ε : Type}

/-- What a name stands for. -/
def resolve (p : Site ε) (env : ε) (name : String) : Option SourceId :=
  sourceOf p.routes (p.surroundings.cluster.physical env p.schema) name

/-- The session is there, and has the schema and the table. -/
structure In (p : Site ε) (w : World ε) : Prop where
  session_lt : p.session < w.sessions.length
  router_eq : (w.session p.session).router = ⟨p.schema, some p.routes⟩

theorem In.of_same {p : Site ε} {w u : World ε} (h : p.In w) (hsessions : u.sessions = w.sessions) :
    p.In u := by
  have hsession := World.session_congr hsessions p.session
  exact ⟨hsessions ▸ h.session_lt, hsession ▸ h.router_eq⟩

theorem In.session_update {p : Site ε} {w : World ε} (h : p.In w)
    (f : Holdings Connection → Holdings Connection) :
    (w.updateSession p.session fun t => { t with holdings := f t.holdings }).session p.session =
      { w.session p.session with holdings := f (w.session p.session).holdings } := by
  rw [World.session_updateSession, if_pos ⟨rfl, h.session_lt⟩]

theorem In.update {p : Site ε} {w : World ε} (h : p.In w)
    (f : Holdings Connection → Holdings Connection) :
    p.In (w.updateSession p.session fun t => { t with holdings := f t.holdings }) where
  session_lt := by
    rw [World.length_updateSession]
    exact h.session_lt
  router_eq := by
    rw [h.session_update]
    exact h.router_eq

theorem In.resolveSource_eq {p : Site ε} {w : World ε} (h : p.In w) (n : Nat) (name : String) :
    World.resolveSource (p.surroundings.cluster.logged n) p.session name w =
      ((p.resolve w.env name).elim (.error (.unknownDataSource name)) .ok,
        w.asking n (sourceQuestions p.routes p.schema name)) := by
  have hroutes : (w.session p.session).router.routes = some p.routes := by rw [h.router_eq]
  rw [Surroundings.resolveSource_of_known p.surroundings hroutes, h.router_eq]
  rfl

theorem In.isPossible {p : Site ε} {w : World ε} (h : p.In w) (q : Request) :
    Surroundings.isPossible w (q.on p.session) = true := by
  have hlt := h.session_lt
  cases q <;> simpa [Surroundings.isPossible, Request.on, Call.session?, Call.router?] using hlt

theorem view?_on (k : Surroundings ε) (w : World ε) (s : Nat) (q : Request) :
    k.view? w (.call (q.on s)) = some ⟨(w.session s).holdings.entries, k.isValid w s⟩ := by
  cases q <;> rfl

/-- Makes a request and reports on it. -/
def report (p : Site ε) (q : Request) : StateM (World ε) Record :=
  p.surroundings.report p.depth (.call (q.on p.session))

/-- Makes requests, one after the other. -/
def serve (p : Site ε) (requests : List Request) : StateM (World ε) (List Record) :=
  requests.mapM p.report

theorem serve_cons (p : Site ε) (q : Request) (requests : List Request) (w : World ε) :
    p.serve (q :: requests) w =
      ((p.report q w).1 :: (p.serve requests (p.report q w).2).1,
        (p.serve requests (p.report q w).2).2) := by
  rw [serve, List.mapM_cons]
  rfl

end Site

/-- A record that has the attempts alone for its events. -/
def Record.shown (r : Record) : Record := { r with events := r.events.filter Event.isAttempt }

/-- The attempts in a piece of a log. -/
def attemptsIn (es : List Entry) : List Event := (es.map Entry.event).filter Event.isAttempt

theorem attemptsIn_append (es es' : List Entry) :
    attemptsIn (es ++ es') = attemptsIn es ++ attemptsIn es' := by
  rw [attemptsIn, List.map_append, List.filter_append]
  rfl

theorem attemptsIn_since {ε : Type} {w w' : World ε} {es : List Entry} {new : List Event}
    (hlog : w'.log.toList = w.log.toList ++ es)
    (hnew : attemptsIn w'.log.toList = attemptsIn w.log.toList ++ new) :
    attemptsIn (w.since w') = new := by
  rw [hlog, attemptsIn_append] at hnew
  rw [since_eq hlog]
  exact List.append_cancel_left hnew

/-! ## Calls in step -/

section InStep

variable {ε₁ ε₂ : Type}

/-- What a relation between two worlds must be like for calls on two sessions to keep it: attempts
of the calls with these numbers keep it, and so do questions and changes of what is held. The
relation also keeps which connections are known; only such are closed. Names are resolved alike if
they are served. -/
structure InStep (p₁ : Site ε₁) (p₂ : Site ε₂) (nested₁ : Step ε₁ → StateM (World ε₁) Unit)
    (nested₂ : Step ε₂ → StateM (World ε₂) Unit) (n₁ n₂ : Nat) (served : String → Prop)
    (T : (Connection → Prop) → World ε₁ → World ε₂ → Prop) : Prop where
  sites : ∀ {known w₁ w₂}, T known w₁ w₂ → p₁.In w₁ ∧ p₂.In w₂
  held_eq : ∀ {known w₁ w₂}, T known w₁ w₂ →
    (w₁.session p₁.session).holdings = (w₂.session p₂.session).holdings
  held_known : ∀ {known w₁ w₂}, T known w₁ w₂ →
    ∀ c ∈ (w₁.session p₁.session).holdings.all, known c
  isValid_eq : ∀ {known w₁ w₂}, T known w₁ w₂ →
    p₁.surroundings.isValid w₁ p₁.session = p₂.surroundings.isValid w₂ p₂.session
  resolve_eq : ∀ {known w₁ w₂ name}, T known w₁ w₂ → served name →
    p₁.resolve w₁.env name = p₂.resolve w₂.env name
  asks : ∀ {known w₁ w₂}, T known w₁ w₂ → ∀ qs₁ qs₂,
    T known (w₁.asking n₁ qs₁) (w₂.asking n₂ qs₂)
  opens : ∀ {known w₁ w₂ name source}, T known w₁ w₂ → served name →
    p₁.resolve w₁.env name = some source →
    OpenTogether T (p₁.surroundings.attemptOpen nested₁ n₁ source)
      (p₂.surroundings.attemptOpen nested₂ n₂ source)
  closes : ∀ known c, known c → Lockstep (T known) (p₁.surroundings.attemptClose nested₁ n₁ c)
    (p₂.surroundings.attemptClose nested₂ n₂ c)
  keeps : ∀ {known w₁ w₂}, T known w₁ w₂ → ∀ name batch, (∀ c ∈ batch, known c) →
    T known (w₁.keep n₁ p₁.session name batch) (w₂.keep n₂ p₂.session name batch)
  drains : ∀ {known w₁ w₂}, T known w₁ w₂ →
    T known (w₁.drain n₁ p₁.session) (w₂.drain n₂ p₂.session)

/-- All names that a request resolves are served. -/
def Request.Within (served : String → Prop) : Request → Prop
  | .acquire name _ _ => served name
  | _ => True

namespace InStep

variable {p₁ : Site ε₁} {p₂ : Site ε₂} {nested₁ : Step ε₁ → StateM (World ε₁) Unit}
  {nested₂ : Step ε₂ → StateM (World ε₂) Unit} {n₁ n₂ : Nat} {served : String → Prop}
  {T : (Connection → Prop) → World ε₁ → World ε₂ → Prop} {known : Connection → Prop}
  {w₁ : World ε₁} {w₂ : World ε₂}

theorem heldFor_eq (h : InStep p₁ p₂ nested₁ nested₂ n₁ n₂ served T) (hw : T known w₁ w₂) :
    w₁.heldFor p₁.session = w₂.heldFor p₂.session := by
  funext name
  exact congrArg (Holdings.heldFor · name) (h.held_eq hw)

/-- The names are resolved by what they stand for, and by nothing else. -/
theorem acquire (h : InStep p₁ p₂ nested₁ nested₂ n₁ n₂ served T) (hw : T known w₁ w₂)
    {name : String} (hname : served name) (count : Nat) (mode : AcquisitionMode) :
    (World.acquire (p₁.surroundings.cluster.logged n₁) (p₁.surroundings.sources nested₁ n₁) n₁
        p₁.session name count mode w₁).1 =
      (World.acquire (p₂.surroundings.cluster.logged n₂) (p₂.surroundings.sources nested₂ n₂) n₂
        p₂.session name count mode w₂).1 ∧
      ∃ known', T known'
        (World.acquire (p₁.surroundings.cluster.logged n₁) (p₁.surroundings.sources nested₁ n₁) n₁
          p₁.session name count mode w₁).2
        (World.acquire (p₂.surroundings.cluster.logged n₂) (p₂.surroundings.sources nested₂ n₂) n₂
          p₂.session name count mode w₂).2 := by
  obtain ⟨hleft, hright⟩ := h.sites hw
  by_cases hunnamed : name = ""
  · rw [acquire_unnamed hunnamed, acquire_unnamed hunnamed]
    exact ⟨rfl, known, hw⟩
  by_cases hcount : count = 0
  · rw [acquire_uncounted hunnamed hcount, acquire_uncounted hunnamed hcount]
    exact ⟨rfl, known, hw⟩
  rw [acquire_named hunnamed hcount, acquire_named hunnamed hcount, hleft.resolveSource_eq n₁ name,
    hright.resolveSource_eq n₂ name, ← h.resolve_eq hw hname]
  -- one name may be asked for among the physical sources, and the other be in a table
  have hasked := h.asks hw (sourceQuestions p₁.routes p₁.schema name)
    (sourceQuestions p₂.routes p₂.schema name)
  have hstands : ∀ {source}, p₁.resolve w₁.env name = some source →
      p₁.resolve (w₁.asking n₁ (sourceQuestions p₁.routes p₁.schema name)).env name = some source :=
    id
  generalize w₁.asking n₁ _ = v₁ at hasked hstands ⊢
  generalize w₂.asking n₂ _ = v₂ at hasked ⊢
  cases hsource : p₁.resolve w₁.env name with
  | none => exact ⟨rfl, known, hasked⟩
  | some source =>
      dsimp only [Option.elim]
      rw [h.heldFor_eq hasked]
      by_cases henough : count ≤ (v₂.heldFor p₂.session name).length
      · rw [if_pos henough, if_pos henough]
        exact ⟨rfl, known, hasked⟩
      rw [if_neg henough, if_neg henough]
      obtain ⟨hbatch, hopened⟩ := openTogether_openUpTo (h.opens hasked hname (hstands hsource))
        (count - (v₂.heldFor p₂.session name).length) hasked
      rcases hopen₁ : openUpTo (p₁.surroundings.attemptOpen nested₁ n₁ source)
        (count - (v₂.heldFor p₂.session name).length) v₁ with ⟨⟨opened, failure⟩, u₁⟩
      rcases hopen₂ : openUpTo (p₂.surroundings.attemptOpen nested₂ n₂ source)
        (count - (v₂.heldFor p₂.session name).length) v₂ with ⟨r₂, u₂⟩
      rw [hopen₁, hopen₂] at hbatch hopened
      cases hbatch
      simp only [Surroundings.sources, hopen₁, hopen₂]
      cases failure with
      | some cause =>
          -- what had been opened is closed in both
          have hclosed := lockstep_inTurn (fun c (hc : c ∈ opened) => h.closes _ c (.inr hc)) u₁ u₂
            hopened
          simp only [closeAll_eq]
          exact ⟨trivial, _, hclosed.2⟩
      | none =>
          refine ⟨rfl, fun c => known c ∨ c ∈ opened, ?_⟩
          cases mode with
          | memoryStrictly => exact h.keeps hopened name opened fun c hc => .inr hc
          | connectionStrictly => exact hopened

theorem release (h : InStep p₁ p₂ nested₁ nested₂ n₁ n₂ served T) :
    Lockstep (T known) (World.release (p₁.surroundings.sources nested₁ n₁) n₁ p₁.session)
      (World.release (p₂.surroundings.sources nested₂ n₂) n₂ p₂.session) := by
  intro w₁ w₂ hw
  obtain ⟨hresults, hclosed⟩ :=
    lockstep_inTurn (fun c hc => h.closes known c (h.held_known hw c hc)) _ _ (h.drains hw)
  rw [release_eq, release_eq]
  dsimp only [Surroundings.sources]
  rw [← h.held_eq hw, ← Holdings.all, hresults]
  exact ⟨rfl, hclosed⟩

theorem outcome (h : InStep p₁ p₂ nested₁ nested₂ n₁ n₂ served T) (hw : T known w₁ w₂)
    {q : Request} (hq : q.Within served) :
    (p₁.surroundings.outcome (p₁.surroundings.sources nested₁ n₁) n₁ (.call (q.on p₁.session))
        w₁).1 =
      (p₂.surroundings.outcome (p₂.surroundings.sources nested₂ n₂) n₂ (.call (q.on p₂.session))
        w₂).1 ∧
      ∃ known', T known'
        (p₁.surroundings.outcome (p₁.surroundings.sources nested₁ n₁) n₁ (.call (q.on p₁.session))
          w₁).2
        (p₂.surroundings.outcome (p₂.surroundings.sources nested₂ n₂) n₂ (.call (q.on p₂.session))
          w₂).2 := by
  obtain ⟨hleft, hright⟩ := h.sites hw
  rw [Surroundings.outcome_call, Surroundings.outcome_call, if_pos (hleft.isPossible q),
    if_pos (hright.isPossible q)]
  cases q with
  | acquire name count mode =>
      obtain ⟨hresult, hstates⟩ := h.acquire hw hq count mode
      rw [Request.on, Request.on, Surroundings.answer_acquire, Surroundings.answer_acquire]
      dsimp only
      rw [hresult]
      exact ⟨rfl, hstates⟩
  | release =>
      obtain ⟨hresult, hstates⟩ := h.release w₁ w₂ hw
      rw [Request.on, Request.on, Surroundings.answer_release, Surroundings.answer_release]
      dsimp only
      rw [hresult]
      exact ⟨rfl, known, hstates⟩
  | held name =>
      refine ⟨?_, known, hw⟩
      show Outcome.answered (.connections (w₁.heldFor p₁.session name)) = _
      rw [h.heldFor_eq hw]
      rfl
  | heldNames =>
      refine ⟨?_, known, hw⟩
      show Outcome.answered (.names (w₁.session p₁.session).holdings.names) = _
      rw [h.held_eq hw]
      rfl
  | isValid =>
      refine ⟨?_, known, hw⟩
      show Outcome.answered (.flag (p₁.surroundings.isValid w₁ p₁.session)) = _
      rw [h.isValid_eq hw]
      rfl

end InStep

/-- The step that makes a request, in the world that it finds. -/
def Site.asks {ε : Type} (p : Site ε) (q : Request) (w : World ε) : Occurrence ε :=
  ⟨p.depth, .call (q.on p.session), w⟩

theorem Site.report_eq {ε : Type} (p : Site ε) (q : Request) (w : World ε) :
    p.report q w =
      (⟨((p.asks q w).result p.surroundings).1,
        p.surroundings.view? ((p.asks q w).result p.surroundings).2 (.call (q.on p.session)),
        ((p.asks q w).begun.since ((p.asks q w).result p.surroundings).2).map Entry.event⟩,
        (p.asks q w).after p.surroundings) :=
  (p.asks q w).report_eq p.surroundings

/-- Requests in step are answered the same, with the same attempts. -/
theorem InStep.report {p₁ : Site ε₁} {p₂ : Site ε₂} {w₁ : World ε₁} {w₂ : World ε₂}
    {served : String → Prop} {T : (Connection → Prop) → World ε₁ → World ε₂ → Prop}
    {known : Connection → Prop}
    (h : InStep p₁ p₂ (p₁.surroundings.nested p₁.depth) (p₂.surroundings.nested p₂.depth) w₁.calls
      w₂.calls served T) {q : Request} (hq : q.Within served)
    (hw : T known (p₁.asks q w₁).begun (p₂.asks q w₂).begun)
    (hattempts : ∀ {known u₁ u₂}, T known u₁ u₂ → ∃ new,
      attemptsIn u₁.log.toList = attemptsIn (p₁.asks q w₁).begun.log.toList ++ new ∧
      attemptsIn u₂.log.toList = attemptsIn (p₂.asks q w₂).begun.log.toList ++ new) :
    (p₁.report q w₁).1.shown = (p₂.report q w₂).1.shown ∧
      ∃ known', T known' ((p₁.asks q w₁).result p₁.surroundings).2
        ((p₂.asks q w₂).result p₂.surroundings).2 := by
  obtain ⟨houtcome, known', hresult⟩ :
      ((p₁.asks q w₁).result p₁.surroundings).1 = ((p₂.asks q w₂).result p₂.surroundings).1 ∧
        ∃ known', T known' ((p₁.asks q w₁).result p₁.surroundings).2
          ((p₂.asks q w₂).result p₂.surroundings).2 := h.outcome hw hq
  refine ⟨?_, known', hresult⟩
  have hview : p₁.surroundings.view? ((p₁.asks q w₁).result p₁.surroundings).2
        (.call (q.on p₁.session)) =
      p₂.surroundings.view? ((p₂.asks q w₂).result p₂.surroundings).2
        (.call (q.on p₂.session)) := by
    rw [Site.view?_on, Site.view?_on, h.held_eq hresult, h.isValid_eq hresult]
  have hevents : attemptsIn ((p₁.asks q w₁).begun.since
        ((p₁.asks q w₁).result p₁.surroundings).2) =
      attemptsIn ((p₂.asks q w₂).begun.since ((p₂.asks q w₂).result p₂.surroundings).2) := by
    obtain ⟨new, hnew₁, hnew₂⟩ := hattempts hresult
    obtain ⟨es₁, hes₁⟩ := (p₁.asks q w₁).stretch_result p₁.surroundings
    obtain ⟨es₂, hes₂⟩ := (p₂.asks q w₂).stretch_result p₂.surroundings
    rw [attemptsIn_since hes₁.log_eq hnew₁, attemptsIn_since hes₂.log_eq hnew₂]
  rw [p₁.report_eq, p₂.report_eq]
  show (⟨_, _, attemptsIn _⟩ : Record) = ⟨_, _, attemptsIn _⟩
  rw [houtcome, hview, hevents]

end InStep

section Sites

variable {ε₁ ε₂ : Type}

/-- Names stand for the same sources in both surroundings, and sources behave the same. No steps run
inside attempts. -/
structure Alike (R : ε₁ → ε₂ → Prop) (p₁ : Site ε₁) (p₂ : Site ε₂) : Prop where
  resolve_eq : ∀ env₁ env₂, R env₁ env₂ → p₁.resolve env₁ = p₂.resolve env₂
  isClosed_eq : ∀ env₁ env₂, R env₁ env₂ →
    p₁.surroundings.isClosed env₁ = p₂.surroundings.isClosed env₂
  beginOpen : ∀ source env₁ env₂, R env₁ env₂ →
    (p₁.surroundings.beginOpen source env₁).1 = [] ∧
      (p₂.surroundings.beginOpen source env₂).1 = [] ∧
      R (p₁.surroundings.beginOpen source env₁).2 (p₂.surroundings.beginOpen source env₂).2
  finishOpen : ∀ source,
    Lockstep R (p₁.surroundings.finishOpen source) (p₂.surroundings.finishOpen source)
  beginClose : ∀ c env₁ env₂, R env₁ env₂ →
    (p₁.surroundings.beginClose c env₁).1 = [] ∧
      (p₂.surroundings.beginClose c env₂).1 = [] ∧
      R (p₁.surroundings.beginClose c env₁).2 (p₂.surroundings.beginClose c env₂).2
  finishClose : ∀ c, Lockstep R (p₁.surroundings.finishClose c) (p₂.surroundings.finishClose c)

/-- Two worlds with the sessions, which hold the same. -/
structure Matched (R : ε₁ → ε₂ → Prop) (p₁ : Site ε₁) (p₂ : Site ε₂) (w₁ : World ε₁)
    (w₂ : World ε₂) : Prop where
  env : R w₁.env w₂.env
  left : p₁.In w₁
  right : p₂.In w₂
  held_eq : (w₁.session p₁.session).holdings = (w₂.session p₂.session).holdings

/-- Two matched worlds with the same attempts, but for those that came before. -/
structure Tracked (R : ε₁ → ε₂ → Prop) (p₁ : Site ε₁) (p₂ : Site ε₂) (before₁ before₂ : List Event)
    (w₁ : World ε₁) (w₂ : World ε₂) : Prop extends Matched R p₁ p₂ w₁ w₂ where
  attempts : ∃ new, attemptsIn w₁.log.toList = before₁ ++ new ∧
    attemptsIn w₂.log.toList = before₂ ++ new

variable {R : ε₁ → ε₂ → Prop} {p₁ : Site ε₁} {p₂ : Site ε₂} {before₁ before₂ : List Event}
  {w₁ : World ε₁} {w₂ : World ε₂}

theorem Matched.tracked (h : Matched R p₁ p₂ w₁ w₂) :
    Tracked R p₁ p₂ (attemptsIn w₁.log.toList) (attemptsIn w₂.log.toList) w₁ w₂ :=
  { h with attempts := ⟨[], (List.append_nil _).symm, (List.append_nil _).symm⟩ }

/-- Nothing else of the worlds matters. -/
theorem Matched.of_same (h : Matched R p₁ p₂ w₁ w₂) {u₁ : World ε₁} {u₂ : World ε₂}
    (henv₁ : u₁.env = w₁.env) (hsessions₁ : u₁.sessions = w₁.sessions) (henv₂ : u₂.env = w₂.env)
    (hsessions₂ : u₂.sessions = w₂.sessions) : Matched R p₁ p₂ u₁ u₂ where
  env := by rw [henv₁, henv₂]; exact h.env
  left := h.left.of_same hsessions₁
  right := h.right.of_same hsessions₂
  held_eq := by
    rw [World.session, World.session, hsessions₁, hsessions₂]
    exact h.held_eq

/-! ## Worlds in step -/

namespace Tracked

theorem withEnv (h : Tracked R p₁ p₂ before₁ before₂ w₁ w₂) {env₁ : ε₁} {env₂ : ε₂}
    (henv : R env₁ env₂) :
    Tracked R p₁ p₂ before₁ before₂ { w₁ with env := env₁ } { w₂ with env := env₂ } where
  env := henv
  left := h.left.of_same rfl
  right := h.right.of_same rfl
  held_eq := h.held_eq
  attempts := h.attempts

/-- It does not matter what is asked. -/
theorem asking (h : Tracked R p₁ p₂ before₁ before₂ w₁ w₂) (n₁ n₂ : Nat) (qs₁ qs₂ : List Question) :
    Tracked R p₁ p₂ before₁ before₂ (w₁.asking n₁ qs₁) (w₂.asking n₂ qs₂) where
  env := h.env
  left := h.left.of_same rfl
  right := h.right.of_same rfl
  held_eq := h.held_eq
  attempts := h.attempts

/-- The numbers of the calls do not matter, and neither do events that are no attempts. -/
theorem record (h : Tracked R p₁ p₂ before₁ before₂ w₁ w₂) (n₁ n₂ : Nat) {e₁ e₂ : Event}
    (he : [e₁].filter Event.isAttempt = [e₂].filter Event.isAttempt) :
    Tracked R p₁ p₂ before₁ before₂ (w₁.record n₁ e₁) (w₂.record n₂ e₂) where
  env := h.env
  left := h.left.of_same rfl
  right := h.right.of_same rfl
  held_eq := h.held_eq
  attempts := by
    obtain ⟨new, h₁, h₂⟩ := h.attempts
    refine ⟨new ++ [e₁].filter Event.isAttempt, ?_, ?_⟩
    · rw [World.log_record, attemptsIn_append, h₁, List.append_assoc]
      rfl
    · rw [World.log_record, attemptsIn_append, h₂, List.append_assoc, he]
      rfl

/-- Both sessions come to hold something else. -/
theorem update (h : Tracked R p₁ p₂ before₁ before₂ w₁ w₂)
    (g : Holdings Connection → Holdings Connection) :
    Tracked R p₁ p₂ before₁ before₂
      (w₁.updateSession p₁.session fun t => { t with holdings := g t.holdings })
      (w₂.updateSession p₂.session fun t => { t with holdings := g t.holdings }) := by
  refine ⟨⟨h.env, h.left.update g, h.right.update g, ?_⟩, h.attempts⟩
  rw [h.left.session_update, h.right.session_update]
  exact congrArg g h.held_eq

theorem keep (h : Tracked R p₁ p₂ before₁ before₂ w₁ w₂) (n₁ n₂ : Nat) (name : String)
    (batch : List Connection) :
    Tracked R p₁ p₂ before₁ before₂ (w₁.keep n₁ p₁.session name batch)
      (w₂.keep n₂ p₂.session name batch) :=
  (h.update fun held => held.hold name batch).record n₁ n₂ rfl

theorem drain (h : Tracked R p₁ p₂ before₁ before₂ w₁ w₂) (n₁ n₂ : Nat) :
    Tracked R p₁ p₂ before₁ before₂ (w₁.drain n₁ p₁.session) (w₂.drain n₂ p₂.session) :=
  (h.update fun held => held.drain.2).record n₁ n₂ rfl

end Tracked

/-! ## Calls -/

section Calls

variable (h : Alike R p₁ p₂) (nested₁ : Step ε₁ → StateM (World ε₁) Unit)
  (nested₂ : Step ε₂ → StateM (World ε₂) Unit) (n₁ n₂ : Nat)

include h

theorem lockstep_attemptOpen (source : SourceId) :
    Lockstep (Tracked R p₁ p₂ before₁ before₂)
      (p₁.surroundings.attemptOpen nested₁ n₁ source)
      (p₂.surroundings.attemptOpen nested₂ n₂ source) := by
  intro w₁ w₂ hw
  have hopening : Tracked R p₁ p₂ before₁ before₂ (w₁.record n₁ (.opening source))
      (w₂.record n₂ (.opening source)) := hw.record n₁ n₂ rfl
  obtain ⟨hnone₁, hnone₂, hbegun⟩ := h.beginOpen source _ _ hopening.env
  obtain ⟨hresult, hended⟩ := h.finishOpen source _ _ hbegun
  rw [Surroundings.attemptOpen_apply, Surroundings.attemptOpen_apply]
  dsimp only
  rw [hnone₁, hnone₂, Surroundings.forM_nil_apply, Surroundings.forM_nil_apply]
  dsimp only
  refine ⟨hresult, ((hopening.withEnv hbegun).withEnv hended).record n₁ n₂ ?_⟩
  rw [hresult]

theorem lockstep_attemptClose (c : Connection) :
    Lockstep (Tracked R p₁ p₂ before₁ before₂)
      (p₁.surroundings.attemptClose nested₁ n₁ c) (p₂.surroundings.attemptClose nested₂ n₂ c) := by
  intro w₁ w₂ hw
  have hclosing : Tracked R p₁ p₂ before₁ before₂ (w₁.record n₁ (.closing c))
      (w₂.record n₂ (.closing c)) := hw.record n₁ n₂ rfl
  obtain ⟨hnone₁, hnone₂, hbegun⟩ := h.beginClose c _ _ hclosing.env
  obtain ⟨hresult, hended⟩ := h.finishClose c _ _ hbegun
  rw [Surroundings.attemptClose_apply, Surroundings.attemptClose_apply]
  dsimp only
  rw [hnone₁, hnone₂, Surroundings.forM_nil_apply, Surroundings.forM_nil_apply]
  dsimp only
  refine ⟨hresult, ((hclosing.withEnv hbegun).withEnv hended).record n₁ n₂ ?_⟩
  rw [hresult]

/-- What is closed is the same. -/
theorem isValid_eq (hw : Matched R p₁ p₂ w₁ w₂) :
    p₁.surroundings.isValid w₁ p₁.session = p₂.surroundings.isValid w₂ p₂.session := by
  rw [Surroundings.isValid, Surroundings.isValid, hw.held_eq, h.isClosed_eq _ _ hw.env]

/-- All connections are known to both sides, and all names are served. -/
theorem Alike.inStep :
    InStep p₁ p₂ nested₁ nested₂ n₁ n₂ (fun _ => True)
      fun known u₁ u₂ => (∀ c, known c) ∧ Tracked R p₁ p₂ before₁ before₂ u₁ u₂ where
  sites := fun hw => ⟨hw.2.left, hw.2.right⟩
  held_eq := fun hw => hw.2.held_eq
  held_known := fun hw c _ => hw.1 c
  isValid_eq := fun hw => isValid_eq h hw.2.toMatched
  resolve_eq := fun hw _ => congrFun (h.resolve_eq _ _ hw.2.env) _
  asks := fun hw qs₁ qs₂ => ⟨hw.1, hw.2.asking n₁ n₂ qs₁ qs₂⟩
  opens := fun _ _ _ _ u₁ u₂ hu =>
    have hopened := lockstep_attemptOpen h nested₁ nested₂ n₁ n₂ _ u₁ u₂ hu.2
    ⟨hopened.1, fun c => .inl (hu.1 c), hopened.2⟩
  closes := fun _ c _ u₁ u₂ hu =>
    have hclosed := lockstep_attemptClose h nested₁ nested₂ n₁ n₂ c u₁ u₂ hu.2
    ⟨hclosed.1, hu.1, hclosed.2⟩
  keeps := fun hw name batch _ => ⟨hw.1, hw.2.keep n₁ n₂ name batch⟩
  drains := fun hw => ⟨hw.1, hw.2.drain n₁ n₂⟩

omit nested₁ nested₂ n₁ n₂ in
/-- A request is answered the same, with the same attempts, and the sessions hold the same then. -/
theorem report_shown (q : Request) (hw : Matched R p₁ p₂ w₁ w₂) :
    (p₁.report q w₁).1.shown = (p₂.report q w₂).1.shown ∧
      Matched R p₁ p₂ (p₁.report q w₁).2 (p₂.report q w₂).2 := by
  have hbegun : Matched R p₁ p₂ (p₁.asks q w₁).begun (p₂.asks q w₂).begun :=
    hw.of_same rfl rfl rfl rfl
  have hserved : q.Within fun _ => True := by cases q <;> trivial
  obtain ⟨hshown, -, -, hresult⟩ := (Alike.inStep h _ _ _ _).report hserved
    ⟨fun _ => trivial, hbegun.tracked⟩ fun hu => hu.2.attempts
  rw [p₁.report_eq, p₂.report_eq] at hshown ⊢
  refine ⟨hshown, hresult.toMatched.of_same ?_ ?_ ?_ ?_⟩
  · rw [(p₁.asks q w₁).after_eq]
    rfl
  · rw [(p₁.asks q w₁).after_eq]
    rfl
  · rw [(p₂.asks q w₂).after_eq]
    rfl
  · rw [(p₂.asks q w₂).after_eq]
    rfl

end Calls

/-! ## Main result -/

/-- If names stand for the same sources, and the sessions hold the same, requests are answered with
the same, with the same attempts, and the sessions hold the same in the end. -/
theorem routing_transparent (h : Alike R p₁ p₂) (hw : Matched R p₁ p₂ w₁ w₂)
    (requests : List Request) :
    (p₁.serve requests w₁).1.map Record.shown = (p₂.serve requests w₂).1.map Record.shown ∧
      Matched R p₁ p₂ (p₁.serve requests w₁).2 (p₂.serve requests w₂).2 := by
  induction requests generalizing w₁ w₂ with
  | nil => exact ⟨rfl, hw⟩
  | cons q requests ih =>
      obtain ⟨hrecord, hafter⟩ := report_shown h q hw
      obtain ⟨hrecords, hend⟩ := ih hafter
      rw [Site.serve_cons, Site.serve_cons, List.map_cons, List.map_cons, hrecord, hrecords]
      exact ⟨rfl, hend⟩

end Sites

/-! ## A stage twice -/

namespace Stage

/-- Nothing is played inside attempts. -/
def Uncued (st : Stage) : Prop := ∀ source ∈ st.sources, source.behaviour.cues = []

/-- The same stage twice, without cues. -/
def Twins (st₁ st₂ : Stage) : Prop := st₁ = st₂ ∧ st₁.Uncued

variable {st : Stage} {s : SourceId} {source : Source}

theorem Uncued.cued (h : st.Uncued) (hsource : st.source? s = some source) (moment : Moment) :
    Stage.cued source moment = [] := by
  rw [Stage.cued, h source (List.mem_of_getElem? hsource)]
  rfl

theorem Uncued.updateSource {f : Source → Source} (h : st.Uncued) (s : SourceId)
    (hf : ∀ t, (f t).behaviour = t.behaviour) : (st.updateSource s f).Uncued := by
  intro source hsource
  obtain ⟨i, hi⟩ := List.mem_iff_getElem?.mp hsource
  rw [Stage.updateSource, List.getElem?_modify] at hi
  obtain ⟨t, ht, hsame⟩ := Option.map_eq_some_iff.mp hi
  have huncued := h t (List.mem_of_getElem? ht)
  rw [← hsame]
  split
  · rw [hf]
    exact huncued
  · exact huncued

theorem Uncued.beginOpen (h : st.Uncued) (s : SourceId) :
    (Stage.beginOpen s st).1 = [] ∧ (Stage.beginOpen s st).2.Uncued := by
  simp only [Stage.beginOpen, stateM_bind_apply, stateM_get_apply]
  cases hsource : st.source? s with
  | none => exact ⟨rfl, h⟩
  | some source => exact ⟨h.cued hsource _, h.updateSource s fun _ => rfl⟩

theorem Uncued.beginClose (h : st.Uncued) (c : Connection) :
    (Stage.beginClose c st).1 = [] ∧ (Stage.beginClose c st).2.Uncued := by
  simp only [Stage.beginClose, stateM_bind_apply, stateM_get_apply]
  cases hsource : st.source? c.source with
  | none => exact ⟨rfl, h⟩
  | some source => exact ⟨h.cued hsource _, h⟩

theorem Uncued.finishOpen (h : st.Uncued) (s : SourceId) : (Stage.finishOpen s st).2.Uncued := by
  simp only [Stage.finishOpen, Action.bind_apply, Action.get_apply]
  cases st.source? s with
  | none => exact h
  | some source =>
      dsimp only
      split
      · exact h
      · exact h.updateSource s fun _ => rfl

theorem Uncued.finishClose (h : st.Uncued) (c : Connection) :
    (Stage.finishClose c st).2.Uncued := by
  simp only [Stage.finishClose, Action.bind_apply, Action.get_apply]
  cases st.source? c.source with
  | none => exact h
  | some source =>
      dsimp only
      split
      · exact h
      · exact h.updateSource c.source fun _ => rfl

/-- A session in a deployment on the stage. -/
def site (d : Deployment) (depth session : Nat) (schema : String) (routes : Routes) : Site Stage :=
  ⟨surroundings.deployed d, depth, session, schema, routes⟩

theorem alike_sites {d₁ d₂ : Deployment} {depth₁ depth₂ s₁ s₂ : Nat} {schema₁ schema₂ : String}
    {routes₁ routes₂ : Routes} (hresolve : ∀ env, (site d₁ depth₁ s₁ schema₁ routes₁).resolve env =
      (site d₂ depth₂ s₂ schema₂ routes₂).resolve env) :
    Alike Twins (site d₁ depth₁ s₁ schema₁ routes₁) (site d₂ depth₂ s₂ schema₂ routes₂) where
  resolve_eq := by
    rintro st _ ⟨rfl, -⟩
    exact hresolve st
  isClosed_eq := by
    rintro st _ ⟨rfl, -⟩
    rfl
  beginOpen := by
    rintro source st _ ⟨rfl, huncued⟩
    obtain ⟨hnone, hafter⟩ := huncued.beginOpen source
    exact ⟨hnone, hnone, rfl, hafter⟩
  finishOpen := by
    rintro source st _ ⟨rfl, huncued⟩
    exact ⟨rfl, rfl, huncued.finishOpen source⟩
  beginClose := by
    rintro c st _ ⟨rfl, huncued⟩
    obtain ⟨hnone, hafter⟩ := huncued.beginClose c
    exact ⟨hnone, hnone, rfl, hafter⟩
  finishClose := by
    rintro c st _ ⟨rfl, huncued⟩
    exact ⟨rfl, rfl, huncued.finishClose c⟩

/-- A source that opens two connections, and fails to close them. -/
def stubborn : Stage := ⟨[.new "ds" ⟨some 2, none, true, []⟩], [], 0, .scripted .empty none none⟩

/-- The name is physical. -/
def physicalSite : Site Stage :=
  site ⟨⟨"s", .empty, none, [], []⟩, .ofList [("ds", 0)]⟩ 0 0 "s" .empty

/-- The name is routed, and the schema has no physical sources. -/
def routedSite : Site Stage :=
  site ⟨⟨"t", .empty, none, [], []⟩, .empty⟩ 1 1 "s" (.ofList [("ds", 0)])

def physicalWorld : World Stage := ⟨stubborn, [⟨⟨"s", some .empty⟩, .empty⟩], [], 0, #[], #[]⟩

def routedWorld : World Stage :=
  ⟨stubborn, [.new "t", ⟨⟨"s", some (.ofList [("ds", 0)])⟩, .empty⟩], [], 0, #[], #[]⟩

/-- The second acquisition and the release fail, and the name of the third is unknown. -/
def requests : List Request :=
  [.acquire "ds" 2 .memoryStrictly, .acquire "ds" 3 .memoryStrictly,
    .acquire "other" 1 .memoryStrictly, .isValid, .release, .heldNames]

end Stage

theorem stubborn_transparent :
    Alike Stage.Twins Stage.physicalSite Stage.routedSite ∧
      Matched Stage.Twins Stage.physicalSite Stage.routedSite Stage.physicalWorld
        Stage.routedWorld ∧
      (Stage.physicalSite.serve Stage.requests Stage.physicalWorld).1.map Record.shown =
        (Stage.routedSite.serve Stage.requests Stage.routedWorld).1.map Record.shown ∧
      (Stage.physicalSite.serve Stage.requests Stage.physicalWorld).1.map
        (fun r => r.shown.events.length) = [4, 2, 0, 0, 4, 0] := by
  have halike : Alike Stage.Twins Stage.physicalSite Stage.routedSite := by
    refine Stage.alike_sites fun env => funext fun name => ?_
    exact (Option.or_none (o := (OrderedMap.ofList [("ds", 0)]).get? name)).symm
  have hmatched : Matched Stage.Twins Stage.physicalSite Stage.routedSite Stage.physicalWorld
      Stage.routedWorld := by
    refine ⟨⟨rfl, ?_⟩, ⟨by decide, rfl⟩, ⟨by decide, rfl⟩, rfl⟩
    intro source hsource
    rw [List.mem_singleton.mp hsource]
    rfl
  obtain ⟨hrecords, -⟩ := routing_transparent halike hmatched Stage.requests
  exact ⟨halike, hmatched, hrecords, by decide +kernel⟩

end SessionBroker
